import Skibios.Layout.Windows
import Skibios.Protection.UserRegions

/-! What the MPU lets an unprivileged store do, with the regions `arch_mpu_init` and `pendsv_handler`
program and those a task may ask for. -/

namespace Skibios.Switching.Access

open Function Library.Words Kernel State Layout Protection.UserRegions
open Regions (decodeRegion Region kernelRegion kernelRbar kernelRasr Protected)

def Hit (m : Mpu) (a k : ℕ) : Prop :=
  m.rasr k % 2 = 1 ∧ (decodeRegion (m.rbar k) (m.rasr k)).Enabled a

def accessField (rasr : ℕ) : ℕ := rasr >>> 24 &&& 0b111

/-- The region of the highest number decides. Only AP 0b011 lets unprivileged code write, and the
background map (`PRIVDEFENA`) is for privileged code. -/
def UserWritable (m : Mpu) (a : ℕ) : Prop :=
  m.ctrl % 2 = 0 ∨ ∃ k < 8, Hit m a k ∧ (∀ j, k < j → j < 8 → ¬ Hit m a j) ∧
    accessField (m.rasr k) = 0b011

/-- The MPU block of `pendsv_handler`: off, the two words of the next task, on. -/
def loadRegion (table : ℕ → ℕ) (n : ℕ) (m : Mpu) : Mpu :=
  writeCtrl (writeRasr (writeRbar (writeCtrl m 0) (table (2 * n))) (table (2 * n + 1))) 5

/-- The first byte of the stack of slot `i`; `bottom B (i + 1)` is its end. -/
def bottom (B : Build) (i : ℕ) : ℕ := B.procHeapAddr + 4 * B.taskStackSize * i

/-- The build puts the stacks of all slots into the kernel section `lo .. hi`, region 6 covers the
section and `mpu_table` names the stack of each slot. -/
structure Wired (B : Build) (c : Config) (lo hi : ℕ) : Prop where
  size : 32 ≤ B.taskStackSize
  word : B.procHeapAddr % 4 = 0
  low : lo ≤ B.procHeapAddr
  high : bottom B B.maxTaskCount ≤ hi
  fits : hi < 4294967296
  section_enabled : kernelRasr c.kernelRegionSize c.kernelRegionSrd % 2 = 1
  section_access : accessField (kernelRasr c.kernelRegionSize c.kernelRegionSrd) = 0b010
  section_covered : ∀ a, lo ≤ a → a < hi →
    (decodeRegion kernelRbar (kernelRasr c.kernelRegionSize c.kernelRegionSrd)).Enabled a
  entry : ∀ i < B.maxTaskCount, c.mpuTable (2 * i) % 32 = 0b10111 ∧
    decodeRegion (c.mpuTable (2 * i) / 32 * 32) (c.mpuTable (2 * i + 1)) =
      ⟨bottom B i, 4 * B.taskStackSize, 0⟩
  entry_enabled : ∀ i < B.maxTaskCount, c.mpuTable (2 * i + 1) % 2 = 1
  entry_access : ∀ i < B.maxTaskCount, accessField (c.mpuTable (2 * i + 1)) = 0b011
  first : c.mpuPstackSize <<< 1 ||| mpuKernelDefault ||| 0b011 <<< 24 ||| mpuRegionEnable =
    c.mpuTable 1

/-- The MPU is on, region 6 is the kernel section, region 7 the stack of slot `k`. -/
structure Mapped (c : Config) (m : Mpu) (k : ℕ) : Prop where
  enabled : m.ctrl % 2 = 1
  sectionBase : m.rbar 6 = kernelRbar
  sectionAttributes : m.rasr 6 = kernelRasr c.kernelRegionSize c.kernelRegionSrd
  ownBase : m.rbar 7 = c.mpuTable (2 * k) / 32 * 32
  ownAttributes : m.rasr 7 = c.mpuTable (2 * k + 1)

variable {B : Build} {c : Config} {m : Mpu} {lo hi a i k n : ℕ}

lemma bottom_succ (B : Build) (i : ℕ) : bottom B (i + 1) = bottom B i + 4 * B.taskStackSize := by
  rw [bottom, bottom, mul_add, mul_one, add_assoc]

lemma bottom_mono (B : Build) (h : i ≤ k) : bottom B i ≤ bottom B k :=
  Nat.add_le_add_left (Nat.mul_le_mul_left _ h) _

section Registers

lemma Mapped.switched (h : Mapped c m k) (hn : c.mpuTable (2 * n) % 32 = 0b10111) :
    Mapped c (loadRegion c.mpuTable n m) n := by
  have hregion : (if (c.mpuTable (2 * n)).testBit 4 then c.mpuTable (2 * n) % 16 else m.rnr) = 7 := by
    rw [Nat.testBit_eq_decide_div_mod_eq, if_pos (by simp only [decide_eq_true_eq]; omega)]
    omega
  simp only [loadRegion, writeCtrl, writeRbar, writeRasr, hregion]
  refine ⟨?_, ?_, ?_, ?_, ?_⟩ <;> simp only
  · rw [update_of_ne (by norm_num), h.sectionBase]
  · rw [update_of_ne (by norm_num), h.sectionAttributes]
  · rw [update_self]
  · rw [update_self]

lemma Mapped.requested (h : Mapped c m k) (q : Request) : Mapped c (q.run m).2 k := by
  have hprogram : ∀ region base attributes, base % 32 = 0 → ¬ (region < 2 ∨ 5 < region) →
      Mapped c (programRegion m region base attributes) k := by
    intro region base attributes hb hr
    rw [programRegion_eq hb]
    refine ⟨?_, ?_, ?_, ?_, ?_⟩ <;> simp only
    · decide
    · rw [update_of_ne (by omega), h.sectionBase]
    · rw [update_of_ne (by omega), h.sectionAttributes]
    · rw [update_of_ne (by omega), h.ownBase]
    · rw [update_of_ne (by omega), h.ownAttributes]
  cases q with
  | enable region address attributes =>
    simp only [Request.run, userMpuEnable, svcServiceUmpuEnable]
    split_ifs with htype hregion haddress
    · exact h
    · exact h
    · exact h
    · rw [aligned, not_not] at haddress
      exact hprogram _ _ _ haddress hregion
  | disable region =>
    simp only [Request.run, userMpuDisable, svcServiceUmpuDisable]
    split_ifs with htype hregion
    · exact h
    · exact h
    · exact hprogram _ _ _ rfl hregion

lemma init_mapped (h : Wired B c lo hi) (htype : m.mputype ≠ 0) :
    Mapped c (archMpuInit c m).2 0 := by
  have hentry : c.mpuTable 0 % 32 = 16 + 7 := (h.entry 0 B.maxTaskCount_pos).1
  have hattr := h.first
  rw [archMpuInit, if_neg htype]
  refine ⟨?_, ?_, ?_, ?_, ?_⟩ <;>
    simp [initialRegions, writeCtrl, writeRnr, setRegion_eq, hentry, kernelRbar]
  · decide
  · rfl
  · exact hattr

end Registers

lemma Mapped.writable_iff (h : Mapped c m k) (hw : Wired B c lo hi) (hk : k < B.maxTaskCount)
    (hl : lo ≤ a) (hu : a < hi) : UserWritable m a ↔ bottom B k ≤ a ∧ a < bottom B (k + 1) := by
  have hown : Hit m a 7 ↔ bottom B k ≤ a ∧ a < bottom B (k + 1) := by
    rw [Hit, h.ownBase, h.ownAttributes, (hw.entry k hk).2, Region.Enabled, bottom_succ,
      and_iff_right (hw.entry_enabled k hk)]
    simp
  have hsection : Hit m a 6 := by
    rw [Hit, h.sectionBase, h.sectionAttributes]
    exact ⟨hw.section_enabled, hw.section_covered a hl hu⟩
  constructor
  · rintro (hoff | ⟨r, hr, hhit, hhigher, haccess⟩)
    · rw [h.enabled] at hoff
      cases hoff
    obtain hr6 | rfl | rfl : r < 6 ∨ r = 6 ∨ r = 7 := by omega
    · exact absurd hsection (hhigher 6 hr6 (by norm_num))
    · rw [h.sectionAttributes, hw.section_access] at haccess
      cases haccess
    · exact hown.mp hhit
  · intro hin
    refine Or.inr ⟨7, by norm_num, hown.mpr hin, fun j hj hj' => by omega, ?_⟩
    rw [h.ownAttributes]
    exact hw.entry_access k hk

section Generated

open Objgen Windows

/-- The build and the MPU constants are what `objgen` makes of an accepted parameter file. -/
structure Generated (D : Device) (R : Resources) (P : Params) (S : Sections) (B : Build)
    (c : Config) : Prop where
  sections : runObjgen D R P = .ok S
  stack : P.taskStackSize = 512 ∨ P.taskStackSize = 1024
  srd : archSpecificObjgen D P = .ok c.kernelRegionSrd
  kernelSize : kernelRegionToString P.kernelSectionSize = some c.kernelRegionSize
  stackSize : pstackSizeToString P.taskStackSize = some c.mpuPstackSize
  table : ∃ table, generatePcsMpuTable P S = some table ∧ ∀ i, c.mpuTable i = table.getD i 0
  tasks : B.maxTaskCount = (generateParamHeader D P S).maxTaskCount
  words : B.taskStackSize = (generateParamHeader D P S).taskStackSize
  heap : B.procHeapAddr = pstackAddr S

variable {D : Device} {R : Resources} {P : Params} {S : Sections} {srd : ℕ}

lemma kernelRasr_access : ∀ size ∈ [12, 13, 14, 15], ∀ srd < 256,
    kernelRasr size srd % 2 = 1 ∧ accessField (kernelRasr size srd) = 0b010 := by
  decide +kernel

lemma entry_attributes : ∀ code ∈ [0b01000, 0b01001], ∀ rasr,
    rasr = code <<< 1 ||| Objgen.mpuKernelDefault ||| mpuApPrwUrw <<< 24 ||| Objgen.mpuRegionEnable →
      rasr % 2 = 1 ∧ accessField rasr = 0b011 ∧ 4 ≤ rasr >>> 1 &&& 0b11111 := by
  simp only [forall_eq]
  decide

lemma decode_base {rbar rasr : ℕ} (h : 4 ≤ rasr >>> 1 &&& 0b11111) :
    decodeRegion (rbar / 32 * 32) rasr = decodeRegion rbar rasr := by
  obtain ⟨j, hj⟩ := Nat.exists_eq_add_of_le h
  have hpow : 2 ^ ((rasr >>> 1 &&& 0b11111) + 1) = 32 * 2 ^ j := by
    rw [hj, show 4 + j + 1 = 5 + j by omega, pow_add]
    norm_num
  simp only [decodeRegion, hpow]
  congr 2
  rw [← Nat.div_div_eq_div_mul, ← Nat.div_div_eq_div_mul, Nat.mul_div_cancel _ (by norm_num)]

lemma stack_code {size code : ℕ} (h : pstackSizeToString size = some code) :
    code ∈ [0b01000, 0b01001] := by
  rw [pstackSizeToString.eq_def] at h
  split at h
  · rw [← Option.some.inj h]
    decide
  · rw [← Option.some.inj h]
    decide
  · cases h

lemma kernel_size {size code : ℕ} (h : kernelRegionToString size = some code) :
    code ∈ [12, 13, 14, 15] ∧ nextPowerOf2 size ≤ 64 := by
  rw [kernelRegionToString] at h
  split at h
  case h_5 => cases h
  all_goals
    rename_i hp
    rw [hp, ← Option.some.inj h]
    decide

namespace Generated

lemma slot_size (h : Generated D R P S B c) : 4 * B.taskStackSize = P.taskStackSize := by
  rw [h.words]
  exact taskStackSize_eq h.stack

lemma aligned (h : Generated D R P S B c) :
    P.kernelSramAddress % (nextPowerOf2 P.kernelSectionSize * 1024) = 0 :=
  Nat.mod_eq_zero_of_dvd (Regions.accepted h.srd).2.1

lemma windowStart_bottom (h : Generated D R P S B c) (hend : S.appBaseAddress ≤ 4294967296) (i : ℕ) :
    windowStart S (generateParamHeader D P S) i = bottom B i := by
  have hlt : S.procHeapAddress < 4294967296 := by
    have hcount := B.maxTaskCount_pos
    rw [h.tasks] at hcount
    have hbelow := window_below h.sections h.stack hcount
    obtain ⟨-, -, -, happ, hghmb⟩ := accepted_sections h.sections
    have hsize := h.slot_size
    have hstack := h.stack
    rw [windowStart, ← h.words] at hbelow
    omega
  rw [windowStart, bottom, h.heap, pstackAddr, uint32_eq hlt, ← h.words]
  ring

lemma entry (h : Generated D R P S B c) (hend : S.appBaseAddress ≤ 4294967296)
    (hi : i < B.maxTaskCount) : c.mpuTable (2 * i) % 32 = 0b10111 ∧
    decodeRegion (c.mpuTable (2 * i) / 32 * 32) (c.mpuTable (2 * i + 1)) =
      ⟨bottom B i, 4 * B.taskStackSize, 0⟩ ∧
    c.mpuTable (2 * i + 1) = c.mpuPstackSize <<< 1 ||| Objgen.mpuKernelDefault |||
      mpuApPrwUrw <<< 24 ||| Objgen.mpuRegionEnable := by
  obtain ⟨table, htable, hword⟩ := h.table
  rw [generatePcsMpuTable, h.stackSize, Option.map_some, Option.some.injEq] at htable
  have hcount : i < ⌊S.maxTaskCount⌋₊ := hi.trans_eq h.tasks
  obtain ⟨hrbar, hrasr⟩ := pairs_get
    (fun i => uint32 (S.procHeapAddress + i * P.taskStackSize + 23))
    (fun _ => c.mpuPstackSize <<< 1 ||| Objgen.mpuKernelDefault ||| mpuApPrwUrw <<< 24 |||
      Objgen.mpuRegionEnable) hcount
  have hsize := taskStackSize_eq (D := D) (S := S) h.stack
  have hdvd := window_aligned h.sections h.stack h.aligned i
  have hstart : S.procHeapAddress + i * P.taskStackSize = bottom B i := by
    rw [← windowStart_eq hsize, h.windowStart_bottom hend]
  have hbelow := window_below h.sections h.stack hcount
  obtain ⟨-, -, -, happ, hghmb⟩ := accepted_sections h.sections
  rw [h.windowStart_bottom hend, ← h.words] at hbelow
  rw [h.windowStart_bottom hend] at hdvd
  have hentry := entry_decodes h.stackSize hdvd
  have hlt : bottom B i < 4294967296 := by
    have := h.stack
    have := h.slot_size
    omega
  rw [hword, hword, ← htable, List.getD_eq_getElem?_getD, List.getD_eq_getElem?_getD, hrbar, hrasr,
    hstart, Option.getD_some, Option.getD_some]
  refine ⟨hentry.1, ?_, rfl⟩
  rw [decode_base (entry_attributes _ (stack_code h.stackSize) _ rfl).2.2, hentry.2, uint32_eq hlt,
    h.slot_size]

lemma section_pos (h : Generated D R P S B c) : 0 < P.kernelSectionSize := by
  obtain ⟨hcount, -, -, -, -⟩ := accepted_sections h.sections
  have hstack := h.stack
  have hfit := stacks_fit (by omega) hcount
  have hfloor : 1 ≤ ⌊Objgen.maxTaskCount P⌋₊ := Nat.floor_pos.mpr hcount
  have hmul := Nat.mul_le_mul_right P.taskStackSize hfloor
  omega

lemma section_fits (h : Generated D R P S B c) (hp : Protected D P c.kernelRegionSrd) :
    S.appBaseAddress < 4294967296 := by
  obtain ⟨-, -, -, happ, -⟩ := accepted_sections h.sections
  have hpower := (kernel_size h.kernelSize).2
  have hle := Regions.le_nextPowerOf2 h.section_pos
  obtain ⟨hstart, -, -⟩ := (Regions.protected_iff h.section_pos h.srd).mp hp
  omega

lemma wired (h : Generated D R P S B c) (hp : Protected D P c.kernelRegionSrd) :
    Wired B c P.kernelSramAddress S.appBaseAddress := by
  obtain ⟨-, -, hproc, happ, hghmb⟩ := accepted_sections h.sections
  obtain ⟨-, halign, hsrd⟩ := Regions.accepted h.srd
  have hend := (h.section_fits hp).le
  have hsize := h.slot_size
  have hstack := h.stack
  have hcount := B.maxTaskCount_pos
  have hbase : ∀ i, windowStart S (generateParamHeader D P S) i = bottom B i :=
    h.windowStart_bottom hend
  have hzero : bottom B 0 = B.procHeapAddr := by rw [bottom, mul_zero, add_zero]
  have hdvd := window_aligned h.sections h.stack h.aligned 0
  have hlast := window_below (i := B.maxTaskCount - 1) h.sections h.stack (by rw [← h.tasks]; omega)
  rw [hbase, ← h.words] at hlast
  rw [hbase, hzero] at hdvd
  have htop : bottom B B.maxTaskCount = bottom B (B.maxTaskCount - 1) + 4 * B.taskStackSize := by
    rw [← bottom_succ, Nat.sub_add_cancel hcount]
  have hstart : B.procHeapAddr = S.procHeapAddress := by
    rw [← hzero, ← hbase, windowStart, mul_zero, zero_mul, add_zero]
  have hsrd' : c.kernelRegionSrd < 256 := by
    rw [hsrd, srdBit]
    exact Nat.lt_succ_of_le Nat.and_le_left
  have hattr := kernelRasr_access _ (kernel_size h.kernelSize).1 _ hsrd'
  have hentry := entry_attributes _ (stack_code h.stackSize) _ rfl
  exact {
    size := by omega
    word := by
      have hfour : 4 ∣ P.taskStackSize := Dvd.intro _ hsize
      exact Nat.mod_eq_zero_of_dvd (hfour.trans hdvd)
    low := by omega
    high := by omega
    fits := h.section_fits hp
    section_enabled := hattr.1
    section_access := hattr.2
    section_covered := fun a hl hu => by
      rw [Regions.decode_kernel h.kernelSize hsrd']
      exact (hp a hl (by omega)).2
    entry := fun i hi => ⟨(h.entry hend hi).1, (h.entry hend hi).2.1⟩
    entry_enabled := fun i hi => by
      rw [(h.entry hend hi).2.2]
      exact hentry.1
    entry_access := fun i hi => by
      rw [(h.entry hend hi).2.2]
      exact hentry.2.1
    first := (h.entry hend hcount).2.2.symm }

end Generated

end Generated

end Skibios.Switching.Access

import Mathlib.Order.CompletePartialOrder
import Skibios.Layout.Regions
import Mathlib.Order.Interval.Set.Disjoint

/-! The stacks of the tasks: the addresses the kernel works out for its slots against the sections
of `objgen` and the entries of `mpu_table`. -/

namespace Skibios.Layout.Windows

open Library.Words Library.Powers Objgen Regions

/-- What `svc_service_task_create` stores in `PSP_Array[i]`. -/
def slotAddress (pstackAddr taskStackSize i : ℕ) : ℕ := uint32 (pstackAddr + i * taskStackSize * 4)

lemma slotStack_eq (B : Kernel.State.Build) (s : Kernel.State.KernelState) (i : ℕ) :
    Kernel.TaskServices.slotStack B s i = slotAddress s.pstackAddr B.taskStackSize i := rfl

/-- `pstack_addr`, which takes the value of the linker symbol `_proc_heap_addr`. -/
def pstackAddr (S : Sections) : ℕ := uint32 S.procHeapAddress

def windowStart (S : Sections) (H : ParamHeader) (i : ℕ) : ℕ :=
  S.procHeapAddress + 4 * i * H.taskStackSize

def window (S : Sections) (H : ParamHeader) (i : ℕ) : Set ℕ :=
  Set.Ico (windowStart S H i) (windowStart S H i + 4 * H.taskStackSize)

/-- The kernel, `mpu_table` and the sections agree about the stacks. -/
structure Agreement (P : Params) (S : Sections) (H : ParamHeader) (table : List ℕ) : Prop where
  length : table.length = 2 * H.maxTaskCount
  -- the valid bit and region 7 in the low bits, the window of the slot in the rest
  entry : ∀ i < H.maxTaskCount, ∃ rbar rasr, table[2 * i]? = some rbar ∧
    table[2 * i + 1]? = some rasr ∧ rbar % 32 = 0b10111 ∧
    decodeRegion rbar rasr = ⟨slotAddress (pstackAddr S) H.taskStackSize i, 4 * H.taskStackSize, 0⟩
  slot : ∀ i, slotAddress (pstackAddr S) H.taskStackSize i = uint32 (windowStart S H i)
  exact : S.appBaseAddress ≤ 4294967296 → ∀ i < H.maxTaskCount,
    slotAddress (pstackAddr S) H.taskStackSize i = windowStart S H i
  aligned : ∀ i, 4 * H.taskStackSize ∣ windowStart S H i
  disjoint : ∀ i j, i ≠ j → Disjoint (window S H i) (window S H j)
  above : ∀ i, P.kernelSramAddress + 1024 * P.upperRegionSize ≤ windowStart S H i
  below : ∀ i < H.maxTaskCount, (windowStart S H i + 4 * H.taskStackSize : ℤ) ≤ S.ghmbAddress
  heap : S.ghmbAddress + 4 * H.heapBookeepingSize = S.appBaseAddress

variable {D : Device} {P : Params} {R : Resources} {S : Sections} {i j n : ℕ}

lemma accepted_sections (h : runObjgen D R P = .ok S) : 1 ≤ maxTaskCount P ∧
    S.maxTaskCount = maxTaskCount P ∧
    S.procHeapAddress = P.kernelSramAddress + P.upperRegionSize * 1024 ∧
    S.appBaseAddress = P.kernelSramAddress + P.kernelSectionSize * 1024 ∧
    S.ghmbAddress = S.appBaseAddress - P.ghmbRegionSize * 1024 := by
  rw [runObjgen] at h
  split_ifs at h with hcount hstack
  obtain rfl := Except.ok.inj h
  exact ⟨not_lt.mp hcount, rfl, rfl, rfl, rfl⟩

lemma stacks_fit (hstack : 0 < P.taskStackSize) (hcount : 1 ≤ maxTaskCount P) :
    ((⌊maxTaskCount P⌋₊ * P.taskStackSize : ℕ) : ℤ) ≤
      ((P.kernelSectionSize : ℤ) - (P.upperRegionSize + P.ghmbRegionSize)) * 1024 := by
  have hfloor := Nat.floor_le (zero_le_one.trans hcount)
  rw [maxTaskCount, le_div_iff₀ (by exact_mod_cast hstack)] at hfloor
  rw [maxTaskCount]
  exact_mod_cast hfloor

lemma pairs_length {α : Type*} (f g : ℕ → α) (n : ℕ) :
    ((List.range n).flatMap fun i => [f i, g i]).length = 2 * n := by
  induction n with
  | zero => rfl
  | succ n ih =>
    rw [List.range_succ, List.flatMap_append, List.length_append, ih]
    rfl

lemma pairs_get {α : Type*} (f g : ℕ → α) (hi : i < n) :
    ((List.range n).flatMap fun i => [f i, g i])[2 * i]? = some (f i) ∧
      ((List.range n).flatMap fun i => [f i, g i])[2 * i + 1]? = some (g i) := by
  induction n with
  | zero => omega
  | succ n ih =>
    rw [List.range_succ, List.flatMap_append]
    have hlen := pairs_length f g n
    rcases Nat.lt_succ_iff_lt_or_eq.mp hi with h | rfl
    · rw [List.getElem?_append_left (by omega), List.getElem?_append_left (by omega)]
      exact ih h
    · rw [List.getElem?_append_right (by omega), List.getElem?_append_right (by omega), hlen,
        Nat.sub_self, Nat.add_sub_cancel_left]
      exact ⟨rfl, rfl⟩

lemma taskStackSize_eq (hstack : P.taskStackSize = 512 ∨ P.taskStackSize = 1024) :
    4 * (generateParamHeader D P S).taskStackSize = P.taskStackSize := by
  have hfloor : (generateParamHeader D P S).taskStackSize = P.taskStackSize / 4 :=
    Nat.floor_div_eq_div P.taskStackSize 4
  omega

lemma slotAddress_eq (S : Sections) (H : ParamHeader) (i : ℕ) :
    slotAddress (pstackAddr S) H.taskStackSize i = uint32 (windowStart S H i) := by
  have hmul : 4 * i * H.taskStackSize = i * H.taskStackSize * 4 := by ring
  rw [slotAddress, pstackAddr, windowStart, hmul]
  exact Nat.mod_add_mod _ _ _

lemma tableRasr_fields : ∀ code ∈ [0b01000, 0b01001],
    (code <<< 1 ||| mpuKernelDefault ||| mpuApPrwUrw <<< 24 ||| mpuRegionEnable) >>> 1 &&& 0b11111 =
        code ∧
      (code <<< 1 ||| mpuKernelDefault ||| mpuApPrwUrw <<< 24 ||| mpuRegionEnable) >>> 8 &&& 0xFF =
        0 := by
  decide

lemma entry_decodes {start size code : ℕ} (hcode : pstackSizeToString size = some code)
    (halign : size ∣ start) : uint32 (start + 23) % 32 = 0b10111 ∧
    decodeRegion (uint32 (start + 23))
      (code <<< 1 ||| mpuKernelDefault ||| mpuApPrwUrw <<< 24 ||| mpuRegionEnable) =
        ⟨uint32 start, size, 0⟩ := by
  have hsize : (size = 512 ∧ code = 0b01000) ∨ (size = 1024 ∧ code = 0b01001) := by
    rw [pstackSizeToString.eq_def] at hcode
    split at hcode
    · exact Or.inl ⟨rfl, (Option.some.inj hcode).symm⟩
    · exact Or.inr ⟨rfl, (Option.some.inj hcode).symm⟩
    · cases hcode
  obtain ⟨x, rfl⟩ := halign
  rcases hsize with ⟨rfl, rfl⟩ | ⟨rfl, rfl⟩
  · obtain ⟨hcode, hsrd⟩ := tableRasr_fields 0b01000 (by decide)
    rw [decodeRegion, hcode, hsrd]
    simp only [uint32, Region.mk.injEq, and_true]
    omega
  · obtain ⟨hcode, hsrd⟩ := tableRasr_fields 0b01001 (by decide)
    rw [decodeRegion, hcode, hsrd]
    simp only [uint32, Region.mk.injEq, and_true]
    omega

lemma windowStart_eq (hsize : 4 * (generateParamHeader D P S).taskStackSize = P.taskStackSize) (i : ℕ) :
    windowStart S (generateParamHeader D P S) i = S.procHeapAddress + i * P.taskStackSize := by
  rw [windowStart, ← hsize]
  ring

lemma windowStart_lt (S : Sections) (H : ParamHeader) (hij : i < j) :
    windowStart S H i + 4 * H.taskStackSize ≤ windowStart S H j := by
  obtain ⟨k, rfl⟩ := Nat.exists_eq_add_of_lt hij
  calc windowStart S H i + 4 * H.taskStackSize
      ≤ windowStart S H i + 4 * H.taskStackSize + 4 * k * H.taskStackSize := Nat.le_add_right _ _
    _ = windowStart S H (i + k + 1) := by
      rw [windowStart, windowStart]
      ring

lemma window_disjoint (S : Sections) (H : ParamHeader) (hij : i ≠ j) :
    Disjoint (window S H i) (window S H j) := by
  rw [window, window, Set.Ico_disjoint_Ico]
  rcases Nat.lt_or_gt_of_ne hij with h | h
  · have := windowStart_lt S H h
    omega
  · have := windowStart_lt S H h
    omega

lemma window_aligned (h : runObjgen D R P = .ok S)
    (hstack : P.taskStackSize = 512 ∨ P.taskStackSize = 1024)
    (halign : P.kernelSramAddress % (nextPowerOf2 P.kernelSectionSize * 1024) = 0) (i : ℕ) :
    P.taskStackSize ∣ windowStart S (generateParamHeader D P S) i := by
  obtain ⟨-, -, hproc, -, -⟩ := accepted_sections h
  have hkb : P.taskStackSize ∣ 1024 := by
    rcases hstack with hs | hs
    · rw [hs]
      norm_num
    · rw [hs]
  have haddr : 1024 ∣ P.kernelSramAddress :=
    (Dvd.intro_left _ rfl).trans (Nat.dvd_of_mod_eq_zero halign)
  rw [windowStart_eq (taskStackSize_eq hstack), hproc]
  exact dvd_add (dvd_add (hkb.trans haddr) (hkb.mul_left _)) (Dvd.intro_left _ rfl)

lemma window_below (h : runObjgen D R P = .ok S)
    (hstack : P.taskStackSize = 512 ∨ P.taskStackSize = 1024)
    (hi : i < (generateParamHeader D P S).maxTaskCount) :
    (windowStart S (generateParamHeader D P S) i + 4 * (generateParamHeader D P S).taskStackSize : ℤ) ≤
      S.ghmbAddress := by
  obtain ⟨hcount, hmax, hproc, happ, hghmb⟩ := accepted_sections h
  have hsize := taskStackSize_eq (D := D) (S := S) hstack
  have hfit := stacks_fit (by omega) hcount
  have hi' : i + 1 ≤ ⌊maxTaskCount P⌋₊ := hmax ▸ hi
  have hmul : ((i + 1) * P.taskStackSize : ℕ) ≤ ⌊maxTaskCount P⌋₊ * P.taskStackSize :=
    Nat.mul_le_mul_right _ hi'
  rw [add_mul, one_mul] at hmul
  rw [windowStart_eq hsize, hghmb, happ, hproc]
  push_cast at *
  omega

/-- Whatever `objgen` accepts, the stack of a slot is the window its entry opens, apart from the
other stacks and from the sections around. -/
theorem layout_agreement (h : runObjgen D R P = .ok S)
    (hstack : P.taskStackSize = 512 ∨ P.taskStackSize = 1024)
    (halign : P.kernelSramAddress % (nextPowerOf2 P.kernelSectionSize * 1024) = 0) :
    ∃ table, generatePcsMpuTable P S = some table ∧
      Agreement P S (generateParamHeader D P S) table := by
  obtain ⟨-, -, hproc, -, hghmb⟩ := accepted_sections h
  have hsize := taskStackSize_eq (D := D) (S := S) hstack
  have hstart := windowStart_eq hsize
  obtain ⟨code, hcode⟩ : ∃ code, pstackSizeToString P.taskStackSize = some code := by
    rcases hstack with hs | hs <;> rw [hs] <;> exact ⟨_, rfl⟩
  have hdvd := window_aligned h hstack halign
  refine ⟨_, by rw [generatePcsMpuTable, hcode, Option.map_some], ?_⟩
  exact {
    length := pairs_length _ _ _
    entry := fun i hi => by
      obtain ⟨hrbar, hrasr⟩ := pairs_get
        (fun i => uint32 (S.procHeapAddress + i * P.taskStackSize + 23))
        (fun _ => code <<< 1 ||| mpuKernelDefault ||| mpuApPrwUrw <<< 24 ||| mpuRegionEnable) hi
      have hentry := entry_decodes hcode (hdvd i)
      rw [hstart] at hentry
      refine ⟨_, _, hrbar, hrasr, hentry.1, ?_⟩
      rw [slotAddress_eq, hsize, hstart]
      exact hentry.2
    slot := slotAddress_eq S _
    exact := fun hend i hi => by
      have := window_below h hstack hi
      rw [slotAddress_eq]
      exact uint32_eq (by omega)
    aligned := fun i => by
      rw [hsize]
      exact hdvd i
    disjoint := fun i j hij => window_disjoint S _ hij
    above := fun i => by
      rw [windowStart, hproc]
      omega
    below := fun i hi => window_below h hstack hi
    heap := by
      rw [hghmb, generateParamHeader]
      push_cast
      ring }

section Instances

def resources : Resources := ⟨160, 20, 40, 2⟩

lemma params_count : maxTaskCount (params 0x20000000 16) = 24 := by
  norm_num [maxTaskCount, params]

def sections : Sections := ⟨24, 0x2000026C, 0x20004000, 0x20003C00, 0x20000C00, 0x20000BFC⟩

lemma params_sections :
    runObjgen tm4c1294 resources (params 0x20000000 16) = .ok sections := by
  have hkstack : kstackSize tm4c1294 resources (params 0x20000000 16) = 1306 := by
    rw [kstackSize, params_count]
    norm_num [resources, params, tm4c1294]
  rw [runObjgen, params_count, hkstack, if_neg (by norm_num), if_neg (by norm_num)]
  norm_num [params, tm4c1294, sections]

theorem layout_agreement_param :
    ∃ table, generatePcsMpuTable (params 0x20000000 16) sections = some table ∧
      Agreement (params 0x20000000 16) sections
        (generateParamHeader tm4c1294 (params 0x20000000 16) sections) table := by
  refine layout_agreement params_sections (Or.inl rfl) ?_
  have hp : nextPowerOf2 16 = 2 ^ 4 := nextPowerOf2_eq (by norm_num) (by norm_num)
  rw [params, hp]
  norm_num

end Instances

end Skibios.Layout.Windows

import Skibios.Layout.Objgen

/-! The MPU region of the kernel section: which of its bytes `arch_mpu_init` protects. -/

namespace Skibios.Layout.Regions

open Library.Words Library.Powers Objgen

structure Region where
  base : ℕ
  size : ℕ
  srd : ℕ

/-- What the MPU makes of `MPURBAR` and `MPURASR`: the address bits below the size do not count. -/
def decodeRegion (rbar rasr : ℕ) : Region :=
  let size := 2 ^ ((rasr >>> 1 &&& 0b11111) + 1)
  ⟨rbar / size * size, size, rasr >>> 8 &&& 0xFF⟩

def Region.Enabled (r : Region) (a : ℕ) : Prop :=
  r.base ≤ a ∧ a < r.base + r.size ∧ r.srd.testBit ((a - r.base) / (r.size / 8)) = false

def kernelRbar : ℕ := 0x20000000

def kernelRasr (size srd : ℕ) : ℕ :=
  size <<< 1 ||| mpuKernelDefault ||| mpuApPrwUro <<< 24 ||| srd <<< 8 ||| mpuRegionEnable

/-- Region 6, with the size `next_power_of_2` asks for. -/
def kernelRegion (kernelSectionSize srd : ℕ) : Region :=
  let size := nextPowerOf2 kernelSectionSize * 1024
  ⟨kernelRbar / size * size, size, srd⟩

variable {D : Device} {P : Params} {j n p s size srd : ℕ}

lemma kernelRasr_fields : ∀ size ∈ [12, 13, 14, 15], ∀ srd < 256,
    kernelRasr size srd >>> 1 &&& 0b11111 = size ∧ kernelRasr size srd >>> 8 &&& 0xFF = srd := by
  decide +kernel

lemma decode_kernel (h : kernelRegionToString s = some size) (hsrd : srd < 256) :
    decodeRegion kernelRbar (kernelRasr size srd) = kernelRegion s srd := by
  have hsize : size ∈ [12, 13, 14, 15] ∧ nextPowerOf2 s * 1024 = 2 ^ (size + 1) := by
    rw [kernelRegionToString] at h
    split at h
    case h_5 => cases h
    all_goals
      rename_i hp
      obtain rfl := Option.some.inj h
      rw [hp]
      decide
  obtain ⟨hfield, hsrd'⟩ := kernelRasr_fields size hsize.1 srd hsrd
  rw [decodeRegion, hfield, hsrd', kernelRegion, hsize.2]

lemma srdBit_eq (hs : 0 < s) : srdBit s = 255 &&& 255 <<< (8 * s / nextPowerOf2 s) := by
  obtain ⟨k, hl, hu⟩ := exists_power hs
  have hp : 0 < nextPowerOf2 s := by
    rw [nextPowerOf2_eq hl hu]
    positivity
  have hshift : (8 : ℚ) - ((((nextPowerOf2 s : ℤ) - s) * 8 : ℤ) : ℚ) / (nextPowerOf2 s : ℕ) =
      ((8 * s : ℕ) : ℚ) / (nextPowerOf2 s : ℕ) := by
    have hne : (nextPowerOf2 s : ℚ) ≠ 0 := by exact_mod_cast hp.ne'
    push_cast
    field_simp
    ring
  rw [srdBit, hshift, Nat.floor_div_eq_div]

lemma srd_testBit (hj : j < 8) : (255 &&& 255 <<< n).testBit j = false ↔ j < n := by
  have h255 : ∀ i, (255 : ℕ).testBit i = decide (i < 8) := fun i => Nat.testBit_two_pow_sub_one 8 i
  rw [Nat.testBit_and, Nat.testBit_shiftLeft, h255, h255]
  simp only [decide_eq_true hj, Bool.true_and, Bool.and_eq_false_imp, decide_eq_true_eq,
    decide_eq_false_iff_not]
  omega

lemma kernelRegion_base_dvd (s srd : ℕ) : nextPowerOf2 s * 1024 ∣ (kernelRegion s srd).base :=
  Dvd.intro_left _ rfl

lemma le_nextPowerOf2 (hs : 0 < s) : s ≤ nextPowerOf2 s := (nextPowerOf2_isLeast hs).1.1

lemma enabled_offset {x : ℕ} (hs : 0 < s) (hx : x < 128 * (8 * s)) :
    (kernelRegion s (srdBit s)).Enabled ((kernelRegion s (srdBit s)).base + x) ↔
      x / (128 * nextPowerOf2 s) < 8 * s / nextPowerOf2 s := by
  have hle := le_nextPowerOf2 hs
  have hpart : nextPowerOf2 s * 1024 / 8 = 128 * nextPowerOf2 s := by omega
  have hcell : x / (128 * nextPowerOf2 s) < 8 := by
    rw [Nat.div_lt_iff_lt_mul (by omega)]
    omega
  rw [Region.Enabled, Nat.add_sub_cancel_left]
  change _ ∧ _ < _ + nextPowerOf2 s * 1024 ∧ (srdBit s).testBit (x / (nextPowerOf2 s * 1024 / 8)) = false ↔ _
  rw [hpart, srdBit_eq hs, srd_testBit hcell, and_iff_right (Nat.le_add_right _ _),
    and_iff_right (by omega)]

lemma enabled_iff {addr : ℕ} (hs : 0 < s) (halign : nextPowerOf2 s * 1024 ∣ addr) :
    (∀ a, addr ≤ a → a < addr + 1024 * s → (kernelRegion s (srdBit s)).Enabled a) ↔
      addr = (kernelRegion s (srdBit s)).base ∧ nextPowerOf2 s ∣ 8 * s := by
  have hp : 0 < nextPowerOf2 s := hs.trans_le (le_nextPowerOf2 hs)
  rw [← cells_cover_iff (c := 128) (by norm_num) hp]
  constructor
  · intro h
    obtain ⟨hl, hu, -⟩ := h addr le_rfl (by omega)
    have hbase := aligned_eq halign (kernelRegion_base_dvd s (srdBit s)) hl hu
    refine ⟨hbase, fun x hx => (enabled_offset hs hx).mp ?_⟩
    rw [← hbase]
    exact h (addr + x) (Nat.le_add_right _ _) (by omega)
  · rintro ⟨hbase, h⟩ a hl hu
    obtain ⟨x, rfl⟩ := Nat.exists_eq_add_of_le hl
    have hx : x < 128 * (8 * s) := by omega
    rw [hbase]
    exact (enabled_offset hs hx).mpr (h x hx)

lemma base_iff (srd : ℕ) {addr : ℕ} (hs : 0 < s) (halign : nextPowerOf2 s * 1024 ∣ addr) :
    addr = (kernelRegion s srd).base ↔ addr = 0x20000000 ∨ (addr = 0 ∧ 524288 < s) := by
  obtain ⟨k, hl, hu⟩ := exists_power hs
  have hp := nextPowerOf2_eq hl hu
  rw [hp] at halign
  have hsize : 2 ^ k * 1024 = 2 ^ (k + 10) := by
    rw [pow_add]
    norm_num
  rw [hsize] at halign
  change addr = kernelRbar / (nextPowerOf2 s * 1024) * (nextPowerOf2 s * 1024) ↔ _
  rw [hp, hsize]
  rcases Nat.lt_or_ge 19 k with hk | hk
  · have hpow : 2 ^ 30 ≤ 2 ^ (k + 10) := Nat.pow_le_pow_right (by norm_num) (by omega)
    have hs' : 524288 < s := by
      have := Nat.pow_le_pow_right (n := 2) (by norm_num) (show 20 ≤ k from hk)
      omega
    have hne : addr ≠ 0x20000000 := by
      rintro rfl
      have := Nat.le_of_dvd (by norm_num) halign
      omega
    have hzero : kernelRbar / 2 ^ (k + 10) = 0 := by
      refine Nat.div_eq_of_lt (lt_of_lt_of_le ?_ hpow)
      decide
    rw [hzero, zero_mul, or_iff_right hne, and_iff_left hs']
  · have hdvd : 2 ^ (k + 10) ∣ kernelRbar := by
      change 2 ^ (k + 10) ∣ 2 ^ 29
      exact pow_dvd_pow 2 (by omega)
    have hs' : ¬ 524288 < s := by
      have := Nat.pow_le_pow_right (n := 2) (by norm_num) hk
      omega
    rw [Nat.div_mul_cancel hdvd, or_iff_left fun h => hs' h.2]
    rfl

lemma accepted (h : archSpecificObjgen D P = .ok srd) : D.sramAddr ≤ P.kernelSramAddress ∧
    nextPowerOf2 P.kernelSectionSize * 1024 ∣ P.kernelSramAddress ∧
      srd = srdBit P.kernelSectionSize := by
  rw [archSpecificObjgen] at h
  split_ifs at h with hlow hhigh halign
  exact ⟨not_lt.mp hlow, Nat.dvd_of_mod_eq_zero (not_not.mp halign), (Except.ok.inj h).symm⟩

def Protected (D : Device) (P : Params) (srd : ℕ) : Prop :=
  ∀ a, P.kernelSramAddress ≤ a → a < P.kernelSramAddress + 1024 * P.kernelSectionSize →
    (D.sramAddr ≤ a ∧ a < D.sramAddr + D.sramSize) ∧ (kernelRegion P.kernelSectionSize srd).Enabled a

lemma in_sram_iff (hs : 0 < P.kernelSectionSize) (hlow : D.sramAddr ≤ P.kernelSramAddress) :
    (∀ a, P.kernelSramAddress ≤ a → a < P.kernelSramAddress + 1024 * P.kernelSectionSize →
      D.sramAddr ≤ a ∧ a < D.sramAddr + D.sramSize) ↔
      P.kernelSramAddress + 1024 * P.kernelSectionSize ≤ D.sramAddr + D.sramSize := by
  constructor
  · intro h
    have := (h (P.kernelSramAddress + 1024 * P.kernelSectionSize - 1) (by omega) (by omega)).2
    omega
  · intro h a hl hu
    omega

lemma protected_iff (hs : 0 < P.kernelSectionSize) (h : archSpecificObjgen D P = .ok srd) :
    Protected D P srd ↔
      (P.kernelSramAddress = 0x20000000 ∨ (P.kernelSramAddress = 0 ∧ 524288 < P.kernelSectionSize)) ∧
      (∃ m ≤ 8, ∃ j, P.kernelSectionSize = m * 2 ^ j) ∧
      P.kernelSramAddress + 1024 * P.kernelSectionSize ≤ D.sramAddr + D.sramSize := by
  obtain ⟨hlow, halign, rfl⟩ := accepted h
  obtain ⟨k, hl, hu⟩ := exists_power hs
  have hparts : nextPowerOf2 P.kernelSectionSize ∣ 8 * P.kernelSectionSize ↔
      ∃ m ≤ 8, ∃ j, P.kernelSectionSize = m * 2 ^ j := by
    rw [nextPowerOf2_eq hl hu]
    exact pow_dvd_iff (d := 3) hl hu
  rw [← hparts, ← base_iff (srdBit P.kernelSectionSize) hs halign, ← and_assoc,
    ← enabled_iff hs halign, ← in_sram_iff hs hlow]
  constructor
  · exact fun hp => ⟨fun a ha ha' => (hp a ha ha').2, fun a ha ha' => (hp a ha ha').1⟩
  · exact fun hp a ha ha' => ⟨hp.2 a ha ha', hp.1 a ha ha'⟩

/-- An accepted kernel section is protected exactly where it starts at the address `arch_mpu_init`
writes, fills whole eighths of its region and ends in the SRAM. -/
theorem kernel_section_protected (hs : 0 < P.kernelSectionSize)
    (h : archSpecificObjgen D P = .ok srd) :
    IsLeast {p | P.kernelSectionSize ≤ p ∧ ∃ j, p = 2 ^ j} (nextPowerOf2 P.kernelSectionSize) ∧
    (Protected D P srd ↔
      (P.kernelSramAddress = 0x20000000 ∨ (P.kernelSramAddress = 0 ∧ 524288 < P.kernelSectionSize)) ∧
      (∃ m ≤ 8, ∃ j, P.kernelSectionSize = m * 2 ^ j) ∧
      P.kernelSramAddress + 1024 * P.kernelSectionSize ≤ D.sramAddr + D.sramSize) :=
  ⟨nextPowerOf2_isLeast hs, protected_iff hs h⟩

section Instances

def tm4c1294 : Device := ⟨155, 0x20000000, 262144⟩

def params (kernelSramAddress kernelSectionSize : ℕ) : Params :=
  ⟨kernelSramAddress, kernelSectionSize, 3, 1, 512⟩

lemma params_accepted (addr : ℕ) {s : ℕ} (k : ℕ) (hl : s ≤ 2 ^ k) (hu : 2 ^ k < 2 * s)
    (haddr : 0x20000000 ≤ addr ∧ addr < 0x20040000) (halign : addr % (2 ^ k * 1024) = 0) :
    archSpecificObjgen tm4c1294 (params addr s) = .ok (255 &&& 255 <<< (8 * s / 2 ^ k)) := by
  have hp := nextPowerOf2_eq hl hu
  have hs : 0 < s := by
    have : 0 < 2 ^ k := by positivity
    omega
  change (if addr < 0x20000000 then _ else if 0x20040000 ≤ addr then _ else
    if addr % (nextPowerOf2 s * 1024) ≠ 0 then _ else Except.ok (srdBit s)) = _
  rw [if_neg (not_lt.mpr haddr.1), if_neg (not_le.mpr haddr.2), srdBit_eq hs, hp,
    if_neg (not_not.mpr halign)]

theorem kernel_section_protected_param :
    archSpecificObjgen tm4c1294 (params 0x20000000 16) = .ok 0 ∧
      Protected tm4c1294 (params 0x20000000 16) 0 := by
  have h := params_accepted 0x20000000 4 (le_refl 16) (by norm_num) (by norm_num) rfl
  exact ⟨h, (kernel_section_protected (by decide) h).2.mpr
    ⟨Or.inl rfl, ⟨1, by norm_num, 4, by norm_num [params]⟩, by decide⟩⟩

/-- A section that starts 16 KB into the SRAM, one that fills four eighths and a half, one larger
than the SRAM. -/
theorem kernel_section_protected_fails :
    (∃ srd, archSpecificObjgen tm4c1294 (params 0x20004000 16) = .ok srd ∧
      ¬ Protected tm4c1294 (params 0x20004000 16) srd) ∧
    (∃ srd, archSpecificObjgen tm4c1294 (params 0x20000000 9) = .ok srd ∧
      ¬ Protected tm4c1294 (params 0x20000000 9) srd) ∧
    (∃ srd, archSpecificObjgen tm4c1294 (params 0x20000000 512) = .ok srd ∧
      ¬ Protected tm4c1294 (params 0x20000000 512) srd) := by
  have hstart := params_accepted 0x20004000 4 (le_refl 16) (by norm_num) (by norm_num) rfl
  have hpart := params_accepted 0x20000000 4 (show 9 ≤ 2 ^ 4 by norm_num) (by norm_num)
    (by norm_num) rfl
  have hlarge := params_accepted 0x20000000 9 (le_refl 512) (by norm_num) (by norm_num) rfl
  refine ⟨⟨_, hstart, fun h => ?_⟩, ⟨_, hpart, fun h => ?_⟩, ⟨_, hlarge, fun h => ?_⟩⟩
  · exact absurd ((protected_iff (by decide) hstart).mp h).1 (by decide)
  · obtain ⟨m, hm, j, hj⟩ := ((protected_iff (by decide) hpart).mp h).2.1
    change 9 = m * 2 ^ j at hj
    cases j with
    | zero => omega
    | succ j =>
      rw [pow_succ, ← mul_assoc] at hj
      omega
  · exact absurd ((protected_iff (by decide) hlarge).mp h).2.2 (by decide)

end Instances

end Skibios.Layout.Regions

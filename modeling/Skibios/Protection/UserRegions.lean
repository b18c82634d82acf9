import Mathlib.Tactic.IntervalCases
import Skibios.Kernel.State

/-! The MPU regions a task sets up for itself. -/

namespace Skibios.Protection.UserRegions

open Function Kernel State

def errorMpuUnsupported : ℕ := 12
def errorInvalidMpuRegion : ℕ := 14
def errorInvalidMpuAddress : ℕ := 15

def enableUmpu : ℕ := 41
def disableUmpu : ℕ := 42

def mpuPrivdefena : ℕ := 0x00000004
def mpuEnable : ℕ := 0x00000001
def mpuShareable : ℕ := 0x00040000
def mpuCacheable : ℕ := 0x00020000
def mpuBufferable : ℕ := 0x00010000
def mpuExecuteNever : ℕ := 0x10000000
def mpuRegionEnable : ℕ := 0x00000001
def mpuKernelDefault : ℕ := mpuShareable ||| mpuCacheable ||| mpuExecuteNever

/-- The MPU registers; base and attributes are banked by region. -/
structure Mpu where
  mputype : ℕ
  ctrl : ℕ
  rnr : ℕ
  rbar : ℕ → ℕ
  rasr : ℕ → ℕ

def writeCtrl (m : Mpu) (v : ℕ) : Mpu := { m with ctrl := v }

def writeRnr (m : Mpu) (v : ℕ) : Mpu := { m with rnr := v }

/-- With VALID, bit 4, the low bits select the region. -/
def writeRbar (m : Mpu) (v : ℕ) : Mpu :=
  let region := if v.testBit 4 then v % 16 else m.rnr
  { m with rnr := region, rbar := update m.rbar region (v / 32 * 32) }

def writeRasr (m : Mpu) (v : ℕ) : Mpu := { m with rasr := update m.rasr m.rnr v }

def setRegion (m : Mpu) (region base attributes : ℕ) : Mpu :=
  writeRasr (writeRbar (writeRnr m region) base) attributes

/-- The MPU is off while a region changes. -/
def programRegion (m : Mpu) (region base attributes : ℕ) : Mpu :=
  writeCtrl (writeRnr (setRegion (writeCtrl m 0) region base attributes) 0) (mpuPrivdefena ||| mpuEnable)

/-- The constants of the build that `arch_mpu_init` programs. -/
structure Config where
  kernelRegionSize : ℕ
  kernelRegionSrd : ℕ
  mpuPstackSize : ℕ
  mpuTable : ℕ → ℕ

def initialRegions (c : Config) : List (ℕ × ℕ × ℕ) :=
  [(0, 0x00000000, mpuCacheable ||| 0b11100 <<< 1 ||| 0b110 <<< 24 ||| mpuRegionEnable),
   (1, 0x20000000, mpuShareable ||| mpuCacheable ||| 0b10001 <<< 1 ||| mpuExecuteNever |||
     0b011 <<< 24 ||| mpuRegionEnable),
   (2, 0x40000000, mpuShareable ||| mpuBufferable ||| 0b11100 <<< 1 ||| 0b011 <<< 24 |||
     mpuRegionEnable),
   (6, 0x20000000, c.kernelRegionSize <<< 1 ||| mpuKernelDefault ||| 0b010 <<< 24 |||
     c.kernelRegionSrd <<< 8 ||| mpuRegionEnable),
   (7, c.mpuTable 0, c.mpuPstackSize <<< 1 ||| mpuKernelDefault ||| 0b011 <<< 24 ||| mpuRegionEnable),
   (3, 0, 0), (4, 0, 0), (5, 0, 0)]

def archMpuInit (c : Config) (m : Mpu) : ℕ × Mpu :=
  if m.mputype = 0 then (errorMpuUnsupported, m)
  else
    let m := (initialRegions c).foldl (fun m r => setRegion m r.1 r.2.1 r.2.2) (writeCtrl m 0)
    (errorNone, writeCtrl (writeRnr m 0) (mpuPrivdefena ||| mpuEnable))

def svcServiceUmpuDisable (call : Call) (m : Mpu) : ℕ × Mpu :=
  let region := call.arg0
  if m.mputype = 0 then (errorMpuUnsupported, m)
  else if region < 2 ∨ 5 < region then (errorInvalidMpuRegion, m)
  else (errorNone, programRegion m region 0 0)

def svcServiceUmpuEnable (call : Call) (m : Mpu) : ℕ × Mpu :=
  let region := call.arg0
  let address := call.arg1
  let attributes := call.arg2
  if m.mputype = 0 then (errorMpuUnsupported, m)
  else if region < 2 ∨ 5 < region then (errorInvalidMpuRegion, m)
  else if address &&& 0x0000001F ≠ 0 then (errorInvalidMpuAddress, m)
  else (errorNone, programRegion m region address (attributes ||| mpuRegionEnable))

def userMpuEnable (region : UInt8) (address attributes : ℕ) : Mpu → ℕ × Mpu :=
  svcServiceUmpuEnable ⟨enableUmpu, (region + 3).toNat, address, attributes, 0⟩

def userMpuDisable (region : UInt8) : Mpu → ℕ × Mpu :=
  svcServiceUmpuDisable ⟨disableUmpu, (region + 3).toNat, 0, 0, 0⟩

inductive Request
  | enable (region : UInt8) (address attributes : ℕ)
  | disable (region : UInt8)

def Request.run : Request → Mpu → ℕ × Mpu
  | enable region address attributes => userMpuEnable region address attributes
  | disable region => userMpuDisable region

def systemRegions : List ℕ := [0, 1, 2, 6, 7]

/-- The system regions keep base and attributes, an error leaves every register alone. -/
structure Confined (m : Mpu) (r : ℕ × Mpu) : Prop where
  base : ∀ k ∈ systemRegions, r.2.rbar k = m.rbar k
  attributes : ∀ k ∈ systemRegions, r.2.rasr k = m.rasr k
  error : r.1 ≠ errorNone → r.2 = m

/-- The region number does not wrap around to 2, or the call is refused, or it writes what region 2
holds already. -/
def Request.Apart (m : Mpu) : Request → Prop
  | enable region address attributes => region ≠ 255 ∨ m.mputype = 0 ∨ address % 32 ≠ 0 ∨
      m.rbar 2 = address ∧ m.rasr 2 = attributes ||| mpuRegionEnable
  | disable region => region ≠ 255 ∨ m.mputype = 0 ∨ m.rbar 2 = 0 ∧ m.rasr 2 = 0

variable {c : Config} {m : Mpu} {q : Request} {region address attributes base v k : ℕ} {u : UInt8}

section Registers

lemma setRegion_eq (hb : base % 32 = 0 ∨ base % 32 = 16 + region ∧ region < 16) :
    setRegion m region base attributes =
      { m with
        rnr := region
        rbar := update m.rbar region (base / 32 * 32)
        rasr := update m.rasr region attributes } := by
  have hregion : (if base.testBit 4 then base % 16 else region) = region := by
    rw [Nat.testBit_eq_decide_div_mod_eq]
    split_ifs with hv
    · simp only [decide_eq_true_eq] at hv
      omega
    · rfl
  simp only [setRegion, writeRnr, writeRbar, writeRasr, hregion]

lemma programRegion_eq (hb : base % 32 = 0) : programRegion m region base attributes =
    { m with
      ctrl := mpuPrivdefena ||| mpuEnable
      rnr := 0
      rbar := update m.rbar region base
      rasr := update m.rasr region attributes } := by
  have hbase : base / 32 * 32 = base := by omega
  simp only [programRegion, writeCtrl, writeRnr, setRegion_eq (Or.inl hb), hbase]

lemma confined_program (hb : base % 32 = 0) :
    Confined m (errorNone, programRegion m region base attributes) ↔
      (region ∈ systemRegions → m.rbar region = base ∧ m.rasr region = attributes) := by
  rw [programRegion_eq hb]
  constructor
  · intro h hr
    have hbase := h.base region hr
    have hattr := h.attributes region hr
    simp only [update_self] at hbase hattr
    exact ⟨hbase.symm, hattr.symm⟩
  · intro h
    refine ⟨fun k hk => ?_, fun k hk => ?_, fun he => absurd rfl he⟩
    · rcases eq_or_ne k region with rfl | hne
      · exact (update_self _ _ _).trans (h hk).1.symm
      · exact update_of_ne hne _ _
    · rcases eq_or_ne k region with rfl | hne
      · exact (update_self _ _ _).trans (h hk).2.symm
      · exact update_of_ne hne _ _

lemma confined_refused (e : ℕ) : Confined m (e, m) := ⟨fun _ _ => rfl, fun _ _ => rfl, fun _ => rfl⟩

lemma offset_toNat (u : UInt8) : (u + 3).toNat = (u.toNat + 3) % 256 := by
  rw [UInt8.toNat_add]
  rfl

lemma offset_mem (hlow : ¬ ((u + 3).toNat < 2 ∨ 5 < (u + 3).toNat)) :
    (u + 3).toNat ∈ systemRegions ↔ u = 255 := by
  have hu : u = 255 ↔ u.toNat = 255 := UInt8.toNat_inj.symm
  have hlt : u.toNat < 256 := u.toNat_lt
  rw [hu]
  rw [offset_toNat] at hlow ⊢
  simp only [systemRegions, List.mem_cons, List.not_mem_nil, or_false]
  omega

lemma offset_refused (hlow : (u + 3).toNat < 2 ∨ 5 < (u + 3).toNat) : u ≠ 255 := by
  rintro rfl
  revert hlow
  decide

lemma confined_service (m : Mpu) (u : UInt8) (base attributes : ℕ) (bad : Prop) [Decidable bad]
    (hb : ¬ bad → base % 32 = 0) :
    Confined m (if m.mputype = 0 then (errorMpuUnsupported, m)
      else if (u + 3).toNat < 2 ∨ 5 < (u + 3).toNat then (errorInvalidMpuRegion, m)
      else if bad then (errorInvalidMpuAddress, m)
      else (errorNone, programRegion m (u + 3).toNat base attributes)) ↔
    u ≠ 255 ∨ m.mputype = 0 ∨ bad ∨ m.rbar 2 = base ∧ m.rasr 2 = attributes := by
  split_ifs with htype hlow hbad
  · exact iff_of_true (confined_refused _) (Or.inr (Or.inl htype))
  · exact iff_of_true (confined_refused _) (Or.inl (offset_refused hlow))
  · exact iff_of_true (confined_refused _) (Or.inr (Or.inr (Or.inl hbad)))
  rw [confined_program (hb hbad), offset_mem hlow]
  constructor
  · intro h
    by_cases hu : u = 255
    · have hheld := h hu
      rw [hu] at hheld
      exact Or.inr (Or.inr (Or.inr hheld))
    · exact Or.inl hu
  · rintro (hu | htype' | hbad' | hheld) rfl
    · exact absurd rfl hu
    · exact absurd htype' htype
    · exact absurd hbad' hbad
    · exact hheld

lemma aligned : (address &&& 0x0000001F ≠ 0) ↔ address % 32 ≠ 0 := by
  rw [show address &&& 0x0000001F = address % 32 from Nat.and_two_pow_sub_one_eq_mod address 5]

end Registers

lemma init_enabled (htype : m.mputype ≠ 0) (hstack : c.mpuTable 0 % 32 = 23) (hk : k < 8) :
    (archMpuInit c m).2.rasr k % 2 = 1 ↔ k ∈ systemRegions := by
  rw [archMpuInit, if_neg htype]
  interval_cases k <;>
    simp [initialRegions, writeCtrl, writeRnr, setRegion_eq, hstack, Nat.or_mod_two_eq_one, mpuRegionEnable, systemRegions]

theorem user_regions_confined : Confined m (q.run m) ↔ q.Apart m := by
  cases q with
  | enable region address attributes =>
    refine (confined_service m region address (attributes ||| mpuRegionEnable)
      (address &&& 0x0000001F ≠ 0) fun h => ?_).trans ?_
    · rw [aligned, not_not] at h
      exact h
    · simp only [aligned, Request.Apart]
  | disable region =>
    have h := confined_service m region 0 0 False fun _ => Nat.zero_mod 32
    simp only [if_false, false_or] at h
    exact h

section Wrapped

/-- Region 2 covers the peripherals, as `arch_mpu_init` leaves it. -/
def initialized : Mpu := (archMpuInit ⟨0b01110, 0, 0b01000, fun _ => 0x20004017⟩
  ⟨0x800, 0, 0, fun _ => 0, fun _ => 0⟩).2

theorem user_regions_confined_fails : (userMpuDisable 255 initialized).1 = errorNone ∧
    initialized.rbar 2 = 0x40000000 ∧ (userMpuDisable 255 initialized).2.rbar 2 = 0 ∧
    ¬ Confined initialized ((Request.disable 255).run initialized) := by
  refine ⟨rfl, rfl, rfl, fun h => ?_⟩
  have hbase := h.base 2 (by decide)
  revert hbase
  decide

end Wrapped

end Skibios.Protection.UserRegions

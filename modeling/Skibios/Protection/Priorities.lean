import Skibios.Protection.Interrupts
import Skibios.Protection.Confinement
import Skibios.Library.Lanes

/-! The priority fields after a sequence of SET_PRIORITY calls. -/

namespace Skibios.Protection.Priorities

open Library.Words Library.Runs Library.Lanes Kernel State Dispatch Interrupts

/-- The interrupts that have a field in the priority registers. -/
def Peripheral (n : ℕ) : Prop := 16 ≤ n ∧ n < 156

def priorityWord (n : ℕ) : ℕ := nvicPri0 + 4 * ((n - 16) / 4)

def field (m : Machine) (n : ℕ) : ℕ := lane 8 (m.regs (priorityWord n)) ((n - 16) % 4)

def masked (priority : ℕ) : ℕ := priorityWriteMask &&& priority

def Sets (B : Build) (P : Port) (m : Machine) (e : ℕ × ℕ) (t : Machine) : Prop :=
  Peripheral e.1 ∧ machineSvc B P m svcSetPriority e.1 e.2 0 0 = some (errorNone, t)

/-- The priorities requested for `n`, as they go to the register. -/
def requests (n : ℕ) (es : List (ℕ × ℕ)) : List ℕ := (es.filter fun e => e.1 = n).map fun e => masked e.2

def LastWins (m : Machine) (es : List (ℕ × ℕ)) (t : Machine) : Prop :=
  ∀ n, Peripheral n → field t n = (requests n es).getLast?.getD (field m n)

/-- No bit that the field holds at first or is given on the way is missing from the last request. -/
def Rising (m : Machine) (es : List (ℕ × ℕ)) : Prop :=
  ∀ n, Peripheral n → ∀ last ∈ (requests n es).getLast?,
    Submask (field m n) last ∧ ∀ v ∈ requests n es, Submask v last

variable {B : Build} {P : Port} {m t : Machine} {e : ℕ × ℕ} {es : List (ℕ × ℕ)} {k n p : ℕ}

lemma masked_uint8 (p : ℕ) : priorityWriteMask &&& uint8 p = masked p := by
  have hp : uint8 p = p &&& 255 := (Nat.and_two_pow_sub_one_eq_mod p 8).symm
  rw [hp, Nat.and_comm p, ← Nat.and_assoc]
  rfl

lemma masked_lt (p : ℕ) : masked p < 2 ^ 8 := lt_of_le_of_lt Nat.and_le_left (by decide)

lemma requests_concat (n : ℕ) (es : List (ℕ × ℕ)) (e : ℕ × ℕ) :
    requests n (es ++ [e]) = requests n es ++ if e.1 = n then [masked e.2] else [] := by
  unfold requests
  split_ifs with h <;> simp [h]

def given (m : Machine) (n p : ℕ) : Machine :=
  writeReg m (priorityWord n) (m.regs (priorityWord n) ||| masked p <<< (8 * ((n - 16) % 4)))

lemma run_given (hp : HasPermission m.kernel permissionIntctrl) (hn : Peripheral n) (p : ℕ) :
    (Request.setPriority n p).run B P m = some (errorNone, given m n p) := by
  obtain ⟨hlow, hhigh⟩ := hn
  have hsmall : uint8 n = n := uint8_eq (by omega)
  have hi : (Request.setPriority n p).Indexed := by
    simp only [Request.Indexed, hsmall]
    omega
  rw [run_eq hp, if_neg (by simp only [Request.number, hsmall]; omega), if_pos hi]
  simp only [Request.target, Request.value, hsmall, masked_uint8]
  rfl

lemma sets_given (hp : HasPermission m.kernel permissionIntctrl) (hn : Peripheral n) (p : ℕ) :
    Sets B P m (n, p) (given m n p) :=
  ⟨hn, run_given hp hn p⟩

lemma sets_eq (h : Sets B P m (n, p) t) : t = given m n p := by
  obtain ⟨hn, hs⟩ := h
  by_cases hp : HasPermission m.kernel permissionIntctrl
  · have hrun := run_given (B := B) (P := P) hp hn p
    exact (Prod.mk.inj (Option.some.inj (hs.symm.trans hrun))).2
  · have hrow : (machineDispatch B P).lookup svcSetPriority =
        some (checked permissionIntctrl fun call m =>
          (archInterruptPriority m (uint8 call.arg0) (uint8 call.arg1)).map fun r =>
            (r.1, call, r.2)) := rfl
    rw [Confinement.checked_refused hp hrow] at hs
    cases hs

lemma field_sets (h : Sets B P m e t) (hk : Peripheral k) :
    field t k = field m k ||| if e.1 = k then masked e.2 else 0 := by
  obtain ⟨n, p⟩ := e
  have hn := h.1
  rw [sets_eq h]
  simp only [Peripheral] at hn hk
  by_cases hw : priorityWord k = priorityWord n
  · have hlane : (n = k) ↔ (k - 16) % 4 = (n - 16) % 4 := by
      simp only [priorityWord] at hw
      omega
    simp only [field, given, writeReg, hw, Function.update_self, lane_set (masked_lt p), hlane]
  · have hne : n ≠ k := by
      rintro rfl
      exact hw rfl
    simp only [field, given, writeReg, Function.update_of_ne hw, if_neg hne, Nat.or_zero]

lemma field_run (h : Run (Sets B P) m es t) (hk : Peripheral k) :
    field t k = gather (field m k) (requests k es) := by
  induction h with
  | nil => rfl
  | snoc _ he ih =>
    rw [field_sets he hk, ih, requests_concat]
    split_ifs
    · rw [gather_concat]
    · rw [Nat.or_zero, List.append_nil]

/-- The bits of a priority can only be added to. -/
theorem last_write_wins (h : Run (Sets B P) m es t) : LastWins m es t ↔ Rising m es := by
  refine forall_congr' fun n => forall_congr' fun hn => ?_
  rw [field_run h hn]
  rcases List.eq_nil_or_concat (requests n es) with hnil | ⟨l, v, hl⟩
  · simp [hnil]
  · rw [hl, List.concat_eq_append, List.getLast?_concat, Option.getD_some]
    simp only [Option.mem_some_iff, forall_eq']
    exact gather_eq_iff (List.mem_append_right l List.mem_cons_self)

section Raised

/-- Every field is 0x20, as `arch_kernel_init` leaves them. -/
def initial : Machine := { machine with regs := fun _ => 0x20202020 }

lemma initial_permitted : HasPermission initial.kernel permissionIntctrl := machine_permitted

/-- Interrupt 35 goes from 0x60 to 0xE0, and 36 to 0xA0 in between. -/
def rising : List (ℕ × ℕ) := [(35, 0x60), (36, 0xA0), (35, 0xE0)]

lemma rising_initial : Rising initial rising := by
  intro n _ last hlast
  by_cases h35 : n = 35
  · subst h35
    revert last
    decide
  by_cases h36 : n = 36
  · subst h36
    revert last
    decide
  · have hnone : requests n rising = [] := by
      simp [requests, rising, Ne.symm h35, Ne.symm h36]
    rw [hnone] at hlast
    cases hlast

theorem last_write_wins_rising : ∃ t, Run (Sets twoSlots port) initial rising t ∧
    field t 35 = 0xE0 ∧ LastWins initial rising t := by
  have h35 : Peripheral 35 := ⟨by decide, by decide⟩
  have h36 : Peripheral 36 := ⟨by decide, by decide⟩
  have hrun : Run (Sets twoSlots port) initial rising
      (given (given (given initial 35 0x60) 36 0xA0) 35 0xE0) :=
    .cons (sets_given initial_permitted h35 _)
      (.cons (sets_given (m := given initial 35 0x60) initial_permitted h36 _)
        (.single (sets_given (m := given (given initial 35 0x60) 36 0xA0) initial_permitted h35 _)))
  exact ⟨_, hrun, by decide, (last_write_wins hrun).mpr rising_initial⟩

def raised : Machine := given initial 35 0x40

lemma raised_run : Run (Sets twoSlots port) initial [(35, 0x40)] raised :=
  .single (sets_given initial_permitted ⟨by decide, by decide⟩ _)

/-- The field holds 0x60. -/
theorem last_write_wins_fails : Run (Sets twoSlots port) initial [(35, 0x40)] raised ∧
    ¬ LastWins initial [(35, 0x40)] raised := by
  refine ⟨raised_run, fun h => ?_⟩
  have hfield := h 35 ⟨by decide, by decide⟩
  revert hfield
  decide

end Raised

end Skibios.Protection.Priorities

import Skibios.Kernel.Dispatch
import Skibios.Kernel.Events

/-! The interrupt services, called by a task with the INTCTRL permission. -/

namespace Skibios.Protection.Interrupts

open Library.Words Kernel State Dispatch

inductive Request
  | register (interrupt handler : ℕ)
  | enable (interrupt : ℕ)
  | disable (interrupt : ℕ)
  | setPriority (interrupt priority : ℕ)

namespace Request

def run (B : Build) (P : Port) (m : Machine) : Request → Option (ℕ × Machine)
  | register n handler => machineSvc B P m svcIntRegister n handler 0 0
  | enable n => machineSvc B P m svcIntEnable n 0 0 0
  | disable n => machineSvc B P m svcIntDisable n 0 0 0
  | setPriority n priority => machineSvc B P m svcSetPriority n priority 0 0

def interrupt : Request → ℕ
  | register n _ | enable n | disable n | setPriority n _ => n

/-- The one word that belongs to the interrupt. -/
def location (P : Port) : Request → ℕ
  | register n _ => uint32 (P.kernelStartAddress + 4 * n)
  | enable n => nvicEn0 + 4 * ((n - 16) / 32)
  | disable n => nvicDis0 + 4 * ((n - 16) / 32)
  | setPriority n _ => nvicPri0 + 4 * ((n - 16) / 4)

/-- Zeros written to the enable and disable registers have no effect. -/
def Stores : Request → ℕ → Prop
  | register _ handler, v => v = handler
  | enable n, v | disable n, v => v = 1 <<< ((n - 16) % 32)
  | setPriority _ _, _ => True

/-- The interrupts the service has a vector slot or a table entry for. -/
def InRange (num : ℕ) : Request → Prop
  | register n _ => n < 16 ∨ n < num
  | enable n | disable n => n < 16 ∨ n < num ∧ n < 144
  | setPriority n _ => n % 256 < 16 ∨ n < num ∧ n < 156

/-- The number the `arch_interrupt_*` function gets. -/
def number : Request → ℕ
  | register n _ | enable n | disable n => n
  | setPriority n _ => uint8 n

def Indexed : Request → Prop
  | register _ _ => True
  | enable n | disable n => (n - 16) / 32 < 4
  | setPriority n _ => (uint8 n - 16) / 4 < 35

instance (q : Request) : Decidable q.Indexed := by
  cases q <;> unfold Indexed <;> infer_instance

def target (P : Port) : Request → ℕ
  | register n _ => uint32 (P.kernelStartAddress + n * 4)
  | enable n => nvicEn0 + 4 * ((n - 16) / 32)
  | disable n => nvicDis0 + 4 * ((n - 16) / 32)
  | setPriority n _ => nvicPri0 + 4 * ((uint8 n - 16) / 4)

def value (m : Machine) : Request → ℕ
  | register _ handler => handler
  | enable n | disable n => 1 <<< ((n - 16) % 32)
  | setPriority n priority =>
    let a := nvicPri0 + 4 * ((uint8 n - 16) / 4)
    m.regs a ||| (priorityWriteMask &&& uint8 priority) <<< (8 * ((uint8 n - 16) % 4))

end Request

/-- The machine is left alone or gets one write, to the word of the interrupt. -/
def OnlyNamed (B : Build) (P : Port) (num : ℕ) (m : Machine) (q : Request) : Prop :=
  ∃ r m', q.run B P m = some (r, m') ∧ (r ≠ errorNone ∧ m' = m ∨
    16 ≤ q.interrupt ∧ q.interrupt < num ∧ ∃ v, q.Stores v ∧ m' = writeReg m (q.location P) v)

variable {B : Build} {P : Port} {m : Machine} {q : Request} {a b bank code n num v w a0 a1 : ℕ}

lemma writeReg_location (h : writeReg m a v = writeReg m b w) : a = b := by
  have hw : a :: m.written = b :: m.written := congrArg Machine.written h
  exact (List.cons.inj hw).1

lemma checked_runs {service : MachineService} {x : Option (ℕ × Machine)}
    (hp : HasPermission m.kernel permissionIntctrl)
    (hrow : (machineDispatch B P).lookup code = some (checked permissionIntctrl service))
    (hs : service ⟨code, a0, a1, 0, 0⟩ m = x.map fun r => (r.1, ⟨code, a0, a1, 0, 0⟩, r.2)) :
    machineSvc B P m code a0 a1 0 0 = x := by
  have hgo : checked permissionIntctrl service ⟨code, a0, a1, 0, 0⟩ m =
      x.map fun r => (r.1, ⟨code, a0, a1, 0, 0⟩, r.2) := (if_pos hp).trans hs
  rw [machineSvc_row m a0 a1 0 0 hrow, hgo]
  · cases x <;> rfl
  · rw [hgo]
    intro y hy
    obtain ⟨r, -, rfl⟩ := Option.map_eq_some_iff.mp hy
    rfl

lemma bank_eq : archInterruptBank bank m n = if n < 16 then some (errorInsufficientPermission, m)
    else if (n - 16) / 32 < 4 then
      some (errorNone, writeReg m (bank + 4 * ((n - 16) / 32)) (1 <<< ((n - 16) % 32)))
    else none := by
  unfold archInterruptBank
  split_ifs <;> first | rfl | omega

lemma priority_eq : archInterruptPriority m n v = if n < 16 then some (errorInsufficientPermission, m)
    else if (n - 16) / 4 < 35 then
      some (errorNone, writeReg m (nvicPri0 + 4 * ((n - 16) / 4))
        (m.regs (nvicPri0 + 4 * ((n - 16) / 4)) |||
          (priorityWriteMask &&& v) <<< (8 * ((n - 16) % 4))))
    else none := by
  unfold archInterruptPriority
  split_ifs <;> first | rfl | omega

lemma register_eq : some (archInterruptRegister P m n v) =
    if n < 16 then some (errorInsufficientPermission, m)
    else some (errorNone, writeReg m (uint32 (P.kernelStartAddress + n * 4)) v) := by
  unfold archInterruptRegister
  split_ifs <;> rfl

lemma run_eq (hp : HasPermission m.kernel permissionIntctrl) : q.run B P m =
    if q.number < 16 then some (errorInsufficientPermission, m)
    else if q.Indexed then some (errorNone, writeReg m (q.target P) (q.value m)) else none := by
  cases q with
  | register n handler =>
    refine (checked_runs (x := some (archInterruptRegister P m n handler)) hp rfl rfl).trans ?_
    rw [register_eq, if_pos (show (Request.register n handler).Indexed from trivial)]
    rfl
  | enable n => exact (checked_runs hp rfl rfl).trans bank_eq
  | disable n => exact (checked_runs hp rfl rfl).trans bank_eq
  | setPriority n priority => exact (checked_runs hp rfl rfl).trans priority_eq

lemma onlyNamed_iff (hp : HasPermission m.kernel permissionIntctrl) :
    OnlyNamed B P num m q ↔ q.number < 16 ∨ q.Indexed ∧ 16 ≤ q.interrupt ∧ q.interrupt < num ∧
      q.target P = q.location P := by
  unfold OnlyNamed
  rw [run_eq hp]
  by_cases h16 : q.number < 16
  · rw [if_pos h16]
    exact iff_of_true ⟨_, _, rfl, Or.inl ⟨by decide, rfl⟩⟩ (Or.inl h16)
  rw [if_neg h16]
  by_cases hi : q.Indexed
  · rw [if_pos hi]
    constructor
    · rintro ⟨r, m', hr, hbad | ⟨hlow, hnum, v, -, hw⟩⟩
      · obtain ⟨rfl, rfl⟩ := by simpa using hr
        exact absurd rfl hbad.1
      · obtain ⟨rfl, rfl⟩ := by simpa using hr
        exact Or.inr ⟨hi, hlow, hnum, writeReg_location hw⟩
    · rintro (hlow | ⟨-, hlow, hnum, heq⟩)
      · exact absurd hlow h16
      · refine ⟨_, _, rfl, Or.inr ⟨hlow, hnum, q.value m, ?_, by rw [heq]⟩⟩
        cases q <;> trivial
  · rw [if_neg hi]
    refine iff_of_false ?_ ?_
    · rintro ⟨r, m', hr, -⟩
      cases hr
    · rintro (hlow | ⟨hin, -⟩)
      exacts [h16 hlow, hi hin]

theorem interrupt_confined (hp : HasPermission m.kernel permissionIntctrl) :
    OnlyNamed B P num m q ↔ q.InRange num := by
  rw [onlyNamed_iff hp]
  cases q with
  | register n handler =>
    simp only [Request.number, Request.Indexed, Request.interrupt, Request.target, Request.location,
      Request.InRange, mul_comm n 4, and_true, true_and]
    omega
  | enable n =>
    simp only [Request.number, Request.Indexed, Request.interrupt, Request.target, Request.location,
      Request.InRange, and_true]
    omega
  | disable n =>
    simp only [Request.number, Request.Indexed, Request.interrupt, Request.target, Request.location,
      Request.InRange, and_true]
    omega
  | setPriority n priority =>
    simp only [Request.number, Request.Indexed, Request.interrupt, Request.target, Request.location,
      Request.InRange, uint8]
    omega

section Stray

def twoSlots : Build := Build.two

def port : Port := ⟨100, 0x20000000⟩

def machine : Machine :=
  ⟨Events.bootState twoSlots (fun _ => 0) (fun _ => ⟨0, 0, 0, 0, 0, 0, 0, 0⟩) fun _ => 0, 0, fun _ => 0,
    [], 0⟩

lemma machine_permitted : HasPermission machine.kernel permissionIntctrl := by decide

theorem interrupt_confined_timer : OnlyNamed twoSlots port 155 machine (.enable 35) ↔
    (Request.enable 35).InRange 155 :=
  interrupt_confined machine_permitted

/-- The vector table ends at 0x2000026C. -/
theorem interrupt_confined_fails : HasPermission machine.kernel permissionIntctrl ∧
    (Request.register 1000 4096).run twoSlots port machine =
      some (errorNone, writeReg machine 0x20000FA0 4096) ∧
    ¬ OnlyNamed twoSlots port 155 machine (.register 1000 4096) := by
  refine ⟨machine_permitted, run_eq machine_permitted, fun h => ?_⟩
  rcases (onlyNamed_iff machine_permitted).mp h with hlow | ⟨-, -, hnum, -⟩
  · exact absurd hlow (by decide)
  · exact absurd hnum (by decide)

end Stray

end Skibios.Protection.Interrupts

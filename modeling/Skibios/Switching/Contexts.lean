import Skibios.Library.Simulation
import Skibios.Switching.Exceptions

/-! The machine of which the ARM system is to be a refinement: every task has registers and a stack
of its own, and only its own instructions and the answers to its calls change them. -/

namespace Skibios.Switching.Contexts

open Function Kernel State Services Events Skibios.Tasks.Invariants Cortex Moves Exceptions
open Access (bottom)

/-- The kernel variables without the stacks and the saved stack pointers. -/
def shown (s : KernelState) : KernelState := { s with stack := fun _ => 0, pspArray := fun _ => 0 }

/-- A move of the kernel, as far as the other variables show it. -/
def Shown (R : KernelState → KernelState → Prop) (s t : KernelState) : Prop :=
  ∃ s' t', shown s' = s ∧ R s' t' ∧ t = shown t'

structure Tasks where
  kernel : KernelState
  ctx : ℕ → Context
  mode : Mode

/-- A creation gives a context to its slot; all others stay. -/
def Launches (B : Build) (s : KernelState) (e : Event) (t : KernelState) (ctx ctx' : ℕ → Context) :
    Prop :=
  ctx' = ctx ∨ ∃ p arg i x, e = .createTask p arg ∧ ¬ Live B s i ∧ Live B t i ∧
    Launched B (bottom B (i + 1)) (s.objs p).ptrFunc arg x ∧ ctx' = update ctx i x

inductive Step (B : Build) : Tasks → Label → Tasks → Prop
  | work {a : Tasks} {cpu : Cpu} {stack : ℕ → ℕ} (mode : a.mode = .thread) :
      Step B a (.work cpu stack) { a with
        ctx := update a.ctx a.kernel.currentTask
          (view (bottom B (a.kernel.currentTask + 1)) cpu stack) }
  | own {a : Tasks} {e : Event} {t : KernelState} {ctx : ℕ → Context} (mode : a.mode ≠ .handler)
      (own : Own a.mode a.kernel e) (move : Shown (Events.Step B · e ·) a.kernel t)
      (launch : Launches B a.kernel e t a.ctx ctx) :
      Step B a (.own e) { a with kernel := t, ctx := ctx }
  | start {a : Tasks} {cpu : Cpu} {v : ℕ} {t : KernelState} (mode : a.mode = .main)
      (move : Shown (fun s t => startScheduler B s = some (v, t)) a.kernel t) :
      -- the base task begins with what `main` had in R4 to R11
      Step B a (.start cpu) ⟨t, update a.ctx 0 (answered { a.ctx 0 with high := cpu.high } v), .handler⟩
  | call {a : Tasks} {e : Event} {v : ℕ} {t : KernelState} {ctx : ℕ → Context}
      (mode : a.mode = .thread) (move : Shown (Answered B · e v ·) a.kernel t)
      (launch : Launches B a.kernel e t a.ctx ctx) :
      Step B a (.call e v) ⟨t, update ctx a.kernel.currentTask
        (answered (ctx a.kernel.currentTask) v), .handler⟩
  | region {a : Tasks} {q : Protection.UserRegions.Request} {v : ℕ} (mode : a.mode = .thread) :
      Step B a (.region q v) { a with
        ctx := update a.ctx a.kernel.currentTask (answered (a.ctx a.kernel.currentTask) v)
        mode := .handler }
  | interrupt {a : Tasks} (mode : a.mode = .thread) : Step B a .interrupt { a with mode := .handler }
  | tick {a : Tasks} {t : KernelState} (mode : a.mode = .thread)
      (move : Shown (Events.Step B · .tick ·) a.kernel t) :
      Step B a .tick { a with kernel := t, mode := .handler }
  | scratch {a : Tasks} {low : Fin 8 → ℕ} {fpLow : Fin 17 → ℕ} (mode : a.mode = .handler) :
      Step B a (.scratch low fpLow) a
  | scheduler {a : Tasks} {t : KernelState} (mode : a.mode = .handler)
      (move : Shown (Events.Step B · .scheduler ·) a.kernel t) :
      Step B a .scheduler { a with kernel := t }
  | pendsv {a : Tasks} (mode : a.mode = .handler) (pending : a.kernel.switchPending = true) :
      Step B a .pendsv { a with kernel := Scheduler.contextSwitch a.kernel }
  | leave {a : Tasks} (mode : a.mode = .handler) (thread : InThread a.kernel) :
      Step B a .leave { a with mode := .thread }

end Skibios.Switching.Contexts

import Skibios.Switching.Contexts
import Skibios.Switching.Mpc.Frames
import Skibios.Switching.Mpc.Preemption

/-! The MPC57x8 system over registers, stacks and kernel variables, and the machine of which it is
to be a refinement: there a task has most registers for itself, and all share r2 and r13 to r31. -/

namespace Skibios.Switching.Mpc.Machines

open Function Kernel State TaskServices Services Events Tasks.Invariants
open Tasks Frames Preemption Access Contexts
open Exceptions (Mode Answered)

structure Machine where
  core : Core
  cpu : Cpu
  mode : Mode
  -- __VECTOR_RAM[0] still holds pre_context_switch_handler
  first : Bool

inductive Label
  | work (cpu : Cpu) (stack : ℕ → ℕ)
  | own (e : Event)
  | start (cpu left : Cpu)
  | call (e : Event) (v : ℕ) (left : Cpu)
  | interrupt (isr : ℕ)
  | scratch (cpu : Cpu) (stack : ℕ → ℕ)
  | core (l : Preemption.Label)
  | leave

/-- What `svc_handler` answers, and the kernel before the scheduler that a service may call. -/
def Replies (B : Build) (s : KernelState) : Event → ℕ → KernelState → Prop
  | .createTask p arg, v, t => InThread s ∧ ∃ c, Stacks.svcServiceTaskCreate .mpc57x8 B
      ⟨svcCreateTask, p, arg, 0, 0⟩ s = some (v, c, t)
  | e, v, t => Answered B s e v t

/-- What code outside the handlers does itself; `main` creates its tasks on its own stack. -/
def Own (mode : Mode) : Event → Prop
  | .store .. | .fillTask .. => True
  | .createTask .. => mode = .main
  | _ => False

def Machine.kernel (m : Machine) : KernelState := m.core.kernel

def Machine.withStack (m : Machine) (stack : ℕ → ℕ) : Machine :=
  { m with core := { m.core with kernel := { m.core.kernel with stack := stack } } }

/-- The slot on whose stack the processor works. -/
def Machine.owner (m : Machine) : ℕ :=
  match m.core.stage with
  | .chosen n true => n
  | _ => m.kernel.currentTask

def Machine.enter (isr : ℕ) (m : Machine) : Machine :=
  { (m.withStack (prologue isr m.cpu m.kernel.stack).2) with
    cpu := { m.cpu with r1 := (prologue isr m.cpu m.kernel.stack).1 }
    mode := .handler }

def Machine.enterService (m : Machine) : Machine := m.withStack (Frames.enterService m.cpu m.kernel.stack).2

def Machine.leaveService (m : Machine) (v : ℕ) (left : Cpu) (t : KernelState) : Machine :=
  { m with
    core := { m.core with kernel := t }
    cpu := Frames.leaveService (Frames.enterService m.cpu m.kernel.stack).1 v m.cpu left t.stack }

/-- `switch_mcu_mode` before its system call. -/
def Machine.switchMcuMode (m : Machine) (cpu : Cpu) : Machine :=
  { m with cpu := { cpu with r1 := m.kernel.pspArray 0, msr := cpu.msr ||| 0xD000 } }

def Machine.storePsp (m : Machine) : Machine :=
  let psp := if m.first then m.kernel.pspArray else update m.kernel.pspArray m.kernel.currentTask m.cpu.r1
  { m with core := { m.core with kernel := { m.core.kernel with pspArray := psp } } }

/-- One step of the system. No MPU confines a task on this port: that it keeps to its own stack and
leaves room for a frame there is a promise of its code. Interrupts that a handler takes work below
its stack pointer and restore its registers: they are ticks and scratch work here. -/
inductive Step (B : Build) : Machine → Label → Machine → Prop
  | work {m : Machine} {cpu : Cpu} {stack : ℕ → ℕ} (mode : m.mode = .thread)
      (running : m.kernel.switchPending = false)
      (room : Roomy (bottom B m.kernel.currentTask) (bottom B (m.kernel.currentTask + 1)) cpu.r1)
      (msr : cpu.msr = m.cpu.msr)
      (writes : ∀ a, stack a ≠ m.kernel.stack a →
        bottom B m.kernel.currentTask ≤ a ∧ a < bottom B (m.kernel.currentTask + 1)) :
      Step B m (.work cpu stack) { m.withStack stack with cpu := cpu }
  | own {m : Machine} {e : Event} {c : Core} (mode : m.mode ≠ .handler) (own : Own m.mode e)
      (step : Preemption.Step B m.core (.call e) c) : Step B m (.own e) { m with core := c }
  | start {m : Machine} {cpu left : Cpu} {c : Core} (mode : m.mode = .main)
      (first : m.kernel.firstStart = false)
      (step : Preemption.Step B (m.switchMcuMode cpu).enterService.core (.call .startScheduler) c) :
      Step B m (.start cpu left)
        { (m.switchMcuMode cpu).leaveService errorNone left c.kernel with mode := .thread }
  | call {m : Machine} {e : Event} {v : ℕ} {left : Cpu} {u t : KernelState} (mode : m.mode = .thread)
      (running : m.kernel.switchPending = false) (asked : Asked m.kernel e)
      (regular : Regular B m.kernel e) (replies : Replies B m.enterService.kernel e v u)
      (triggered : Triggered B u t) : Step B m (.call e v left) (m.leaveService v left t)
  | interrupt {m : Machine} {isr : ℕ} (mode : m.mode = .thread) :
      Step B m (.interrupt isr) (m.enter isr)
  | scratch {m : Machine} {cpu : Cpu} {stack : ℕ → ℕ} (mode : m.mode = .handler)
      (r1 : cpu.r1 = m.cpu.r1) (upper : cpu.upper = m.cpu.upper)
      (writes : ∀ a, stack a ≠ m.kernel.stack a → bottom B m.owner ≤ a ∧ a < m.cpu.r1) :
      Step B m (.scratch cpu stack) { m.withStack stack with cpu := cpu }
  | isr {m : Machine} {c : Core} {a v : ℕ} (mode : m.mode = .handler)
      (step : Preemption.Step B m.core (.isr a v) c) : Step B m (.core (.isr a v)) { m with core := c }
  | tick {m : Machine} {c : Core} (mode : m.mode = .handler)
      (step : Preemption.Step B m.core .tick c) : Step B m (.core .tick) { m with core := c }
  | fetch {m : Machine} {c : Core} (mode : m.mode = .handler)
      (step : Preemption.Step B m.storePsp.core .fetch c) : Step B m (.core .fetch) { m with core := c }
  | load {m : Machine} {c : Core} {n : ℕ} (mode : m.mode = .handler) (chosen : m.core.stage = .chosen n false)
      (step : Preemption.Step B m.core .load c) :
      Step B m (.core .load) { m with core := c, cpu := { m.cpu with r1 := m.kernel.pspArray n } }
  | store {m : Machine} {c : Core} (mode : m.mode = .handler)
      (step : Preemption.Step B m.core .store c) : Step B m (.core .store) { m with core := c }
  | clear {m : Machine} {c : Core} (mode : m.mode = .handler)
      (step : Preemption.Step B m.core .clear c) :
      Step B m (.core .clear) { m with core := c, first := false }
  | leave {m : Machine} (mode : m.mode = .handler) (outside : m.core.stage = .outside) :
      Step B m .leave { m with cpu := epilogue m.cpu m.kernel.stack, mode := .thread }

def Calls (B : Build) (e : Event) (v : ℕ) (c d : Core) : Prop :=
  Preemption.Step B c (.call e) d ∧ ∃ u, Replies B c.kernel e v u ∧ Triggered B u d.kernel

def initial (B : Build) (cpu : Cpu) (mem : ℕ → ℕ) (objs : ℕ → TaskObject) (stack : ℕ → ℕ) : Machine :=
  ⟨Preemption.initial B mem objs stack, cpu, .main, true⟩

def bare (c : Core) : Core := { c with kernel := shown c.kernel }

/-- A step of the kernel, as far as the other variables show it. -/
def Bare (R : Core → Core → Prop) (c d : Core) : Prop := ∃ c' d', bare c' = c ∧ R c' d' ∧ d = bare d'

structure Bank where
  core : Core
  ctx : ℕ → Option Context
  -- r2, r13 to r31, which no handler saves
  upper : Fin 20 → ℕ
  mode : Mode

/-- A creation gives a context to its slot; all others stay. -/
def Launches (B : Build) (s : KernelState) (e : Event) (t : KernelState) (ctx ctx' : ℕ → Option Context) :
    Prop :=
  ctx' = ctx ∨ ∃ p arg i x, e = .createTask p arg ∧ s.state i = .idle ∧ Live B t i ∧
    Launched B (bottom B (i + 1)) (s.objs p).ptrFunc x ∧ ctx' = update ctx i (some x)

inductive BankStep (B : Build) : Bank → Label → Bank → Prop
  | work {a : Bank} {cpu : Cpu} {stack : ℕ → ℕ} (mode : a.mode = .thread)
      (running : a.core.kernel.switchPending = false) :
      BankStep B a (.work cpu stack) { a with
        ctx := update a.ctx a.core.kernel.currentTask
          (some (view (bottom B (a.core.kernel.currentTask + 1)) cpu stack))
        upper := cpu.upper }
  | own {a : Bank} {e : Event} {c : Core} {ctx : ℕ → Option Context} (mode : a.mode ≠ .handler)
      (own : Own a.mode e) (step : Bare (Preemption.Step B · (.call e) ·) a.core c)
      (launch : Launches B a.core.kernel e c.kernel a.ctx ctx) :
      BankStep B a (.own e) { a with core := c, ctx := ctx }
  | start {a : Bank} {cpu left : Cpu} {c : Core} (mode : a.mode = .main)
      (step : Bare (Preemption.Step B · (.call .startScheduler) ·) a.core c) :
      BankStep B a (.start cpu left) { a with core := c, upper := cpu.upper, mode := .thread }
  | call {a : Bank} {e : Event} {v : ℕ} {left : Cpu} {c : Core} {ctx : ℕ → Option Context} {x : Context}
      (mode : a.mode = .thread) (step : Bare (Calls B e v) a.core c)
      (launch : Launches B a.core.kernel e c.kernel a.ctx ctx)
      (own : ctx a.core.kernel.currentTask = some x) :
      BankStep B a (.call e v left) { a with
        core := c
        ctx := update ctx a.core.kernel.currentTask (some (answered x v left)) }
  | interrupt {a : Bank} {isr : ℕ} (mode : a.mode = .thread) :
      BankStep B a (.interrupt isr) { a with mode := .handler }
  | scratch {a : Bank} {cpu : Cpu} {stack : ℕ → ℕ} (mode : a.mode = .handler) :
      BankStep B a (.scratch cpu stack) a
  | core {a : Bank} {l : Preemption.Label} {c : Core} (mode : a.mode = .handler)
      (step : Bare (Preemption.Step B · l ·) a.core c) : BankStep B a (.core l) { a with core := c }
  | leave {a : Bank} (mode : a.mode = .handler) (outside : a.core.stage = .outside) :
      BankStep B a .leave { a with mode := .thread }

end Skibios.Switching.Mpc.Machines

import Skibios.Switching.Moves

/-! The ARM system from `main` on: the running task, the exceptions that interrupt it, the services
it calls and the PendSV switch, over registers, stacks, MPU and kernel variables. -/

namespace Skibios.Switching.Exceptions

open Function Kernel State TaskServices Services Events Tasks.Invariants Cortex
open Protection.UserRegions (Mpu Config Request archMpuInit)
open Access (bottom loadRegion UserWritable)

/-- `main` runs on the main stack until it starts the scheduler. -/
inductive Mode
  | main
  | thread
  | handler
  deriving DecidableEq

structure Machine where
  kernel : KernelState
  cpu : Cpu
  mpu : Mpu
  mode : Mode
  -- what a handler returns with
  excReturn : ℕ

inductive Label
  -- instructions on the registers and the stack, on memory and task objects
  | work (cpu : Cpu) (stack : ℕ → ℕ)
  | own (e : Event)
  | start (cpu : Cpu)
  -- SVC with its answer, an interrupt, SysTick
  | call (e : Event) (answer : ℕ)
  | region (q : Request) (answer : ℕ)
  | interrupt
  | tick
  -- inside handlers: registers the frame holds, the pended SysTick, PendSV, the return
  | scratch (low : Fin 8 → ℕ) (fpLow : Fin 17 → ℕ)
  | scheduler
  | pendsv
  | leave

/-- The service call an API function makes; the rest of its argument registers does not matter. -/
def request (s : KernelState) : Event → Option Call
  | .createTask p arg => some ⟨svcCreateTask, p, arg, 0, 0⟩
  | .killTask pid => some ⟨svcKillTask, pid, 0, 0, 0⟩
  | .endTask => some ⟨svcKillTask, s.taskId s.currentTask, 1, 0, 0⟩
  | .hibernate n a b v => some ⟨svcHibernate, n, a, b, v⟩
  | .handOver => some ⟨svcHandOver, 0, 0, 0, 0⟩
  | .invokeBase args => some ⟨svcInvokeBase, args, 0, 0, 0⟩
  | .releaseBase e => some ⟨svcReleaseBase, e, 0, 0, 0⟩
  | .grantPermission pid w => some ⟨svcGrantPermission, pid, w, 0, 0⟩
  | .promote m => some ⟨svcPriorityPromote, m, 0, 0, 0⟩
  | .unlockTest m =>
    if s.mutexStash s.currentTask = m then some ⟨svcPriorityDemote, m, 0, 0, 0⟩ else none
  | _ => none

def Answered (B : Build) (s : KernelState) (e : Event) (answer : ℕ) (t : KernelState) : Prop :=
  InThread s ∧ ∃ c, request s e = some c ∧
    svc B s c.svcNum c.arg0 c.arg1 c.arg2 c.arg3 = some (answer, t)

/-- What code outside the handlers does itself; `main` makes its calls on the main stack. -/
def Own (mode : Mode) (s : KernelState) : Event → Prop
  | .store .. | .fillTask .. | .mutexLock _ | .clearMutex _ => True
  | .unlockTest m => s.mutexStash s.currentTask ≠ m
  | .createTask .. => mode = .main
  | _ => False

def Machine.withStack (m : Machine) (stack : ℕ → ℕ) : Machine :=
  { m with kernel := { m.kernel with stack := stack } }

def Machine.enter (stkalign : Bool) (m : Machine) : Machine :=
  { (m.withStack (pushFrame stkalign m.cpu m.kernel.stack).2.2) with
    cpu := (pushFrame stkalign m.cpu m.kernel.stack).2.1
    mode := .handler
    excReturn := (pushFrame stkalign m.cpu m.kernel.stack).1 }

/-- The end of `svc_handler` stores R0 in the frame the process stack pointer points to. -/
def Machine.answer (m : Machine) (v : ℕ) : Machine :=
  m.withStack (update m.kernel.stack m.cpu.psp v)

/-- `switch_mcu_mode`: the first stack pointer, unprivileged thread mode on the process stack. -/
def Machine.switchMcuMode (m : Machine) (cpu : Cpu) : Machine :=
  { m with cpu := { cpu with psp := m.kernel.pspArray 0, nPriv := true, fpca := false } }

def Machine.pendsv (c : Config) (m : Machine) : Machine :=
  let saved := saveContext m.excReturn m.cpu m.kernel.stack
  let pspArray := update m.kernel.pspArray m.kernel.currentTask saved.1
  let next := m.kernel.nextTask
  let loaded := loadContext (pspArray next) m.cpu saved.2
  { m with
    kernel := { Scheduler.contextSwitch m.kernel with pspArray := pspArray, stack := saved.2 }
    cpu := loaded.2
    mpu := loadRegion c.mpuTable next m.mpu
    excReturn := loaded.1 }

def Machine.leave (stkalign : Bool) (m : Machine) : Machine :=
  { m with cpu := popFrame stkalign m.excReturn m.cpu m.kernel.stack, mode := .thread }

/-- One step of the system. A task keeps to its part of the memory map because the MPU makes it, and
leaves the room on its stack that a switch needs. -/
inductive Step (B : Build) (stkalign : Bool) (c : Config) : Machine → Label → Machine → Prop
  | work {m : Machine} {cpu : Cpu} {stack : ℕ → ℕ} (mode : m.mode = .thread)
      (room : (view (bottom B (m.kernel.currentTask + 1)) cpu stack).Roomy
        (bottom B m.kernel.currentTask) (bottom B (m.kernel.currentTask + 1)))
      (nPriv : cpu.nPriv = m.cpu.nPriv)
      (writes : ∀ a, stack a ≠ m.kernel.stack a → m.cpu.nPriv = false ∨ UserWritable m.mpu a) :
      Step B stkalign c m (.work cpu stack) { m.withStack stack with cpu := cpu }
  | own {m : Machine} {e : Event} {t : KernelState} (mode : m.mode ≠ .handler)
      (own : Own m.mode m.kernel e) (regular : Regular B m.kernel e)
      (move : Events.Step B m.kernel e t) : Step B stkalign c m (.own e) { m with kernel := t }
  | start {m : Machine} {cpu : Cpu} {v : ℕ} {t : KernelState} (mode : m.mode = .main)
      (thread : InThread m.kernel) (first : m.kernel.firstStart = false)
      (move : startScheduler B ((m.switchMcuMode cpu).enter stkalign).kernel = some (v, t)) :
      -- btask_psp_correction skips the ten words PendSV is going to write
      Step B stkalign c m (.start cpu) (({ (m.switchMcuMode cpu).enter stkalign with
        kernel := t
        cpu := { ((m.switchMcuMode cpu).enter stkalign).cpu with psp := t.pspArray 0 + 40 } } :
          Machine).answer v)
  | call {m : Machine} {e : Event} {v : ℕ} {t : KernelState} (mode : m.mode = .thread)
      (regular : Regular B (m.enter stkalign).kernel e)
      (move : Answered B (m.enter stkalign).kernel e v t) :
      Step B stkalign c m (.call e v) (({ m.enter stkalign with kernel := t } : Machine).answer v)
  | region {m : Machine} {q : Request} (mode : m.mode = .thread) :
      Step B stkalign c m (.region q (q.run m.mpu).1)
        (({ m.enter stkalign with mpu := (q.run m.mpu).2 } : Machine).answer (q.run m.mpu).1)
  | interrupt {m : Machine} (mode : m.mode = .thread) :
      Step B stkalign c m .interrupt (m.enter stkalign)
  | tick {m : Machine} {t : KernelState} (mode : m.mode = .thread)
      (move : Events.Step B (m.enter stkalign).kernel .tick t) :
      Step B stkalign c m .tick { m.enter stkalign with kernel := t }
  | scratch {m : Machine} {low : Fin 8 → ℕ} {fpLow : Fin 17 → ℕ} (mode : m.mode = .handler) :
      Step B stkalign c m (.scratch low fpLow) { m with cpu := { m.cpu with low := low, fpLow := fpLow } }
  | scheduler {m : Machine} {t : KernelState} (mode : m.mode = .handler)
      (move : Events.Step B m.kernel .scheduler t) :
      Step B stkalign c m .scheduler { m with kernel := t }
  | pendsv {m : Machine} (mode : m.mode = .handler) (pending : m.kernel.switchPending = true) :
      Step B stkalign c m .pendsv (m.pendsv c)
  | leave {m : Machine} (mode : m.mode = .handler) (thread : InThread m.kernel) :
      Step B stkalign c m .leave (m.leave stkalign)

/-- `main` begins: the kernel is booted, `arch_mpu_init` has run, the registers hold anything. -/
def initial (B : Build) (c : Config) (mpu : Mpu) (cpu : Cpu) (mem : ℕ → ℕ)
    (objs : ℕ → TaskObject) (stack : ℕ → ℕ) : Machine where
  kernel := bootState B mem objs stack
  cpu := cpu
  mpu := (archMpuInit c mpu).2
  mode := .main
  excReturn := 0

end Skibios.Switching.Exceptions

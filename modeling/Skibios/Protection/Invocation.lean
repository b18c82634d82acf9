import Skibios.Sharing.WakeUp

/-! `base_run` and the loop of `BaseTask`, cut wherever a preemption can fall, beside tasks that
hibernate, lock and unlock. -/

namespace Skibios.Protection.Invocation

open Function Library.Words Library.Runs
open Kernel State Services Events
open Sharing Threads WakeUp

inductive BasePc
  | test
  | fetch
  | fetchArgs
  | readCode
  | checkCode
  | grant
  | release
  | halted
  deriving DecidableEq

/-- The place in the loop of `BaseTask`, its static variables and its local `error`. -/
structure BaseTask where
  pc : BasePc
  args : ℕ
  taskId : ℕ
  accessCode : ℕ
  error : ℕ

structure Desk where
  sys : System
  -- between the SVC of `base_run` and its read of `hib_value`
  calling : ℕ → Bool
  base : BaseTask
  -- slot and argument of the request that has not been released, and for each slot the status that
  -- has been computed for its last request
  request : Option (ℕ × ℕ)
  computed : ℕ → Option ℕ

inductive Action
  | task (a : Threads.Action)
  | baseRun (args : ℕ)
  | readStatus
  | base

namespace Desk

variable (B : Build) (fuel : ℕ) (c : Desk)

def kernel : KernelState := c.sys.kernel

def running : ℕ := c.kernel.currentTask

/-- Exceptions fall anywhere. Other moves are those of a task outside `base_run`, or of the boot
thread, which runs as slot 0 until the scheduler is started. -/
def Free : Threads.Action → Prop
  | .event e => isException e = true ∨
    c.calling c.running = false ∧ (c.running ≠ 0 ∨ c.kernel.firstStart = false)
  | _ => c.calling c.running = false ∧ c.running ≠ 0

instance (a : Threads.Action) : Decidable (c.Free a) :=
  match a with
  | .event _ => inferInstanceAs (Decidable (_ ∨ _))
  | .lock .. | .unlock _ | .advance => inferInstanceAs (Decidable (_ ∧ _))

def withKernel (t : KernelState) : Desk := { c with sys := { c.sys with kernel := t } }

def handIn (t : KernelState) (error args : ℕ) : Desk :=
  if error = errorNone then
    { c.withKernel t with
      calling := update c.calling c.running true
      request := some (c.running, args)
      computed := update c.computed c.running none }
  else c.withKernel t

def answer (error : ℕ) : ℕ → Option ℕ :=
  match c.request with
  | some (k, _) => update c.computed k (some error)
  | none => c.computed

def handOut (t : KernelState) (error : ℕ) : Desk :=
  { c.withKernel t with
    base := { c.base with pc := .test, error := error }
    request := if error = errorNone then none else c.request
    computed := if error = errorNone then c.answer (uint8 c.base.error) else c.computed }

/-- `get_invocation_args` leaves `task_id` and `args` alone when there is no invocation;
`device_reset` does not come back. -/
def turn : Option Desk :=
  match c.base.pc with
  | .test =>
    some { c with base := { c.base with pc := if c.kernel.invocatedTask ≠ 0 then .fetch else .test } }
  | .fetch =>
    some { c with
      base :=
        if c.kernel.invocatedTask = 0 then { c.base with pc := .readCode }
        else { c.base with pc := .fetchArgs, taskId := c.kernel.invocatedTask } }
  | .fetchArgs =>
    some { c with base := { c.base with pc := .readCode, args := c.kernel.invocatedArgs } }
  | .readCode =>
    some { c with
      base := { c.base with pc := .checkCode, accessCode := uint16 (c.kernel.mem c.base.args) } }
  | .checkCode =>
    some { c with base := { c.base with pc := if c.base.accessCode = 0 then .halted else .grant } }
  | .grant =>
    (svc B c.kernel svcGrantPermission c.base.taskId c.base.accessCode 0 0).map fun r =>
      { c.withKernel r.2 with base := { c.base with pc := .release, error := r.1 } }
  | .release =>
    (svc B c.kernel svcReleaseBase (uint8 c.base.error) 0 0 0).map fun r => c.handOut r.2 r.1
  | .halted => none

def move : Action → Option Desk
  | .task a => if c.Free a then (c.sys.move B fuel a).map fun s => { c with sys := s } else none
  | .baseRun args =>
    if InThread c.kernel ∧ c.kernel.firstStart = true ∧ c.running ≠ 0 ∧
        c.calling c.running = false ∧ c.sys.pc c.running = .app then
      (svc B c.kernel svcInvokeBase args 0 0 0).map fun r => c.handIn r.2 r.1 args
    else none
  | .readStatus =>
    if InThread c.kernel ∧ c.calling c.running = true then
      some { c with calling := update c.calling c.running false }
    else none
  | .base =>
    if InThread c.kernel ∧ c.running = 0 ∧ c.kernel.firstStart = true then c.turn B else none

end Desk

def Move (B : Build) (c : Desk) (a : Action) (d : Desk) : Prop := ∃ fuel, c.move B fuel a = some d

def initial (s : KernelState) : Desk where
  sys := .initial s
  calling _ := false
  base := ⟨.test, 0, 0, 0, 0⟩
  request := none
  computed _ := none

/-- Tasks that call `base_run`, lock and unlock, hibernate, hand over and create tasks; nobody is
killed, base does not hibernate, and no store goes to a mutex or to `base_mutex`, a constant. -/
def Playing (B : Build) (mutexes : List ℕ) (c : Desk) : Action → Prop
  | .task a =>
    Locking B mutexes c.sys a ∧
      match a with
      | .event (.store a _) => a ≠ B.baseMutex
      | .event (.hibernate ..) => c.running ≠ 0
      | _ => True
  | .baseRun _ | .readStatus | .base => True

/-- Nobody has the level base is promoted to, and the tick will be off: no promotion is in force, or
the counters show a single task at the top level that does not hibernate. -/
def Exclusive (B : Build) (s : KernelState) : Prop :=
  (∀ k < B.maxTaskCount, s.state k ≠ .idle → s.prioCurrent k ≠ TaskServices.promotedLevel s) ∧
    (s.maxpLevel = 127 ∨ s.alc = 1 ∧ s.hlc = 0)

/-- Such tasks, each alone at the top whenever it invokes base. -/
def Fair (B : Build) (mutexes : List ℕ) (c : Desk) (a : Action) : Prop :=
  Playing B mutexes c a ∧
    match a with
    | .baseRun _ => Exclusive B c.kernel
    | _ => True

instance (B : Build) (mutexes : List ℕ) (c : Desk) (a : Action) : Decidable (Playing B mutexes c a) :=
  match a with
  | .task (.event (.store a _)) => inferInstanceAs (Decidable (_ ∧ a ≠ B.baseMutex))
  | .task (.event (.hibernate ..)) => inferInstanceAs (Decidable (_ ∧ c.running ≠ 0))
  | .task (.event (.createTask ..)) | .task (.event .startScheduler) | .task (.event (.killTask _))
  | .task (.event .endTask) | .task (.event .handOver) | .task (.event (.invokeBase _))
  | .task (.event (.releaseBase _)) | .task (.event (.grantPermission ..))
  | .task (.event (.promote _)) | .task (.event (.mutexLock _)) | .task (.event (.clearMutex _))
  | .task (.event (.unlockTest _)) | .task (.event (.fillTask ..)) | .task (.event .tick)
  | .task (.event .scheduler) | .task (.event .contextSwitch) | .task (.lock ..)
  | .task (.unlock _) | .task .advance => inferInstanceAs (Decidable (_ ∧ True))
  | .baseRun _ | .readStatus | .base => inferInstanceAs (Decidable True)

instance (B : Build) (s : KernelState) : Decidable (Exclusive B s) :=
  inferInstanceAs (Decidable (_ ∧ _))

instance (B : Build) (mutexes : List ℕ) (c : Desk) (a : Action) : Decidable (Fair B mutexes c a) :=
  match a with
  | .baseRun _ => inferInstanceAs (Decidable (_ ∧ Exclusive B c.kernel))
  | .task _ | .readStatus | .base => inferInstanceAs (Decidable (_ ∧ True))

def Admitted (B : Build) (ok : Desk → Action → Prop) (c : Desk) (a : Action) (d : Desk) : Prop :=
  ok c a ∧ Move B c a d

def reached (B : Build) (fuel : ℕ) (ok : Desk → Action → Prop) [∀ c a, Decidable (ok c a)] (c : Desk)
    (as : List Action) : Desk :=
  (exec (fun c a => if ok c a then c.move B fuel a else none) c as).getD c

lemma run_reached {B : Build} {fuel : ℕ} {ok : Desk → Action → Prop} [∀ c a, Decidable (ok c a)]
    {c : Desk} {as : List Action}
    (h : (exec (fun c a => if ok c a then c.move B fuel a else none) c as).isSome = true) :
    Run (Admitted B ok) c as (reached B fuel ok c as) := by
  refine exec_getD_run (fun c a d hm => ?_) h
  split_ifs at hm with hok
  exact ⟨hok, fuel, hm⟩

def Quiet (B : Build) (s : KernelState) : Prop :=
  s.invocatedTask = 0 → s.prioCurrent 0 = 0 ∧
    ∀ k < B.maxTaskCount, ¬ (s.state k = .hold ∧ s.op1 k = B.baseMutex)

/-- What the protocol promises of one move. -/
structure Protocol (c : Desk) (a : Action) (d : Desk) : Prop where
  -- a request stays as it is until base, which works on it, releases it
  kept : ∀ k args, c.request = some (k, args) →
    d.request = some (k, args) ∧ d.kernel.invocatedTask = c.kernel.invocatedTask ∧
        d.kernel.invocatedArgs = c.kernel.invocatedArgs ∨
      a = .base ∧ c.base.pc = .release ∧ d.request = none ∧
        c.base.taskId = c.kernel.taskId k ∧ c.base.args = args ∧
        d.computed k = some (uint8 c.base.error)
  -- `base_run` returns the status computed for its own request
  returned : a = .readStatus → c.computed c.running = some (c.kernel.hibValue c.running)
  -- once the scheduler runs, permissions change by a grant to the requesting task only
  granted : c.kernel.firstStart = true → d.kernel.permissions = c.kernel.permissions ∨
    ∃ k args, a = .base ∧ c.base.pc = .grant ∧ c.request = some (k, args) ∧
      c.base.taskId = c.kernel.taskId k ∧ c.base.args = args ∧
      d.kernel.permissions = update c.kernel.permissions k (uint16 c.base.accessCode)

end Skibios.Protection.Invocation

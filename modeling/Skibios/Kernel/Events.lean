import Skibios.Kernel.Scheduler
import Skibios.Kernel.Services
import Skibios.Library.Runs

/-! Boot, the user-mode API around the services, and the events a running system is made of. -/

namespace Skibios.Kernel.Events

open Function Library.Words Library.Loops Library.Runs State TaskServices Services Scheduler

def errorProcessAlreadyRunning : ℕ := 5

def taskInit (B : Build) (s : KernelState) (p : ℕ) : ℕ × KernelState :=
  if ∃ i < B.maxTaskCount, s.taskObj i = p then (errorProcessAlreadyRunning, s)
  else
    let o := { s.objs p with priority := 1, taskId := 0, hibernate := 0, op1 := 0, op2 := 0, value := 0 }
    (errorNone, { s with objs := update s.objs p o })

def taskStart (B : Build) (s : KernelState) (p : ℕ) : Option (ℕ × KernelState) :=
  if ∃ i < B.maxTaskCount, s.taskObj i = p then some (errorProcessAlreadyRunning, s)
  else (svc B s svcCreateTask p 0 0 0).map fun r => (errorNone, r.2)

def clearTable (B : Build) (s : KernelState) : KernelState :=
  { s with
    state := fun k => if k < B.maxTaskCount then .idle else s.state k
    pstackAddr := B.procHeapAddr }

def prepareBase (B : Build) (s : KernelState) : KernelState :=
  let t := (taskInit B s B.baseTask).2
  let o := { t.objs B.baseTask with ptrFunc := B.baseTaskEntry, priority := 0 }
  { t with objs := update t.objs B.baseTask o }

/-- The three error words are what the port's initialisation routines return. -/
def kernelInit (B : Build) (archError timerError mpuError : ℕ) (s : KernelState) :
    Option KernelState :=
  let s := { s with firstStart := false }
  if archError ≠ 0 ∨ timerError ≠ 0 then some s
  else if mpuError ≠ 0 then some (clearTable B s)
  else (taskStart B (prepareBase B (clearTable B s)) B.baseTask).map fun r =>
    { r.2 with permissions := update r.2.permissions 0 0xFFFF, currentTask := 0 }

def boot (B : Build) (mem : ℕ → ℕ) (objs : ℕ → TaskObject) (stack : ℕ → ℕ) : Option KernelState :=
  kernelInit B 0 0 0 (reset B mem objs stack)

/-- LDREXB tests the low byte, STREX stores the whole id; the pair is taken to be atomic. -/
def mutexLock (s : KernelState) (m : ℕ) : ℕ × KernelState :=
  if s.mem m % 256 ≠ 0 then (1, s)
  else (0, { s with mem := update s.mem m (s.taskId s.currentTask) })

/-- `STRB` of 0 to the mutex, the first step of `mutex_unlock`. -/
def clearMutex (s : KernelState) (m : ℕ) : KernelState :=
  { s with mem := update s.mem m (s.mem m / 256 * 256) }

/-- The second step of `mutex_unlock`. -/
def unlockTest (B : Build) (s : KernelState) (m : ℕ) : Option KernelState :=
  if s.mutexStash s.currentTask = m then (svc B s svcPriorityDemote m 0 0 0).map Prod.snd
  else some s

def startScheduler (B : Build) (s : KernelState) : Option (ℕ × KernelState) :=
  if s.firstStart = true then some (errorSchedulerAlreadyRunning, s)
  else svc B { s with currentTask := 0 } svcStartScheduler 0 0 0 0

inductive Event
  | createTask (p arg : ℕ)
  | startScheduler
  | killTask (pid : ℕ)
  | endTask
  | hibernate (processNo op1 op2 value : ℕ)
  | handOver
  | invokeBase (args : ℕ)
  | releaseBase (error : ℕ)
  | grantPermission (pid permission : ℕ)
  | promote (m : ℕ)
  | mutexLock (m : ℕ)
  | clearMutex (m : ℕ)
  | unlockTest (m : ℕ)
  -- what application code does to its own memory
  | store (a v : ℕ)
  | fillTask (p : ℕ) (o : TaskObject)
  -- exceptions: SysTick expiring, SysTick pended by a service, PendSV
  | tick
  | scheduler
  | contextSwitch
  deriving Inhabited

/-- No exception is pending, so the running task executes. -/
def InThread (s : KernelState) : Prop := s.schedulerPending = false ∧ s.switchPending = false

instance (s : KernelState) : Decidable (InThread s) := inferInstanceAs (Decidable (_ ∧ _))

def inThread (s : KernelState) (r : Option KernelState) : Option KernelState :=
  if InThread s then r else none

def step (B : Build) (fuel : ℕ) (s : KernelState) : Event → Option KernelState
  | .createTask p arg => inThread s ((svc B s svcCreateTask p arg 0 0).map Prod.snd)
  | .startScheduler => inThread s ((startScheduler B s).map Prod.snd)
  | .killTask pid => inThread s ((svc B s svcKillTask pid 0 0 0).map Prod.snd)
  | .endTask => inThread s ((svc B s svcKillTask (s.taskId s.currentTask) 1 0 0).map Prod.snd)
  | .hibernate n a b v => inThread s ((svc B s svcHibernate n a b v).map Prod.snd)
  | .handOver => inThread s ((svc B s svcHandOver 0 0 0 0).map Prod.snd)
  | .invokeBase args => inThread s ((svc B s svcInvokeBase args 0 0 0).map Prod.snd)
  | .releaseBase e => inThread s ((svc B s svcReleaseBase e 0 0 0).map Prod.snd)
  | .grantPermission pid w => inThread s ((svc B s svcGrantPermission pid w 0 0).map Prod.snd)
  | .promote m => inThread s ((svc B s svcPriorityPromote m 0 0 0).map Prod.snd)
  | .mutexLock m => inThread s (some (mutexLock s m).2)
  | .clearMutex m => inThread s (some (clearMutex s m))
  | .unlockTest m => inThread s (unlockTest B s m)
  | .store a v => some { s with mem := update s.mem a v }
  | .fillTask p o => some { s with objs := update s.objs p o }
  | .tick => inThread s (if s.timer = true then scheduler B fuel s else none)
  | .scheduler =>
    if s.schedulerPending = true ∧ s.switchPending = false then scheduler B fuel s else none
  | .contextSwitch => if s.switchPending = true then some (contextSwitch s) else none

def Step (B : Build) (s : KernelState) (e : Event) (t : KernelState) : Prop :=
  ∃ fuel, step B fuel s e = some t

def Guarded (B : Build) (ok : KernelState → Event → Prop) (s : KernelState) (e : Event)
    (t : KernelState) : Prop :=
  ok s e ∧ Step B s e t

def guardedStep (B : Build) (fuel : ℕ) (ok : KernelState → Event → Bool) (s : KernelState)
    (e : Event) : Option KernelState :=
  if ok s e then step B fuel s e else none

lemma guardedStep_sound {B : Build} {fuel : ℕ} {ok : KernelState → Event → Bool}
    {s t : KernelState} {e : Event} (h : guardedStep B fuel ok s e = some t) :
    Guarded B (fun s e => ok s e = true) s e t := by
  unfold guardedStep at h
  split at h
  · exact ⟨‹_›, fuel, h⟩
  · cases h

lemma run_of_exec (B : Build) (fuel : ℕ) (ok : KernelState → Event → Prop)
    [∀ s e, Decidable (ok s e)] (s : KernelState) (es : List Event) (P : KernelState → Prop)
    [DecidablePred P]
    (h : (exec (guardedStep B fuel fun s e => decide (ok s e)) s es).any (fun t => decide (P t)) =
      true) : ∃ t, Run (Guarded B ok) s es t ∧ P t := by
  obtain ⟨t, hr, hp⟩ := exec_any_run (fun _ _ _ => guardedStep_sound) h
  exact ⟨t, hr.mono fun _ _ _ hg => ⟨of_decide_eq_true hg.1, hg.2⟩, hp⟩

def after (B : Build) (fuel : ℕ) (ok : KernelState → Event → Prop) [∀ s e, Decidable (ok s e)]
    (s : KernelState) (es : List Event) : KernelState :=
  (exec (guardedStep B fuel fun s e => decide (ok s e)) s es).getD s

lemma run_after {B : Build} {fuel : ℕ} {ok : KernelState → Event → Prop}
    [∀ s e, Decidable (ok s e)] {s : KernelState} {es : List Event}
    (h : (exec (guardedStep B fuel fun s e => decide (ok s e)) s es).isSome = true) :
    Run (Guarded B ok) s es (after B fuel ok s es) := by
  refine (exec_getD_run (fun _ _ _ => guardedStep_sound) h).mono ?_
  exact fun _ _ _ hg => ⟨of_decide_eq_true hg.1, hg.2⟩

lemma step_getD {B : Build} {fuel : ℕ} {s : KernelState} {e : Event}
    (h : (step B fuel s e).isSome = true) : Step B s e ((step B fuel s e).getD s) := by
  obtain ⟨t, ht⟩ := Option.isSome_iff_exists.mp h
  exact ⟨fuel, by rw [ht, Option.getD_some]⟩

section Boot

variable (B : Build) (mem : ℕ → ℕ) (objs : ℕ → TaskObject) (stack : ℕ → ℕ)

/-- The tables just before the base task is started. -/
def beforeBase : KernelState := prepareBase B (clearTable B (reset B mem objs stack))

/-- The tables once the base task sits in slot 0. -/
def bootState : KernelState :=
  { placeTask B (beforeBase B mem objs stack) B.baseTask 0 0 B.procHeapAddr 1 (fun _ => 0) with
    permissions := update (fun _ => 0) 0 0xFFFF
    currentTask := 0 }

def baseObject (o : TaskObject) : TaskObject :=
  { o with
    taskId := 0
    priority := 0
    ptrFunc := B.baseTaskEntry
    hibernate := 0
    op1 := 0
    op2 := 0
    value := 0 }

lemma prepareBase_eq (s : KernelState) (h : ∀ i, s.taskObj i = 0) : prepareBase B s =
    { s with objs := update s.objs B.baseTask (baseObject B (s.objs B.baseTask)) } := by
  have hn : ¬ ∃ i < B.maxTaskCount, s.taskObj i = B.baseTask := by
    rintro ⟨i, _, hi⟩
    exact B.baseTask_ne (hi.symm.trans (h i))
  rw [prepareBase, taskInit, if_neg hn]
  simp only [update_self, update_idem]
  rfl

lemma beforeBase_eq : beforeBase B mem objs stack =
    { clearTable B (reset B mem objs stack) with
      objs := update objs B.baseTask (baseObject B (objs B.baseTask)) } :=
  prepareBase_eq B _ fun _ => rfl

lemma insertLevel_base (s : KernelState) (hp : s.lstashPtr = 1) (hs : s.levelStash 0 = 0) :
    insertLevel B s 0 = some (1, s.levelStash) := by
  have hN := B.maxTaskCount_pos
  have ht : searchTurn B s.levelStash 0 ⟨0, 1, 0⟩ = .leave none := by
    simp [searchTurn, uint8, hs, show ¬ B.maxTaskCount ≤ 0 by omega]
  rw [insertLevel, hp, runLoop_leave ht]
  rfl

lemma boot_eq : boot B mem objs stack = some (bootState B mem objs stack) := by
  have hN := B.maxTaskCount_pos
  have hlt := B.procHeapAddr_lt
  have hpos := B.procHeapAddr_pos
  let s := beforeBase B mem objs stack
  have hs : s = _ := beforeBase_eq B mem objs stack
  have hfree : ¬ ∃ i < B.maxTaskCount, s.taskObj i = B.baseTask := by
    rintro ⟨i, _, hi⟩
    rw [hs] at hi
    exact B.baseTask_ne hi.symm
  have hidle : idleSlot B s = 0 := by
    have h0 : s.state 0 = .idle := by simp [hs, clearTable, hN]
    exact Nat.le_zero.mp (firstIndex_le_of (by simpa using h0))
  have hpsp : slotStack B s 0 = B.procHeapAddr := by
    simp [slotStack, hs, clearTable, uint32, Nat.mod_eq_of_lt hlt]
  have hcreate : svcServiceTaskCreate B ⟨svcCreateTask, B.baseTask, 0, 0, 0⟩ s =
      some (errorNone, ⟨svcCreateTask, B.baseTask, 0, 0, 0⟩,
        placeTask B s B.baseTask 0 0 B.procHeapAddr 1 (fun _ => 0)) := by
    have hprio : (s.objs B.baseTask).priority = 0 := by simp [hs, baseObject]
    have hcount : s.taskCount = 0 := by simp [hs, clearTable, reset]
    have hfirst : s.firstStart = false := by simp [hs, clearTable, reset]
    have hins : insertLevel B s 0 = some (1, fun _ => 0) := by
      rw [insertLevel_base B s] <;> simp [hs, clearTable, reset]
    simp [svcServiceTaskCreate, hprio, hcount, hfirst, hidle, hpsp, hins, hN,
      show ¬ B.maxTaskCount ≤ 0 by omega, show ¬ B.procHeapAddr = 0 by omega]
  have hstart : taskStart B s B.baseTask = some (errorNone,
      placeTask B s B.baseTask 0 0 B.procHeapAddr 1 (fun _ => 0)) := by
    rw [taskStart, if_neg hfree, svc_createTask, hcreate]
    rfl
  change (taskStart B s B.baseTask).map _ = _
  rw [hstart, Option.map_some, bootState]
  congr 2
  simp [placeTask, s, hs, clearTable, reset]

def booted (objs : ℕ → TaskObject) (stack : ℕ → ℕ) : KernelState :=
  { reset B mem objs stack with
    pstackAddr := B.procHeapAddr
    pspArray := update (fun _ => 0) 0 (initialPsp B B.procHeapAddr)
    taskObj := update (fun _ => 0) 0 B.baseTask
    taskId := update (fun _ => 0) 0 1
    state := update (fun _ => .idle) 0 .sleep
    permissions := update (fun _ => 0) 0 0xFFFF
    totalTaskCount := 1
    taskCount := 1
    alc := 1 }

lemma raiseLevels_none (s : KernelState) (prio : ℕ → ℕ) (state : ℕ → TaskState)
    (h : ∀ j < B.maxTaskCount, prio j ≤ s.maxLevel) :
    raiseLevels B s prio state = ⟨s.maxLevel, s.alc, s.hlc, s.timer⟩ := by
  refine forRange_invariant (fun _ (l : Levels) => l = ⟨s.maxLevel, s.alc, s.hlc, s.timer⟩) _ rfl ?_
  rintro j l hj rfl
  rw [if_neg fun hlt => absurd hlt.1 (not_lt.mpr (h j hj))]

lemma bootState_eq : ∃ objs' stack', bootState B mem objs stack = booted B mem objs' stack' := by
  refine ⟨(bootState B mem objs stack).objs, (bootState B mem objs stack).stack, ?_⟩
  have hstate : newState (beforeBase B mem objs stack) B.baseTask 0 =
      update (fun _ => .idle) 0 .sleep := by
    rw [newState, beforeBase_eq]
    simp only [update_self, baseObject, Nat.zero_and, hibernateStateMask, clearTable, reset, ite_self]
    rfl
  have hprio : update (beforeBase B mem objs stack).prioCurrent 0
      ((beforeBase B mem objs stack).objs B.baseTask).priority = fun _ => 0 := by
    rw [beforeBase_eq]
    simp [clearTable, reset, baseObject]
  have hlevels : newLevels B (beforeBase B mem objs stack) B.baseTask 0 = ⟨0, 1, 0, false⟩ := by
    rw [newLevels, hstate, hprio, raiseLevels_none _ _ _ _ fun j _ => Nat.zero_le _, beforeBase_eq]
    simp [countNew, clearTable, reset, baseObject, TaskState.code, hibernateStateMask, uint8]
  rw [bootState, placeTask, hlevels, hstate, hprio, beforeBase_eq]
  simp [booted, clearTable, reset, linkSlot, newTaskId, uint32, uint16]

end Boot

end Skibios.Kernel.Events

import Skibios.Kernel.TaskServices

/-! The services of `kernel.c` and `svr_permissions.c`, the dispatch table and the ARM handler that
runs a chain of services. -/

namespace Skibios.Kernel.Services

open Function Library.Words Library.Loops State TaskServices

def svcCreateTask : ℕ := 10
def svcKillTask : ℕ := 12
def svcHibernate : ℕ := 13
def svcPriorityPromote : ℕ := 16
def svcPriorityDemote : ℕ := 17
def svcInvokeBase : ℕ := 18
def svcReleaseBase : ℕ := 19
def svcStartScheduler : ℕ := 20
def svcGrantPermission : ℕ := 44

def handOverState (s : KernelState) : KernelState :=
  { s with
    state := if s.selfKill then s.state else update s.state s.currentTask .sleep
    selfKill := false
    normalSchedule := false
    schedulerPending := true }

def svcServiceHandOver : Service := fun call s => some (errorNone, call, handOverState s)

def startState (B : Build) (s : KernelState) : KernelState :=
  { s with
    maxpLevel := 127
    permissions := fun k => if k = 0 then 0xFFFF else if k < B.maxTaskCount then 0
      else s.permissions k
    firstStart := true
    selfKill := false }

def svcServiceStartScheduler (B : Build) : Service := fun call s =>
  some (errorNone, { call with svcNum := svcHandOver }, startState B s)

def invokeState (s : KernelState) (args : ℕ) : KernelState :=
  { s with invocatedTask := s.taskId s.currentTask, invocatedArgs := args }

def svcServiceInvokeBase (B : Build) : Service := fun call s =>
  if s.currentTask = 0 then some (errorBaseProcess, call, s)
  else some (errorNone, { call with arg0 := B.baseMutex, svcNum := svcPriorityPromote },
    invokeState s call.arg0)

/-- The first slot whose `task_id` is `pid`; an idle slot carries 0. -/
def slotOf (B : Build) (s : KernelState) (pid : ℕ) : ℕ :=
  firstIndex (fun i => s.taskId i = pid) B.maxTaskCount

def answerState (s : KernelState) (i error : ℕ) : KernelState :=
  { s with hibValue := update s.hibValue i error, invocatedTask := 0, invocatedArgs := 0 }

def svcServiceReleaseBase (B : Build) : Service := fun call s =>
  if s.currentTask ≠ 0 then some (errorInsufficientPermission, call, s)
  else
    let i := slotOf B s s.invocatedTask
    if i = B.maxTaskCount then some (errorUnknownProcessId, call, s)
    else some (errorNone, { call with svcNum := svcPriorityDemote }, answerState s i call.arg0)

def grantState (s : KernelState) (i permission : ℕ) : KernelState :=
  { s with permissions := update s.permissions i (uint16 permission) }

def svcServiceGrantPermission (B : Build) : Service := fun call s =>
  if s.currentTask ≠ 0 then some (errorInsufficientPermission, call, s)
  else
    let i := slotOf B s call.arg0
    if i = B.maxTaskCount then some (errorUnknownProcessId, call, s)
    else some (errorNone, call, grantState s i call.arg1)

/-- The rows of `svc_dispatch` that touch the task tables. -/
def svcDispatch (B : Build) : List (ℕ × Service) :=
  [(svcHandOver, svcServiceHandOver),
   (svcHibernate, svcServiceHibernate),
   (svcPriorityPromote, svcServicePriorityPromote B),
   (svcPriorityDemote, svcServicePriorityDemote B),
   (svcCreateTask, svcServiceTaskCreate B),
   (svcKillTask, svcServiceTaskKill B),
   (svcInvokeBase, svcServiceInvokeBase B),
   (svcReleaseBase, svcServiceReleaseBase B),
   (svcGrantPermission, svcServiceGrantPermission B),
   (svcStartScheduler, svcServiceStartScheduler B)]

/-- Runs services until one leaves `*svc_num` alone; the result is what the caller finds in R0. An
unknown code leaves the handler's own frame pointer there. -/
def svcHandler (table : List (ℕ × Service)) (frame : ℕ) :
    ℕ → Call → KernelState → Option (ℕ × KernelState)
  | 0, _, _ => none
  | n + 1, call, s =>
    match table.lookup call.svcNum with
    | none => some (frame, s)
    | some service =>
      (service call s).bind fun (r, call', t) =>
        if call'.svcNum = call.svcNum then some (r, t) else svcHandler table frame n call' t

/-- No chain is longer than RELEASE_BASE, PRIORITY_DEMOTE, HAND_OVER. -/
def svc (B : Build) (s : KernelState) (code a0 a1 a2 a3 : ℕ) : Option (ℕ × KernelState) :=
  svcHandler (svcDispatch B) B.handlerFrame 4 ⟨code, a0, a1, a2, a3⟩ s

lemma svcHandler_step {table : List (ℕ × Service)} {frame n : ℕ} {call : Call} {s : KernelState}
    (service : Service) (h : table.lookup call.svcNum = some service) :
    svcHandler table frame (n + 1) call s = (service call s).bind fun r =>
      if r.2.1.svcNum = call.svcNum then some (r.1, r.2.2)
      else svcHandler table frame n r.2.1 r.2.2 := by
  simp [svcHandler, h]

variable (B : Build) (s : KernelState) (a0 a1 a2 a3 : ℕ)

lemma svc_handOver : svc B s svcHandOver a0 a1 a2 a3 = some (errorNone, handOverState s) := rfl

lemma svc_startScheduler : svc B s svcStartScheduler a0 a1 a2 a3 =
    some (errorNone, handOverState (startState B s)) := rfl

lemma svc_demote : svc B s svcPriorityDemote a0 a1 a2 a3 =
    some (errorNone, handOverState (demoteCurrent B s)) := rfl

lemma svc_promote : svc B s svcPriorityPromote a0 a1 a2 a3 =
    if B.maxTaskCount ≤ s.mem a0 >>> 16 then none
    else some (errorNone, promoteSlot s a0 (s.mem a0 >>> 16)) := by
  rw [svc, svcHandler_step (svcServicePriorityPromote B) rfl]
  by_cases h : B.maxTaskCount ≤ s.mem a0 >>> 16 <;> simp [svcServicePriorityPromote, h]

lemma svc_createTask : svc B s svcCreateTask a0 a1 a2 a3 =
    (svcServiceTaskCreate B ⟨svcCreateTask, a0, a1, a2, a3⟩ s).map fun r => (r.1, r.2.2) := by
  rw [svc, svcHandler_step (svcServiceTaskCreate B) rfl]
  simp only [svcServiceTaskCreate]
  split_ifs <;> cases insertLevel B s (s.objs a0).priority <;> rfl

lemma svc_killTask (hf : a1 ≠ 1) : svc B s svcKillTask a0 a1 a2 a3 =
    (svcServiceTaskKill B ⟨svcKillTask, a0, a1, a2, a3⟩ s).map fun r => (r.1, r.2.2) := by
  rw [svc, svcHandler_step (svcServiceTaskKill B) rfl]
  simp only [svcServiceTaskKill]
  split_ifs
  · rfl
  · cases removeLevel B s (uint8 (a0 >>> 16)) <;> simp [hf]

lemma svc_killTask_self : svc B s svcKillTask a0 1 a2 a3 =
    (svcServiceTaskKill B ⟨svcKillTask, a0, 1, a2, a3⟩ s).map fun r =>
      (errorNone, handOverState r.2.2) := by
  rw [svc, svcHandler_step (svcServiceTaskKill B) rfl]
  simp only [svcServiceTaskKill]
  split_ifs
  · rfl
  · cases removeLevel B s (uint8 (a0 >>> 16)) <;> rfl

lemma svc_hibernate : svc B s svcHibernate a0 a1 a2 a3 =
    some (errorNone, hibernateState s a0 a1 a2 a3) := rfl

lemma svc_invokeBase : svc B s svcInvokeBase a0 a1 a2 a3 =
    if s.currentTask = 0 then some (errorBaseProcess, s)
    else if B.maxTaskCount ≤ s.mem B.baseMutex >>> 16 then none
    else some (errorNone,
      promoteSlot (invokeState s a0) B.baseMutex (s.mem B.baseMutex >>> 16)) := by
  rw [svc, svcHandler_step (svcServiceInvokeBase B) rfl]
  by_cases hc : s.currentTask = 0
  · simp [svcServiceInvokeBase, hc]
  · have hne : ¬ (svcPriorityPromote = svcInvokeBase) := by decide
    simp only [svcServiceInvokeBase, hc, if_false, Option.bind_some, hne]
    rw [svcHandler_step (svcServicePriorityPromote B) rfl]
    by_cases h : B.maxTaskCount ≤ s.mem B.baseMutex >>> 16 <;>
      simp [svcServicePriorityPromote, invokeState, h]

lemma svc_releaseBase : svc B s svcReleaseBase a0 a1 a2 a3 =
    if s.currentTask ≠ 0 then some (errorInsufficientPermission, s)
    else if slotOf B s s.invocatedTask = B.maxTaskCount then some (errorUnknownProcessId, s)
    else some (errorNone,
      handOverState (demoteCurrent B (answerState s (slotOf B s s.invocatedTask) a0))) := by
  rw [svc, svcHandler_step (svcServiceReleaseBase B) rfl]
  simp only [svcServiceReleaseBase]
  split_ifs <;> rfl

lemma svc_grantPermission : svc B s svcGrantPermission a0 a1 a2 a3 =
    if s.currentTask ≠ 0 then some (errorInsufficientPermission, s)
    else if slotOf B s a0 = B.maxTaskCount then some (errorUnknownProcessId, s)
    else some (errorNone, grantState s (slotOf B s a0) a1) := by
  rw [svc, svcHandler_step (svcServiceGrantPermission B) rfl]
  simp only [svcServiceGrantPermission]
  split_ifs <;> simp

end Skibios.Kernel.Services

import Skibios.Kernel.Dispatch

/-! The handler of the OSSIM port beside that of the ARM port: two dispatch loops over one table. -/

namespace Skibios.Kernel.Ossim

open Function Library.Words State TaskServices Services Dispatch

/-- What the services ask of their port. -/
structure Layer where
  interruptEnable : Machine → ℕ → Option (ℕ × Machine)
  interruptDisable : Machine → ℕ → Option (ℕ × Machine)
  interruptRegister : Machine → ℕ → ℕ → Option (ℕ × Machine)
  interruptPriority : Machine → ℕ → ℕ → Option (ℕ × Machine)
  timerConfig : Machine → ℕ → Option (ℕ × Machine)
  deviceReset : Machine → Machine

def armLayer (P : Port) : Layer where
  interruptEnable := archInterruptEnable
  interruptDisable := archInterruptDisable
  interruptRegister m interrupt handler := some (archInterruptRegister P m interrupt handler)
  interruptPriority := archInterruptPriority
  timerConfig m newCpuFreq := some (osTimerConfig P m newCpuFreq)
  deviceReset m := { m with resets := m.resets + 1 }

def ossimLayer : Layer where
  interruptEnable m _ := some (errorNone, m)
  interruptDisable m _ := some (errorNone, m)
  interruptRegister m _ _ := some (errorNone, m)
  interruptPriority m _ _ := some (errorNone, m)
  timerConfig m _ := some (errorNone, m)
  deviceReset m := m

/-- A service that hands on what its port answers. -/
def relayed (f : Call → Machine → Option (ℕ × Machine)) : MachineService := fun call m =>
  (f call m).map fun r => (r.1, call, r.2)

/-- `svc_dispatch` up to its terminator. -/
def layerDispatch (B : Build) (L : Layer) : List (ℕ × MachineService) :=
  [(svcHandOver, onKernel svcServiceHandOver),
   (svcHibernate, onKernel svcServiceHibernate),
   (svcPriorityPromote, onKernel (svcServicePriorityPromote B)),
   (svcPriorityDemote, onKernel (svcServicePriorityDemote B)),
   (svcHwregWrite, svcServiceHwregWrite),
   (svcHwregRead, svcServiceHwregRead),
   (svcCreateTask, onKernel (svcServiceTaskCreate B)),
   (svcKillTask, onKernel (svcServiceTaskKill B)),
   (svcInvokeBase, onKernel (svcServiceInvokeBase B)),
   (svcReleaseBase, onKernel (svcServiceReleaseBase B)),
   (svcGrantPermission, onKernel (svcServiceGrantPermission B)),
   (svcIntEnable, checked permissionIntctrl (relayed fun call m => L.interruptEnable m call.arg0)),
   (svcIntDisable, checked permissionIntctrl (relayed fun call m => L.interruptDisable m call.arg0)),
   (svcIntRegister, checked permissionIntctrl
      (relayed fun call m => L.interruptRegister m call.arg0 call.arg1)),
   (svcSetPriority, checked permissionIntctrl
      (relayed fun call m => L.interruptPriority m (uint8 call.arg0) (uint8 call.arg1))),
   (svcCpuFreq, relayed fun call m => L.timerConfig m call.arg0),
   (svcStartScheduler, onKernel (svcServiceStartScheduler B)),
   (svcDeviceReset, relayed fun _ m => some (errorNone, L.deviceReset m))]

lemma layerDispatch_arm (B : Build) (P : Port) : layerDispatch B (armLayer P) = machineDispatch B P :=
  rfl

/-- A service that has been called: the words it has seen and its answer, if it got to one. -/
structure Entry where
  call : Call
  answer : Option ℕ

inductive Ending
  | unknown (m : Machine)
  | done (m : Machine)
  | fault

/-- The loop of both handlers over the rows `table`: services run until one leaves `*svc_num` alone
or a code has no row. -/
def trace (table : List (ℕ × MachineService)) : ℕ → Call → Machine → Option (List Entry × Ending)
  | 0, _, _ => none
  | n + 1, call, m =>
    match table.lookup call.svcNum with
    | none => some ([], .unknown m)
    | some service =>
      match service call m with
      | none => some ([⟨call, none⟩], .fault)
      | some (r, call', m') =>
        if call'.svcNum = call.svcNum then some ([⟨call, some r⟩], .done m')
        else (trace table n call' m').map fun t => (⟨call, some r⟩ :: t.1, t.2)

/-- The rows `svc_handler` of the OSSIM port compares with: `TOTAL_SVC_COUNT` counts the terminator,
whose service is the null pointer. -/
def ossimRows (B : Build) (L : Layer) : List (ℕ × MachineService) :=
  layerDispatch B L ++ [(0, fun _ _ => none)]

variable {B : Build} {P : Port} {L : Layer} {m m' : Machine} {call call' : Call}
variable {table : List (ℕ × MachineService)} {service : MachineService} {kernelService : Service}
variable {n r bit : ℕ}

section Traces

lemma trace_unknown (h : table.lookup call.svcNum = none) (n : ℕ) (m : Machine) :
    trace table (n + 1) call m = some ([], .unknown m) := by
  rw [trace, h]

lemma trace_fault (h : table.lookup call.svcNum = some service) (hs : service call m = none) (n : ℕ) :
    trace table (n + 1) call m = some ([⟨call, none⟩], .fault) := by
  simp only [trace, h, hs]

lemma trace_done {r : ℕ} {call' : Call} {m' : Machine} (h : table.lookup call.svcNum = some service)
    (hs : service call m = some (r, call', m')) (hc : call'.svcNum = call.svcNum) (n : ℕ) :
    trace table (n + 1) call m = some ([⟨call, some r⟩], .done m') := by
  simp only [trace, h, hs, if_pos hc]

lemma trace_again {r : ℕ} {call' : Call} {m' : Machine} (h : table.lookup call.svcNum = some service)
    (hs : service call m = some (r, call', m')) (hc : call'.svcNum ≠ call.svcNum) (n : ℕ) :
    trace table (n + 1) call m =
      (trace table n call' m').map fun t => (⟨call, some r⟩ :: t.1, t.2) := by
  simp only [trace, h, hs, if_neg hc]

lemma trace_terminated (last : MachineService)
    (hrows : ∀ (service : MachineService) (call : Call) (m : Machine) (r : ℕ) (call' : Call)
      (m' : Machine), table.lookup call.svcNum = some service → service call m = some (r, call', m') →
      call'.svcNum ≠ 0) (hc : call.svcNum ≠ 0) :
    trace (table ++ [(0, last)]) n call m = trace table n call m := by
  induction n generalizing call m with
  | zero => rfl
  | succ n ih =>
    have hlookup : (table ++ [(0, last)]).lookup call.svcNum = table.lookup call.svcNum := by
      have hlast : [(0, last)].lookup call.svcNum = none := by
        rw [List.lookup_cons, beq_eq_false_iff_ne.mpr hc]
        rfl
      rw [List.lookup_append, hlast, Option.or_none]
    rcases h : table.lookup call.svcNum with _ | service
    · rw [trace_unknown h, trace_unknown (hlookup.trans h)]
    rcases hs : service call m with _ | ⟨r, call', m'⟩
    · rw [trace_fault h hs, trace_fault (hlookup.trans h) hs]
    by_cases hsame : call'.svcNum = call.svcNum
    · rw [trace_done h hs hsame, trace_done (hlookup.trans h) hs hsame]
    · rw [trace_again h hs hsame, trace_again (hlookup.trans h) hs hsame,
        ih (hrows service call m r call' m' h hs)]

end Traces

/-- What the ARM handler leaves in R0 and in the machine. -/
def armResult (frame : ℕ) : List Entry × Ending → Option (ℕ × Machine)
  | (_, .unknown m) => some (frame, m)
  | (es, .done m) => (es.getLast?.bind Entry.answer).map fun r => (r, m)
  | (_, .fault) => none

lemma trace_done_ne_nil {es : List Entry} {m' : Machine}
    (h : trace table n call m = some (es, .done m')) : es ≠ [] := by
  cases n with
  | zero => cases h
  | succ n =>
    rcases hrow : table.lookup call.svcNum with _ | service
    · simp [trace_unknown hrow] at h
    rcases hs : service call m with _ | ⟨r, call', m''⟩
    · simp [trace_fault hrow hs] at h
    by_cases hc : call'.svcNum = call.svcNum
    · rw [trace_done hrow hs hc] at h
      obtain ⟨rfl, -⟩ := Prod.mk.inj (Option.some.inj h)
      exact List.cons_ne_nil _ _
    · rw [trace_again hrow hs hc] at h
      obtain ⟨t, -, he⟩ := Option.map_eq_some_iff.mp h
      obtain ⟨rfl, -⟩ := Prod.mk.inj he
      exact List.cons_ne_nil _ _

lemma machineHandler_trace (table : List (ℕ × MachineService)) (frame n : ℕ) (call : Call)
    (m : Machine) :
    machineHandler table frame n call m = (trace table n call m).bind (armResult frame) := by
  induction n generalizing call m with
  | zero => rfl
  | succ n ih =>
    rw [machineHandler]
    rcases hrow : table.lookup call.svcNum with _ | service
    · rw [trace_unknown hrow]
      rfl
    dsimp only
    rcases hs : service call m with _ | ⟨r, call', m'⟩
    · rw [trace_fault hrow hs]
      rfl
    rw [Option.bind_some]
    by_cases hc : call'.svcNum = call.svcNum
    · rw [trace_done hrow hs hc]
      exact if_pos hc
    · rw [trace_again hrow hs hc]
      dsimp only
      rw [if_neg hc, ih]
      rcases ht : trace table n call' m' with _ | ⟨es, ending⟩
      · rfl
      cases ending with
      | unknown | fault => rfl
      | done u =>
        have hne := trace_done_ne_nil ht
        change armResult frame (es, .done u) = armResult frame (_ :: es, .done u)
        rw [armResult, armResult, List.getLast?_cons_of_ne_nil hne]

section Rows

def Chains (service : MachineService) : Prop := ∀ call m r call' m',
  service call m = some (r, call', m') → call'.svcNum = call.svcNum ∨ Chained call'.svcNum

lemma chains_kernel (h : (svcDispatch B).lookup n = some kernelService) :
    Chains (onKernel kernelService) := by
  intro call m r call' m' hs
  obtain ⟨x, hx, he⟩ := Option.map_eq_some_iff.mp hs
  obtain ⟨-, he⟩ := Prod.mk.inj he
  rw [← (Prod.mk.inj he).1]
  exact service_chains h hx

lemma chains_relayed (f : Call → Machine → Option (ℕ × Machine)) : Chains (relayed f) := by
  intro call m r call' m' hs
  obtain ⟨x, -, he⟩ := Option.map_eq_some_iff.mp hs
  obtain ⟨-, he⟩ := Prod.mk.inj he
  exact Or.inl (by rw [← (Prod.mk.inj he).1])

lemma chains_answered (f : Call → Machine → Machine) :
    Chains fun call m => some (errorNone, call, f call m) := by
  intro call m r call' m' hs
  obtain ⟨-, he⟩ := Prod.mk.inj (Option.some.inj hs)
  exact Or.inl (by rw [← (Prod.mk.inj he).1])

lemma Chains.checked (h : Chains service) : Chains (checked bit service) := by
  intro call m r call' m' hs
  unfold Dispatch.checked at hs
  split at hs
  · exact h call m r call' m' hs
  · obtain ⟨-, he⟩ := Prod.mk.inj (Option.some.inj hs)
    exact Or.inl (by rw [← (Prod.mk.inj he).1])

lemma row_chains (h : (layerDispatch B L).lookup n = some service) : Chains service := by
  have hmem := mem_of_lookup h
  simp only [layerDispatch, List.mem_cons, Prod.mk.injEq, List.not_mem_nil, or_false] at hmem
  rcases hmem with ⟨-, rfl⟩ | ⟨-, rfl⟩ | ⟨-, rfl⟩ | ⟨-, rfl⟩ | ⟨-, rfl⟩ | ⟨-, rfl⟩ | ⟨-, rfl⟩ |
    ⟨-, rfl⟩ | ⟨-, rfl⟩ | ⟨-, rfl⟩ | ⟨-, rfl⟩ | ⟨-, rfl⟩ | ⟨-, rfl⟩ | ⟨-, rfl⟩ | ⟨-, rfl⟩ |
    ⟨-, rfl⟩ | ⟨-, rfl⟩ | ⟨-, rfl⟩
  · exact chains_kernel (B := B) (n := svcHandOver) rfl
  · exact chains_kernel (B := B) (n := svcHibernate) rfl
  · exact chains_kernel (n := svcPriorityPromote) rfl
  · exact chains_kernel (n := svcPriorityDemote) rfl
  · exact (chains_answered _).checked
  · exact (chains_answered _).checked
  · exact chains_kernel (n := svcCreateTask) rfl
  · exact chains_kernel (n := svcKillTask) rfl
  · exact chains_kernel (n := svcInvokeBase) rfl
  · exact chains_kernel (n := svcReleaseBase) rfl
  · exact chains_kernel (n := svcGrantPermission) rfl
  · exact (chains_relayed _).checked
  · exact (chains_relayed _).checked
  · exact (chains_relayed _).checked
  · exact (chains_relayed _).checked
  · exact chains_relayed _
  · exact chains_kernel (n := svcStartScheduler) rfl
  · exact chains_relayed _

end Rows

lemma row_pos (h : (layerDispatch B L).lookup n = some service) : n ≠ 0 := by
  rintro rfl
  cases h

/-- The null service behind the terminator is called for the code 0, and else both handlers run the
same services on the same words. -/
theorem handler_chain_iff : trace (ossimRows B L) (n + 1) call m =
    trace (layerDispatch B L) (n + 1) call m ↔ call.svcNum ≠ 0 := by
  constructor
  · intro h h0
    have hnull : (ossimRows B L).lookup call.svcNum = some fun _ _ => none := by
      rw [h0]
      rfl
    have hrow : (layerDispatch B L).lookup call.svcNum = none := by
      rw [h0]
      rfl
    rw [trace_fault hnull rfl, trace_unknown hrow] at h
    cases h
  · refine trace_terminated _ fun service call m r call' m' hrow hs => ?_
    rcases row_chains hrow call m r call' m' hs with hsame | hchained
    · exact hsame ▸ row_pos hrow
    · rcases hchained with h | h | h <;> rw [h] <;> decide

/-- `svc_handler` of the OSSIM port with the words its thread is handed. Its `error` is a byte, which
nobody sets before the first service. -/
def ossimHandler (B : Build) (unset n : ℕ) (call : Call) (m : Machine) : Option (ℕ × Machine) :=
  (machineHandler (ossimRows B ossimLayer) unset n call m).map fun r => (uint8 r.1, r.2)

/-- For every code but 0 the thread exits with the low byte of what the ARM handler returns over the
same port functions. -/
theorem ossimHandler_eq (h : call.svcNum ≠ 0) (unset n : ℕ) (m : Machine) :
    ossimHandler B unset n call m =
      (machineHandler (layerDispatch B ossimLayer) unset n call m).map fun r => (uint8 r.1, r.2) := by
  cases n with
  | zero => rfl
  | succ n =>
    rw [ossimHandler, machineHandler_trace, machineHandler_trace, handler_chain_iff.mpr h]

end Skibios.Kernel.Ossim

import Skibios.Kernel.Services

/-! The whole of `svc_dispatch`: beside the services of the task tables, those that reach the
hardware of the ARM port. -/

namespace Skibios.Kernel.Dispatch

open Function Library.Words State TaskServices Services

def svcIntEnable : ℕ := 21
def svcIntDisable : ℕ := 22
def svcSetPriority : ℕ := 23
def svcIntRegister : ℕ := 24
def svcDeviceReset : ℕ := 40
def svcCpuFreq : ℕ := 43
def svcHwregWrite : ℕ := 45
def svcHwregRead : ℕ := 46

def errorSystickTickValueOverflow : ℕ := 1

def permissionHwreg : ℕ := 5
def permissionIntctrl : ℕ := 6

def stReload : ℕ := 0xE000E014
def nvicEn0 : ℕ := 0xE000E100
def nvicDis0 : ℕ := 0xE000E180
def nvicPri0 : ℕ := 0xE000E400
def systickReloadMask : ℕ := 0x00FFFFFF
def priorityWriteMask : ℕ := 0x000000E0

/-- The constants of `param.h` the hardware services use. -/
structure Port where
  taskPerSec : ℕ
  kernelStartAddress : ℕ

structure Machine where
  kernel : KernelState
  cpuFreq : ℕ
  regs : ℕ → ℕ
  -- the addresses HWREG_WRITE and the interrupt services have written
  written : List ℕ
  -- how often SYSRESETREQ has been written
  resets : ℕ

abbrev MachineService := Call → Machine → Option (ℕ × Call × Machine)

def onKernel (service : Service) : MachineService := fun call m =>
  (service call m.kernel).map fun r => (r.1, r.2.1, { m with kernel := r.2.2 })

def writeReg (m : Machine) (a v : ℕ) : Machine :=
  { m with regs := update m.regs a v, written := a :: m.written }

def HasPermission (s : KernelState) (bit : ℕ) : Prop :=
  s.permissions s.currentTask &&& 1 <<< bit = 1 <<< bit

instance (s : KernelState) (bit : ℕ) : Decidable (HasPermission s bit) :=
  inferInstanceAs (Decidable (_ = _))

/-- The first thing a service of the hardware does. -/
def checked (bit : ℕ) (service : MachineService) : MachineService := fun call m =>
  if HasPermission m.kernel bit then service call m
  else some (errorInsufficientPermission, call, m)

/-- One bit of a bank of four 32-bit registers. -/
def archInterruptBank (bank : ℕ) (m : Machine) (interrupt : ℕ) : Option (ℕ × Machine) :=
  if interrupt < 16 then some (errorInsufficientPermission, m)
  else if 4 ≤ (interrupt - 16) / 32 then none
  else some (errorNone, writeReg m (bank + 4 * ((interrupt - 16) / 32)) (1 <<< ((interrupt - 16) % 32)))

def archInterruptEnable : Machine → ℕ → Option (ℕ × Machine) := archInterruptBank nvicEn0
def archInterruptDisable : Machine → ℕ → Option (ℕ × Machine) := archInterruptBank nvicDis0

def archInterruptRegister (P : Port) (m : Machine) (interrupt handler : ℕ) : ℕ × Machine :=
  if interrupt < 16 then (errorInsufficientPermission, m)
  else (errorNone, writeReg m (uint32 (P.kernelStartAddress + interrupt * 4)) handler)

def archInterruptPriority (m : Machine) (interrupt priority : ℕ) : Option (ℕ × Machine) :=
  if interrupt < 16 then some (errorInsufficientPermission, m)
  else if 35 ≤ (interrupt - 16) / 4 then none
  else
    let a := nvicPri0 + 4 * ((interrupt - 16) / 4)
    some (errorNone, writeReg m a
      (m.regs a ||| (priorityWriteMask &&& priority) <<< (8 * ((interrupt - 16) % 4))))

def svcServiceIntEnable : MachineService := checked permissionIntctrl fun call m =>
  (archInterruptEnable m call.arg0).map fun r => (r.1, call, r.2)

def svcServiceIntDisable : MachineService := checked permissionIntctrl fun call m =>
  (archInterruptDisable m call.arg0).map fun r => (r.1, call, r.2)

def svcServiceIntSetPriority : MachineService := checked permissionIntctrl fun call m =>
  (archInterruptPriority m (uint8 call.arg0) (uint8 call.arg1)).map fun r => (r.1, call, r.2)

def svcServiceIntRegister (P : Port) : MachineService := checked permissionIntctrl fun call m =>
  let r := archInterruptRegister P m call.arg0 call.arg1
  some (r.1, call, r.2)

def svcServiceHwregWrite : MachineService := checked permissionHwreg fun call m =>
  some (errorNone, call, writeReg m call.arg0 call.arg1)

def svcServiceHwregRead : MachineService := checked permissionHwreg fun call m =>
  some (errorNone, call,
    { m with kernel := { m.kernel with mem := update m.kernel.mem call.arg1 (m.regs call.arg0) } })

def osTimerConfig (P : Port) (m : Machine) (newCpuFreq : ℕ) : ℕ × Machine :=
  let systickLoad := newCpuFreq / P.taskPerSec
  if 16777216 ≤ systickLoad then (errorSystickTickValueOverflow, m)
  else (errorNone,
    { m with cpuFreq := newCpuFreq, regs := update m.regs stReload (systickReloadMask &&& systickLoad) })

def svcServiceCpuFreqUpdate (P : Port) : MachineService := fun call m =>
  let r := osTimerConfig P m call.arg0
  some (r.1, call, r.2)

/-- The reset request; the loop behind it is never left. -/
def svcServiceDeviceReset : MachineService := fun call m =>
  some (errorNone, call, { m with resets := m.resets + 1 })

/-- `svc_dispatch` -/
def machineDispatch (B : Build) (P : Port) : List (ℕ × MachineService) :=
  [(svcHandOver, onKernel svcServiceHandOver),
   (svcHibernate, onKernel svcServiceHibernate),
   (svcPriorityPromote, onKernel (svcServicePriorityPromote B)),
   (svcPriorityDemote, onKernel (svcServicePriorityDemote B)),
   (svcHwregWrite, svcServiceHwregWrite),
   (svcHwregRead, svcServiceHwregRead),
   (svcCreateTask, onKernel (svcServiceTaskCreate B)),
   (svcKillTask, onKernel (svcServiceTaskKill B)),
   (svcInvokeBase, onKernel (svcServiceInvokeBase B)),
   (svcReleaseBase, onKernel (svcServiceReleaseBase B)),
   (svcGrantPermission, onKernel (svcServiceGrantPermission B)),
   (svcIntEnable, svcServiceIntEnable),
   (svcIntDisable, svcServiceIntDisable),
   (svcIntRegister, svcServiceIntRegister P),
   (svcSetPriority, svcServiceIntSetPriority),
   (svcCpuFreq, svcServiceCpuFreqUpdate P),
   (svcStartScheduler, onKernel (svcServiceStartScheduler B)),
   (svcDeviceReset, svcServiceDeviceReset)]

/-- `svc_handler` over the whole table, as `svcHandler` over the rows of the task tables. -/
def machineHandler (table : List (ℕ × MachineService)) (frame : ℕ) :
    ℕ → Call → Machine → Option (ℕ × Machine)
  | 0, _, _ => none
  | n + 1, call, m =>
    match table.lookup call.svcNum with
    | none => some (frame, m)
    | some service =>
      (service call m).bind fun (r, call', m') =>
        if call'.svcNum = call.svcNum then some (r, m') else machineHandler table frame n call' m'

def machineSvc (B : Build) (P : Port) (m : Machine) (code a0 a1 a2 a3 : ℕ) : Option (ℕ × Machine) :=
  machineHandler (machineDispatch B P) B.handlerFrame 4 ⟨code, a0, a1, a2, a3⟩ m

variable {B : Build} {P : Port} {s t : KernelState} {call call' : Call} {service : Service} {n r : ℕ}

lemma mem_of_lookup {α : Type*} {table : List (ℕ × α)} {row : α} (h : table.lookup n = some row) :
    (n, row) ∈ table := by
  obtain ⟨l, l', hl, -⟩ := List.lookup_eq_some_iff.mp h
  rw [hl]
  exact List.mem_append_right _ List.mem_cons_self

lemma machineDispatch_lookup (h : (svcDispatch B).lookup n = some service) :
    (machineDispatch B P).lookup n = some (onKernel service) := by
  have hmem := mem_of_lookup h
  simp only [svcDispatch, List.mem_cons, Prod.mk.injEq, List.not_mem_nil, or_false] at hmem
  rcases hmem with ⟨rfl, rfl⟩ | ⟨rfl, rfl⟩ | ⟨rfl, rfl⟩ | ⟨rfl, rfl⟩ | ⟨rfl, rfl⟩ | ⟨rfl, rfl⟩ |
    ⟨rfl, rfl⟩ | ⟨rfl, rfl⟩ | ⟨rfl, rfl⟩ | ⟨rfl, rfl⟩ <;> rfl

def Chained (n : ℕ) : Prop := n = svcHandOver ∨ n = svcPriorityPromote ∨ n = svcPriorityDemote

lemma Chained.row (h : Chained n) : ∃ next, (svcDispatch B).lookup n = some next := by
  rcases h with rfl | rfl | rfl <;> exact ⟨_, rfl⟩

lemma kill_chains (h : svcServiceTaskKill B call s = some (r, call', t)) :
    call'.svcNum = call.svcNum ∨ Chained call'.svcNum := by
  simp only [svcServiceTaskKill] at h
  split at h
  · cases h
  · obtain ⟨⟨ptr, stash⟩, -, he⟩ := Option.map_eq_some_iff.mp h
    obtain ⟨-, rfl, -⟩ := by simpa using he
    dsimp only
    split
    · exact Or.inr (Or.inl rfl)
    · exact Or.inl rfl

lemma create_chains (h : svcServiceTaskCreate B call s = some (r, call', t)) : call' = call := by
  simp only [svcServiceTaskCreate] at h
  split_ifs at h
  · obtain ⟨-, rfl, -⟩ := by simpa using h
    rfl
  · obtain ⟨-, rfl, -⟩ := by simpa using h
    rfl
  · obtain ⟨⟨ptr, stash⟩, -, he⟩ := Option.map_eq_some_iff.mp h
    obtain ⟨-, rfl, -⟩ := by simpa using he
    rfl
  · obtain ⟨-, rfl, -⟩ := by simpa using h
    rfl

lemma invoke_chains (h : svcServiceInvokeBase B call s = some (r, call', t)) :
    call'.svcNum = call.svcNum ∨ Chained call'.svcNum := by
  simp only [svcServiceInvokeBase] at h
  split_ifs at h
  · obtain ⟨-, rfl, -⟩ := by simpa using h
    exact Or.inl rfl
  · obtain ⟨-, rfl, -⟩ := by simpa using h
    exact Or.inr (Or.inr (Or.inl rfl))

lemma release_chains (h : svcServiceReleaseBase B call s = some (r, call', t)) :
    call'.svcNum = call.svcNum ∨ Chained call'.svcNum := by
  simp only [svcServiceReleaseBase] at h
  split_ifs at h
  · obtain ⟨-, rfl, -⟩ := by simpa using h
    exact Or.inl rfl
  · obtain ⟨-, rfl, -⟩ := by simpa using h
    exact Or.inl rfl
  · obtain ⟨-, rfl, -⟩ := by simpa using h
    exact Or.inr (Or.inr (Or.inr rfl))

lemma grant_chains (h : svcServiceGrantPermission B call s = some (r, call', t)) : call' = call := by
  simp only [svcServiceGrantPermission] at h
  split_ifs at h
  all_goals
    obtain ⟨-, rfl, -⟩ := by simpa using h
    rfl

lemma promote_chains (h : svcServicePriorityPromote B call s = some (r, call', t)) : call' = call := by
  simp only [svcServicePriorityPromote] at h
  split_ifs at h
  obtain ⟨-, rfl, -⟩ := by simpa using h
  rfl

lemma service_chains (h : (svcDispatch B).lookup n = some service)
    (hs : service call s = some (r, call', t)) :
    call'.svcNum = call.svcNum ∨ Chained call'.svcNum := by
  have hmem := mem_of_lookup h
  simp only [svcDispatch, List.mem_cons, Prod.mk.injEq, List.not_mem_nil, or_false] at hmem
  rcases hmem with ⟨-, rfl⟩ | ⟨-, rfl⟩ | ⟨-, rfl⟩ | ⟨-, rfl⟩ | ⟨-, rfl⟩ | ⟨-, rfl⟩ |
    ⟨-, rfl⟩ | ⟨-, rfl⟩ | ⟨-, rfl⟩ | ⟨-, rfl⟩
  · obtain ⟨-, rfl, -⟩ := by simpa [svcServiceHandOver] using hs
    exact Or.inl rfl
  · obtain ⟨-, rfl, -⟩ := by simpa [svcServiceHibernate] using hs
    exact Or.inl rfl
  · exact Or.inl (by rw [promote_chains hs])
  · obtain ⟨-, rfl, -⟩ := by simpa [svcServicePriorityDemote] using hs
    exact Or.inr (Or.inl rfl)
  · exact Or.inl (by rw [create_chains hs])
  · exact kill_chains hs
  · exact invoke_chains hs
  · exact release_chains hs
  · exact Or.inl (by rw [grant_chains hs])
  · obtain ⟨-, rfl, -⟩ := by simpa [svcServiceStartScheduler] using hs
    exact Or.inr (Or.inl rfl)

lemma machineHandler_kernel (frame k : ℕ) (m : Machine)
    (h : ∃ service, (svcDispatch B).lookup call.svcNum = some service) :
    machineHandler (machineDispatch B P) frame k call m =
      (svcHandler (svcDispatch B) frame k call m.kernel).map fun r => (r.1, { m with kernel := r.2 }) := by
  induction k generalizing call m with
  | zero => simp only [machineHandler, svcHandler, Option.map_none]
  | succ k ih =>
    obtain ⟨service, hrow⟩ := h
    rw [svcHandler_step service hrow]
    simp only [machineHandler, machineDispatch_lookup hrow, onKernel]
    rcases hs : service call m.kernel with _ | ⟨r, call', t⟩
    · rfl
    · simp only [Option.map_some, Option.bind_some]
      split
      · rfl
      · rename_i hne
        exact ih _ ((service_chains hrow hs).resolve_left hne).row

lemma machineSvc_row (m : Machine) {code : ℕ} (a0 a1 a2 a3 : ℕ) {service : MachineService}
    (h : (machineDispatch B P).lookup code = some service)
    (hc : ∀ x ∈ service ⟨code, a0, a1, a2, a3⟩ m, x.2.1.svcNum = code) :
    machineSvc B P m code a0 a1 a2 a3 =
      (service ⟨code, a0, a1, a2, a3⟩ m).map fun x => (x.1, x.2.2) := by
  simp only [machineSvc, machineHandler, h]
  rcases hs : service ⟨code, a0, a1, a2, a3⟩ m with _ | x
  · rfl
  · simp only [Option.bind_some, Option.map_some, if_pos (hc x hs)]

lemma machineSvc_kernel (m : Machine) {code : ℕ} (a0 a1 a2 a3 : ℕ)
    (h : ∃ service, (svcDispatch B).lookup code = some service) : machineSvc B P m code a0 a1 a2 a3 =
      (svc B m.kernel code a0 a1 a2 a3).map fun r => (r.1, { m with kernel := r.2 }) :=
  machineHandler_kernel _ _ _ h

end Skibios.Kernel.Dispatch

import Skibios.Protection.Pointers
import Skibios.Tasks.Insertion
import Skibios.Tasks.Killing

/-! What a task without permissions can do with a raw `svc` instruction, in whatever state the kernel
is. -/

namespace Skibios.Protection.Confinement

open Function Library.Words Library.Loops Library.Runs
open Kernel State TaskServices Services Dispatch Events Effects Tasks Invariants Pointers
open Insertion (InTable insertLevel_ne_none)
open Killing (Removable removeLevel_iff)

variable {B : Build} {P : Port} {L : Placement} {m : Machine} {es : List Event}
variable {code a0 a1 a2 a3 bit : ℕ}

def Accepted (B : Build) (s : KernelState) (p : ℕ) : Prop :=
  s.taskCount < B.maxTaskCount ∧
    ¬ (127 < (s.objs p).priority ∨ (s.objs p).priority = 0 ∧ s.firstStart = true)

def CreationFits (B : Build) (s : KernelState) (p : ℕ) : Prop :=
  Accepted B s p → idleSlot B s < B.maxTaskCount ∧
    (slotStack B s (idleSlot B s) ≠ 0 → InTable B s (s.objs p).priority)

def KillFits (B : Build) (s : KernelState) (i : ℕ) : Prop :=
  i < B.maxTaskCount ∧ s.taskObj i ≠ 0 ∧ Removable B s i

/-- The call stays inside the kernel's tables, is none of the three that have no check, and what it
stores through a pointer does no harm. -/
def Harmless (B : Build) (P : Port) (L : Placement) (m : Machine) (code a0 : ℕ) : Prop :=
  if code = svcCreateTask then CreationFits B m.kernel a0 ∧ (creationStore B m.kernel a0).Avoids L ∧
    (creationStore B m.kernel a0).Spares L B (assets m)
  else if code = svcKillTask then KillFits B m.kernel (slotNumber a0) ∧ (killStore m.kernel a0).Avoids L ∧
    (killStore m.kernel a0).Spares L B (assets m)
  else if code = svcPriorityPromote then m.kernel.mem a0 >>> 16 < B.maxTaskCount
  else if code = svcInvokeBase then m.kernel.mem B.baseMutex >>> 16 < B.maxTaskCount
  -- START_SCHEDULER resets the permissions
  else if code = svcStartScheduler then
    ∀ k < B.maxTaskCount, m.kernel.permissions k = if k = 0 then 0xFFFF else 0
  else if code = svcCpuFreq then
    16777216 ≤ a0 / P.taskPerSec ∨ m.regs stReload = systickReloadMask &&& a0 / P.taskPerSec
  else code ≠ svcDeviceReset

lemma no_permission (h : m.kernel.permissions m.kernel.currentTask = 0) :
    ¬ HasPermission m.kernel bit := by
  intro hp
  rw [HasPermission, h, Nat.zero_and, Nat.one_shiftLeft] at hp
  have hpos := Nat.two_pow_pos bit
  omega

lemma checked_refused (h : ¬ HasPermission m.kernel bit) {service : MachineService}
    (hrow : (machineDispatch B P).lookup code = some (checked bit service)) :
    machineSvc B P m code a0 a1 a2 a3 = some (errorInsufficientPermission, m) := by
  have hs : ∀ call, checked bit service call m = some (errorInsufficientPermission, call, m) :=
    fun call => if_neg h
  rw [machineSvc_row m a0 a1 a2 a3 hrow]
  · rw [hs]
    rfl
  · intro x hx
    rw [hs] at hx
    cases hx
    rfl

lemma Harmless.other (h : ∀ c ∈ [svcCreateTask, svcKillTask, svcPriorityPromote, svcInvokeBase,
    svcStartScheduler, svcCpuFreq, svcDeviceReset], code ≠ c) : Harmless B P L m code a0 := by
  simp only [List.mem_cons, List.not_mem_nil, or_false, forall_eq_or_imp, forall_eq] at h
  obtain ⟨h1, h2, h3, h4, h5, h6, h7⟩ := h
  rw [Harmless, if_neg h1, if_neg h2, if_neg h3, if_neg h4, if_neg h5, if_neg h6]
  exact h7

variable {s : KernelState} {r : ℕ × KernelState}

def Keeps (B : Build) (s : KernelState) (code a0 a1 a2 a3 : ℕ) : Prop :=
  ∃ r, svc B s code a0 a1 a2 a3 = some r ∧ r.2.permissions = s.permissions

lemma steady_kernel_iff (h : ∃ service, (svcDispatch B).lookup code = some service) :
    Steady B P m code a0 a1 a2 a3 ↔ Keeps B m.kernel code a0 a1 a2 a3 := by
  rw [Steady, machineSvc_kernel m a0 a1 a2 a3 h]
  constructor
  · rintro ⟨r, hr, hc⟩
    obtain ⟨x, hx, rfl⟩ := Option.map_eq_some_iff.mp hr
    exact ⟨x, hx, congrArg Assets.permissions hc⟩
  · rintro ⟨x, hx, hp⟩
    refine ⟨_, by rw [hx]; rfl, ?_⟩
    rw [assets, hp]
    rfl

lemma kill_keeps {x : ℕ × Call × KernelState}
    (h : svcServiceTaskKill B ⟨svcKillTask, a0, a1, a2, a3⟩ s = some x) :
    x.2.2.permissions = s.permissions := by
  simp only [svcServiceTaskKill] at h
  split at h
  · cases h
  · obtain ⟨d, -, rfl⟩ := Option.map_eq_some_iff.mp h
    rfl

lemma kill_defined_iff (a1 a2 a3 : ℕ) :
    (∃ x, svcServiceTaskKill B ⟨svcKillTask, a0, a1, a2, a3⟩ s = some x) ↔
      KillFits B s (slotNumber a0) := by
  change (∃ x, (if B.maxTaskCount ≤ slotNumber a0 ∨ s.taskObj (slotNumber a0) = 0 then none
    else (removeLevel B s (slotNumber a0)).map _) = some x) ↔ _
  rw [KillFits, ← removeLevel_iff]
  split
  · rename_i h
    refine iff_of_false (by rintro ⟨_, hx⟩; cases hx) ?_
    rintro ⟨hlt, hobj, -⟩
    rcases h with h | h
    · omega
    · exact hobj h
  · rename_i h
    rw [not_or, not_le] at h
    rw [← Option.isSome_iff_exists, Option.isSome_map, Option.isSome_iff_ne_none]
    exact ⟨fun hr => ⟨h.1, h.2, hr⟩, fun hr => hr.2.2⟩

lemma kill_result {r : ℕ × KernelState} (h : svc B s svcKillTask a0 a1 a2 a3 = some r) :
    r.2.permissions = s.permissions := by
  by_cases hf : a1 = 1
  · subst hf
    rw [svc_killTask_self] at h
    obtain ⟨x, hx, rfl⟩ := Option.map_eq_some_iff.mp h
    exact kill_keeps hx
  · rw [svc_killTask _ _ _ _ _ _ hf] at h
    obtain ⟨x, hx, rfl⟩ := Option.map_eq_some_iff.mp h
    exact kill_keeps hx

lemma kill_keeps_iff : Keeps B s svcKillTask a0 a1 a2 a3 ↔ KillFits B s (slotNumber a0) := by
  rw [← kill_defined_iff a1 a2 a3]
  constructor
  · rintro ⟨r, hr, -⟩
    by_cases hf : a1 = 1
    · subst hf
      rw [svc_killTask_self] at hr
      obtain ⟨x, hx, -⟩ := Option.map_eq_some_iff.mp hr
      exact ⟨x, hx⟩
    · rw [svc_killTask _ _ _ _ _ _ hf] at hr
      obtain ⟨x, hx, -⟩ := Option.map_eq_some_iff.mp hr
      exact ⟨x, hx⟩
  · rintro ⟨x, hx⟩
    have hdefined : ∃ r, svc B s svcKillTask a0 a1 a2 a3 = some r := by
      by_cases hf : a1 = 1
      · subst hf
        exact ⟨_, by rw [svc_killTask_self, hx]; rfl⟩
      · exact ⟨_, by rw [svc_killTask _ _ _ _ _ _ hf, hx]; rfl⟩
    obtain ⟨r, hr⟩ := hdefined
    exact ⟨r, hr, kill_result hr⟩

lemma create_result {r : ℕ × KernelState} (h : svc B s svcCreateTask a0 a1 a2 a3 = some r) :
    r.2.permissions = s.permissions := by
  rw [svc_createTask] at h
  obtain ⟨x, hx, rfl⟩ := Option.map_eq_some_iff.mp h
  simp only [svcServiceTaskCreate] at hx
  split_ifs at hx
  · obtain rfl := Option.some.inj hx
    rfl
  · obtain rfl := Option.some.inj hx
    rfl
  · obtain ⟨d, -, rfl⟩ := Option.map_eq_some_iff.mp hx
    rfl
  · obtain rfl := Option.some.inj hx
    rfl

lemma create_keeps_iff (hptr : s.lstashPtr < 256) :
    Keeps B s svcCreateTask a0 a1 a2 a3 ↔ CreationFits B s a0 := by
  have hdefined : Keeps B s svcCreateTask a0 a1 a2 a3 ↔
      ∃ x, svcServiceTaskCreate B ⟨svcCreateTask, a0, a1, a2, a3⟩ s = some x := by
    constructor
    · rintro ⟨r, hr, -⟩
      rw [svc_createTask] at hr
      obtain ⟨x, hx, -⟩ := Option.map_eq_some_iff.mp hr
      exact ⟨x, hx⟩
    · rintro ⟨x, hx⟩
      have hr : svc B s svcCreateTask a0 a1 a2 a3 = some (x.1, x.2.2) := by
        rw [svc_createTask, hx]
        rfl
      exact ⟨_, hr, create_result hr⟩
  rw [hdefined, CreationFits, Accepted, ← insertLevel_ne_none hptr]
  simp only [svcServiceTaskCreate]
  by_cases hcount : s.taskCount < B.maxTaskCount
  swap
  · rw [if_neg hcount]
    exact iff_of_true ⟨_, rfl⟩ fun h => absurd h.1 hcount
  rw [if_pos hcount]
  by_cases hprio : 127 < (s.objs a0).priority ∨ (s.objs a0).priority = 0 ∧ s.firstStart = true
  · rw [if_pos hprio]
    exact iff_of_true ⟨_, rfl⟩ fun h => absurd hprio h.2
  rw [if_neg hprio]
  by_cases hslot : B.maxTaskCount ≤ idleSlot B s
  · rw [if_pos hslot]
    refine iff_of_false (by rintro ⟨_, hx⟩; cases hx) fun h => ?_
    exact absurd (h ⟨hcount, hprio⟩).1 (not_lt.mpr hslot)
  rw [if_neg hslot]
  by_cases hstack : slotStack B s (idleSlot B s) = 0
  · rw [if_pos hstack]
    exact iff_of_true ⟨_, rfl⟩ fun _ => ⟨not_le.mp hslot, fun h => absurd hstack h⟩
  rw [if_neg hstack, ← Option.isSome_iff_exists, Option.isSome_map, Option.isSome_iff_ne_none]
  exact ⟨fun hr _ => ⟨not_le.mp hslot, fun _ => hr⟩, fun h => (h ⟨hcount, hprio⟩).2 hstack⟩

lemma start_keeps_iff : Keeps B s svcStartScheduler a0 a1 a2 a3 ↔
    ∀ k < B.maxTaskCount, s.permissions k = if k = 0 then 0xFFFF else 0 := by
  have hkeep : Keeps B s svcStartScheduler a0 a1 a2 a3 ↔
      (fun k => if k = 0 then 0xFFFF else if k < B.maxTaskCount then 0 else s.permissions k) =
        s.permissions := by
    rw [Keeps, svc_startScheduler]
    exact ⟨fun ⟨_, hr, hp⟩ => by cases hr; exact hp, fun hp => ⟨_, rfl, hp⟩⟩
  rw [hkeep, funext_iff]
  constructor
  · intro h k hk
    have heq := h k
    rw [if_pos hk] at heq
    exact heq.symm
  · intro h k
    split
    · rename_i hk
      rw [hk, h 0 B.maxTaskCount_pos, if_pos rfl]
    · rename_i hk
      split
      · rename_i hlt
        rw [h k hlt, if_neg hk]
      · rfl

lemma pointerStore_none (hc : code ≠ svcCreateTask) (hk : code ≠ svcKillTask) :
    pointerStore B s code a0 = none := by
  rw [pointerStore, if_neg hc, if_neg hk]

lemma plain_keeps_iff (h0 : m.kernel.currentTask ≠ 0) (hc : code ≠ svcCreateTask)
    (hk : code ≠ svcKillTask) (h : ∃ service, (svcDispatch B).lookup code = some service) :
    Keeps B m.kernel code a0 a1 a2 a3 ↔ Harmless B P L m code a0 := by
  obtain ⟨service, hrow⟩ := h
  have hmem := mem_of_lookup hrow
  simp only [svcDispatch, List.mem_cons, Prod.mk.injEq, List.not_mem_nil, or_false] at hmem
  rcases hmem with ⟨rfl, -⟩ | ⟨rfl, -⟩ | ⟨rfl, -⟩ | ⟨rfl, -⟩ | ⟨rfl, -⟩ | ⟨rfl, -⟩ | ⟨rfl, -⟩ |
    ⟨rfl, -⟩ | ⟨rfl, -⟩ | ⟨rfl, -⟩
  · exact iff_of_true ⟨_, svc_handOver .., rfl⟩ (.other (by decide))
  · exact iff_of_true ⟨_, svc_hibernate .., rfl⟩ (.other (by decide))
  · change _ ↔ m.kernel.mem a0 >>> 16 < B.maxTaskCount
    rw [Keeps, svc_promote]
    split
    · rename_i hle
      exact iff_of_false (by rintro ⟨_, hr, _⟩; cases hr) (not_lt.mpr hle)
    · rename_i hlt
      exact iff_of_true ⟨_, rfl, rfl⟩ (not_le.mp hlt)
  · refine iff_of_true ⟨_, svc_demote .., ?_⟩ (.other (by decide))
    dsimp only [handOverState, demoteCurrent]
  · exact absurd rfl hc
  · exact absurd rfl hk
  · change _ ↔ m.kernel.mem B.baseMutex >>> 16 < B.maxTaskCount
    rw [Keeps, svc_invokeBase, if_neg h0]
    split
    · rename_i hle
      exact iff_of_false (by rintro ⟨_, hr, _⟩; cases hr) (not_lt.mpr hle)
    · rename_i hlt
      exact iff_of_true ⟨_, rfl, rfl⟩ (not_le.mp hlt)
  · rw [Keeps, svc_releaseBase, if_pos h0]
    exact iff_of_true ⟨_, rfl, rfl⟩ (.other (by decide))
  · rw [Keeps, svc_grantPermission, if_pos h0]
    exact iff_of_true ⟨_, rfl, rfl⟩ (.other (by decide))
  · exact start_keeps_iff

lemma kernel_assets (h : ∃ service, (svcDispatch B).lookup code = some service)
    (hkeep : ∀ r, svc B m.kernel code a0 a1 a2 a3 = some r → r.2.permissions = m.kernel.permissions) :
    ∀ r, machineSvc B P m code a0 a1 a2 a3 = some r → assets r.2 = assets m := by
  intro r hr
  rw [machineSvc_kernel m a0 a1 a2 a3 h] at hr
  obtain ⟨x, hx, rfl⟩ := Option.map_eq_some_iff.mp hr
  rw [assets, hkeep x hx]
  rfl

lemma create_confined_iff (hptr : m.kernel.lstashPtr < 256) :
    rawSvc B P L m svcCreateTask a0 a1 a2 a3 = some (assets m) ↔ Harmless B P L m svcCreateTask a0 := by
  have hrow : ∃ service, (svcDispatch B).lookup svcCreateTask = some service := ⟨_, rfl⟩
  rw [rawSvc_store rfl (kernel_assets hrow fun _ => create_result), steady_kernel_iff hrow,
    create_keeps_iff hptr]
  rfl

lemma kill_confined_iff :
    rawSvc B P L m svcKillTask a0 a1 a2 a3 = some (assets m) ↔ Harmless B P L m svcKillTask a0 := by
  have hrow : ∃ service, (svcDispatch B).lookup svcKillTask = some service := ⟨_, rfl⟩
  rw [rawSvc_store rfl (kernel_assets hrow fun _ => kill_result), steady_kernel_iff hrow, kill_keeps_iff]
  rfl

lemma freq_steady_iff : Steady B P m svcCpuFreq a0 a1 a2 a3 ↔
    16777216 ≤ a0 / P.taskPerSec ∨ m.regs stReload = systickReloadMask &&& a0 / P.taskPerSec := by
  have hcall : machineSvc B P m svcCpuFreq a0 a1 a2 a3 = some (osTimerConfig P m a0) := rfl
  rw [Steady, hcall, osTimerConfig]
  split
  · rename_i hle
    exact iff_of_true ⟨_, rfl, rfl⟩ (Or.inl hle)
  · rename_i hlt
    rw [or_iff_right hlt]
    constructor
    · rintro ⟨r, hr, hc⟩
      cases hr
      have hload := congrArg Assets.reload hc
      dsimp only [assets] at hload
      rwa [update_self, eq_comm] at hload
    · intro hload
      refine ⟨_, rfl, ?_⟩
      dsimp only [assets]
      rw [update_self, hload]

lemma hardware_steady_iff (hp : m.kernel.permissions m.kernel.currentTask = 0)
    (h : (svcDispatch B).lookup code = none) :
    Steady B P m code a0 a1 a2 a3 ↔ Harmless B P L m code a0 := by
  cases hrow : (machineDispatch B P).lookup code with
  | none =>
    have hskip : machineSvc B P m code a0 a1 a2 a3 = some (B.handlerFrame, m) := by
      simp only [machineSvc, machineHandler, hrow]
    refine iff_of_true ⟨_, hskip, rfl⟩ (.other ?_)
    rintro c hc rfl
    have hsome : ∃ service, (machineDispatch B P).lookup code = some service := by
      simp only [List.mem_cons, List.not_mem_nil, or_false] at hc
      rcases hc with rfl | rfl | rfl | rfl | rfl | rfl | rfl <;> exact ⟨_, rfl⟩
    rw [hrow] at hsome
    obtain ⟨_, hsome⟩ := hsome
    cases hsome
  | some service =>
    have hchecked : ∀ bit (service : MachineService), Harmless B P L m code a0 →
        (machineDispatch B P).lookup code = some (checked bit service) →
        (Steady B P m code a0 a1 a2 a3 ↔ Harmless B P L m code a0) := by
      intro bit service hh hrow
      exact iff_of_true ⟨_, checked_refused (no_permission hp) hrow, rfl⟩ hh
    have hmem := mem_of_lookup hrow
    simp only [machineDispatch, List.mem_cons, Prod.mk.injEq, List.not_mem_nil, or_false] at hmem
    rcases hmem with ⟨rfl, -⟩ | ⟨rfl, -⟩ | ⟨rfl, -⟩ | ⟨rfl, -⟩ | ⟨rfl, -⟩ | ⟨rfl, -⟩ | ⟨rfl, -⟩ |
      ⟨rfl, -⟩ | ⟨rfl, -⟩ | ⟨rfl, -⟩ | ⟨rfl, -⟩ | ⟨rfl, -⟩ | ⟨rfl, -⟩ | ⟨rfl, -⟩ | ⟨rfl, -⟩ |
      ⟨rfl, -⟩ | ⟨rfl, -⟩ | ⟨rfl, -⟩
    · cases h
    · cases h
    · cases h
    · cases h
    · exact hchecked _ _ (.other (by decide)) rfl
    · exact hchecked _ _ (.other (by decide)) rfl
    · cases h
    · cases h
    · cases h
    · cases h
    · cases h
    · exact hchecked _ _ (.other (by decide)) rfl
    · exact hchecked _ _ (.other (by decide)) rfl
    · exact hchecked _ _ (.other (by decide)) rfl
    · exact hchecked _ _ (.other (by decide)) rfl
    · exact freq_steady_iff
    · cases h
    · refine iff_of_false ?_ fun hh => hh rfl
      rintro ⟨r, hr, hc⟩
      cases hr
      exact absurd (congrArg Assets.resets hc) (Nat.succ_ne_self _)

section Instances

def twoSlots : Build := Build.two

def port : Port := ⟨100, 0x20000000⟩

def boot : KernelState :=
  bootState twoSlots (fun _ => 0) (fun _ => ⟨0, 0, 1, 0, 0, 0, 0, 0⟩) (fun _ => 0)

def begin : List Event := [.createTask 10 0, .startScheduler, .scheduler, .contextSwitch]

def begun : KernelState := after twoSlots 20 (Regular twoSlots) boot begin

def machine : Machine := ⟨begun, 0, fun _ => 0, [], 0⟩

lemma begun_run : Run (Guarded twoSlots (Regular twoSlots)) boot begin begun :=
  run_after (by decide +kernel)

/-- A main stack of 1 KB, the variables and `permissions[]` at the end of the SRAM of the kernel. -/
def placement : Placement :=
  ⟨0x20003F00, fun a => 0x20000000 ≤ a && a < 0x20000400, fun a => 0x20000400 ≤ a && a < 0x20003F00⟩

end Instances

end Skibios.Protection.Confinement

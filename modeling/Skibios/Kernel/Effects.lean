import Skibios.Kernel.Events
import Skibios.Kernel.SchedulerLoops

/-! Everything a step can do to the kernel variables, one constructor for each outcome. -/

namespace Skibios.Kernel.Effects

open Function Library.Words Library.Loops State TaskServices Services Scheduler SchedulerLoops Events

structure Creates (B : Build) (s : KernelState) (p ptr : ℕ) (stash : ℕ → ℕ) : Prop where
  count : s.taskCount < B.maxTaskCount
  priority : (s.objs p).priority ≤ 127
  base : (s.objs p).priority = 0 → s.firstStart = false
  slot : idleSlot B s < B.maxTaskCount
  insert : insertLevel B s (s.objs p).priority = some (ptr, stash)

structure Kills (B : Build) (s : KernelState) (i ptr : ℕ) (stash : ℕ → ℕ) : Prop where
  slot : i < B.maxTaskCount
  object : s.taskObj i ≠ 0
  remove : removeLevel B s i = some (ptr, stash)

def fillSlot (B : Build) (s : KernelState) (p arg ptr : ℕ) (stash : ℕ → ℕ) : KernelState :=
  placeTask B s p arg (idleSlot B s) (slotStack B s (idleSlot B s)) ptr stash

def slotNumber (pid : ℕ) : ℕ := uint8 (pid >>> 16)

inductive Effect (B : Build) (s : KernelState) : Event → KernelState → Prop
  | refused {p arg e : ℕ} {psp : ℕ → ℕ} (thread : InThread s) :
      Effect B s (.createTask p arg) { setError s p e with pspArray := psp }
  | created {p arg ptr : ℕ} {stash : ℕ → ℕ} (thread : InThread s) (h : Creates B s p ptr stash) :
      Effect B s (.createTask p arg) (fillSlot B s p arg ptr stash)
  | started (thread : InThread s) (h : s.firstStart = false) :
      Effect B s .startScheduler (handOverState (startState B { s with currentTask := 0 }))
  | alreadyStarted (thread : InThread s) (h : s.firstStart = true) : Effect B s .startScheduler s
  | killed {pid ptr : ℕ} {stash : ℕ → ℕ} (thread : InThread s)
      (h : Kills B s (slotNumber pid) ptr stash) :
      Effect B s (.killTask pid) (dropTask B s (slotNumber pid) s.selfKill ptr stash)
  | ended {ptr : ℕ} {stash : ℕ → ℕ} (thread : InThread s)
      (h : Kills B s (slotNumber (s.taskId s.currentTask)) ptr stash) :
      Effect B s .endTask
        (handOverState (dropTask B s (slotNumber (s.taskId s.currentTask)) true ptr stash))
  | hibernated {n a b v : ℕ} (thread : InThread s) :
      Effect B s (.hibernate n a b v) (hibernateState s n a b v)
  | handedOver (thread : InThread s) : Effect B s .handOver (handOverState s)
  | invokeRefused {args : ℕ} (thread : InThread s) (h : s.currentTask = 0) :
      Effect B s (.invokeBase args) s
  | invoked {args : ℕ} (thread : InThread s) (h : s.currentTask ≠ 0)
      (slot : s.mem B.baseMutex >>> 16 < B.maxTaskCount) :
      Effect B s (.invokeBase args)
        (promoteSlot (invokeState s args) B.baseMutex (s.mem B.baseMutex >>> 16))
  | releaseRefused {e : ℕ} (thread : InThread s)
      (h : s.currentTask ≠ 0 ∨ slotOf B s s.invocatedTask = B.maxTaskCount) :
      Effect B s (.releaseBase e) s
  | released {e : ℕ} (thread : InThread s) (h : s.currentTask = 0)
      (found : slotOf B s s.invocatedTask < B.maxTaskCount) :
      Effect B s (.releaseBase e)
        (handOverState (demoteCurrent B (answerState s (slotOf B s s.invocatedTask) e)))
  | grantRefused {pid permission : ℕ} (thread : InThread s)
      (h : s.currentTask ≠ 0 ∨ slotOf B s pid = B.maxTaskCount) :
      Effect B s (.grantPermission pid permission) s
  | granted {pid permission : ℕ} (thread : InThread s) (h : s.currentTask = 0)
      (found : slotOf B s pid < B.maxTaskCount) :
      Effect B s (.grantPermission pid permission) (grantState s (slotOf B s pid) permission)
  | promoted {m : ℕ} (thread : InThread s) (slot : s.mem m >>> 16 < B.maxTaskCount) :
      Effect B s (.promote m) (promoteSlot s m (s.mem m >>> 16))
  | lockRefused {m : ℕ} (thread : InThread s) (h : s.mem m % 256 ≠ 0) : Effect B s (.mutexLock m) s
  | locked {m : ℕ} (thread : InThread s) (h : s.mem m % 256 = 0) :
      Effect B s (.mutexLock m) { s with mem := update s.mem m (s.taskId s.currentTask) }
  | cleared {m : ℕ} (thread : InThread s) : Effect B s (.clearMutex m) (clearMutex s m)
  | kept {m : ℕ} (thread : InThread s) (h : s.mutexStash s.currentTask ≠ m) :
      Effect B s (.unlockTest m) s
  | demoted {m : ℕ} (thread : InThread s) (h : s.mutexStash s.currentTask = m) :
      Effect B s (.unlockTest m) (handOverState (demoteCurrent B s))
  | stored {a v : ℕ} : Effect B s (.store a v) { s with mem := update s.mem a v }
  | filled {p : ℕ} {o : TaskObject} : Effect B s (.fillTask p o) { s with objs := update s.objs p o }
  | ticked {w : KernelState} {c : Selection} (thread : InThread s) (timer : s.timer = true)
      (h : Scheduled B s w c) : Effect B s .tick (leaveScheduler w c)
  | scheduled {w : KernelState} {c : Selection} (pending : s.schedulerPending = true)
      (idle : s.switchPending = false) (h : Scheduled B s w c) :
      Effect B s .scheduler (leaveScheduler w c)
  | switched (pending : s.switchPending = true) : Effect B s .contextSwitch (contextSwitch s)

variable {B : Build} {s t : KernelState} {e : Event}

lemma inThread_some {r : Option KernelState} (h : inThread s r = some t) : InThread s ∧ r = some t := by
  unfold inThread at h
  split at h
  · exact ⟨‹_›, h⟩
  · cases h

lemma create_effect {p arg : ℕ} (hth : InThread s)
    (h : (svc B s svcCreateTask p arg 0 0).map Prod.snd = some t) :
    Effect B s (.createTask p arg) t := by
  obtain ⟨⟨r, t⟩, hr, rfl⟩ := Option.map_eq_some_iff.mp h
  rw [svc_createTask] at hr
  obtain ⟨⟨r', c, t'⟩, hs, he⟩ := Option.map_eq_some_iff.mp hr
  obtain ⟨rfl, rfl⟩ := Prod.mk.inj he
  simp only [svcServiceTaskCreate] at hs
  split_ifs at hs with h1 h2 h3 h4
  · obtain ⟨-, -, rfl⟩ := by simpa using hs
    exact .refused hth
  · obtain ⟨-, -, rfl⟩ := by simpa using hs
    exact .refused hth
  · obtain ⟨⟨ptr, stash⟩, hi, he⟩ := Option.map_eq_some_iff.mp hs
    obtain ⟨-, -, rfl⟩ := by simpa using he
    rw [not_or, not_lt, not_and] at h2
    refine .created hth ⟨h1, h2.1, fun h0 => ?_, not_le.mp h3, hi⟩
    simpa using h2.2 h0
  · obtain ⟨-, -, rfl⟩ := by simpa using hs
    exact .refused hth

lemma kill_service {pid flag n : ℕ} {r : ℕ × Call × KernelState}
    (h : svcServiceTaskKill B ⟨n, pid, flag, 0, 0⟩ s = some r) :
    ∃ ptr stash, Kills B s (slotNumber pid) ptr stash ∧
      r.2.2 = dropTask B s (slotNumber pid) (s.selfKill || flag = 1) ptr stash := by
  simp only [svcServiceTaskKill] at h
  by_cases h1 : B.maxTaskCount ≤ slotNumber pid ∨ s.taskObj (slotNumber pid) = 0
  · rw [slotNumber] at h1
    simp [h1] at h
  · rw [slotNumber] at h1
    rw [if_neg h1] at h
    obtain ⟨⟨ptr, stash⟩, hi, rfl⟩ := Option.map_eq_some_iff.mp h
    rw [not_or, not_le] at h1
    exact ⟨ptr, stash, ⟨h1.1, h1.2, hi⟩, rfl⟩

lemma kill_effect {pid : ℕ} (hth : InThread s)
    (h : (svc B s svcKillTask pid 0 0 0).map Prod.snd = some t) : Effect B s (.killTask pid) t := by
  rw [svc_killTask _ _ _ _ _ _ (by decide), Option.map_map] at h
  obtain ⟨r, hr, rfl⟩ := Option.map_eq_some_iff.mp h
  obtain ⟨ptr, stash, hk, he⟩ := kill_service hr
  have hflag : (s.selfKill || decide (0 = 1)) = s.selfKill := by simp
  rw [hflag] at he
  simp only [comp_apply, he]
  exact .killed hth hk

lemma end_effect (hth : InThread s)
    (h : (svc B s svcKillTask (s.taskId s.currentTask) 1 0 0).map Prod.snd = some t) :
    Effect B s .endTask t := by
  rw [svc_killTask_self, Option.map_map] at h
  obtain ⟨r, hr, rfl⟩ := Option.map_eq_some_iff.mp h
  obtain ⟨ptr, stash, hk, he⟩ := kill_service hr
  have hflag : (s.selfKill || decide (1 = 1)) = true := by simp
  rw [hflag] at he
  simp only [comp_apply, he]
  exact .ended hth hk

lemma step_create {fuel p arg ptr : ℕ} {stash : ℕ → ℕ} (hth : InThread s)
    (h : Creates B s p ptr stash) (hpsp : slotStack B s (idleSlot B s) ≠ 0) :
    step B fuel s (.createTask p arg) = some (fillSlot B s p arg ptr stash) := by
  have hprio : ¬ (127 < (s.objs p).priority ∨ (s.objs p).priority = 0 ∧ s.firstStart = true) := by
    rintro (hgt | ⟨h0, hf⟩)
    · exact absurd h.priority (by omega)
    · rw [h.base h0] at hf
      cases hf
  have hslot := not_le.mpr h.slot
  simp only [step, inThread, if_pos hth, svc_createTask, svcServiceTaskCreate, if_pos h.count,
    if_neg hprio, if_neg hslot, if_neg hpsp, h.insert]
  rfl

lemma step_kill {fuel pid ptr : ℕ} {stash : ℕ → ℕ} (hth : InThread s)
    (h : Kills B s (slotNumber pid) ptr stash) : step B fuel s (.killTask pid) =
      some (dropTask B s (slotNumber pid) s.selfKill ptr stash) := by
  have hok : ¬ (B.maxTaskCount ≤ uint8 (pid >>> 16) ∨ s.taskObj (uint8 (pid >>> 16)) = 0) := by
    rw [not_or, not_le]
    exact ⟨h.slot, h.object⟩
  have hremove : removeLevel B s (uint8 (pid >>> 16)) = some (ptr, stash) := h.remove
  have hflag : (s.selfKill || decide (0 = 1)) = s.selfKill := by simp
  simp only [step, inThread, if_pos hth, svc_killTask _ _ _ _ _ _ zero_ne_one, svcServiceTaskKill,
    if_neg hok, hremove, hflag]
  rfl

lemma step_promote {fuel m : ℕ} (hth : InThread s) (hm : s.mem m >>> 16 < B.maxTaskCount) :
    step B fuel s (.promote m) = some (promoteSlot s m (s.mem m >>> 16)) := by
  simp only [step, inThread, if_pos hth, svc_promote, if_neg (not_le.mpr hm)]
  rfl

lemma step_demote {fuel m : ℕ} (hth : InThread s) (hm : s.mutexStash s.currentTask = m) :
    step B fuel s (.unlockTest m) = some (handOverState (demoteCurrent B s)) := by
  simp only [step, inThread, if_pos hth, unlockTest, if_pos hm]
  rfl

lemma scheduled_effect {fuel : ℕ} (h : scheduler B fuel s = some t) :
    ∃ w c, Scheduled B s w c ∧ t = leaveScheduler w c := scheduler_iff.mp ⟨fuel, h⟩

/-- What is left of a step for the ids when it creates no task: at most one task loses its own. -/
structure NoneCreated (s : KernelState) (e : Event) (t : KernelState) : Prop where
  total : t.totalTaskCount = s.totalTaskCount
  refused : ∀ p arg, e = .createTask p arg → t.taskCount = s.taskCount
  ids : t.taskId = s.taskId ∨ ∃ i, t.taskId = update s.taskId i 0

lemma Effect.taskId (h : Effect B s e t) :
    (∃ p arg ptr stash, e = .createTask p arg ∧ Creates B s p ptr stash ∧
      t = fillSlot B s p arg ptr stash) ∨ NoneCreated s e t := by
  cases h with
  | created _ h => exact Or.inl ⟨_, _, _, _, rfl, h, rfl⟩
  | @killed pid =>
    refine Or.inr ⟨?_, nofun, Or.inr ⟨slotNumber pid, ?_⟩⟩ <;> dsimp only [dropTask]
  | ended =>
    refine Or.inr ⟨?_, nofun, Or.inr ⟨slotNumber (s.taskId s.currentTask), ?_⟩⟩ <;>
      dsimp only [handOverState, dropTask]
  | ticked _ _ h | scheduled _ _ h =>
    obtain ⟨⟨st, a, c, hframe⟩, -⟩ := h.wakes
    exact Or.inr ⟨by rw [hframe]; rfl, nofun, Or.inl (by rw [hframe]; rfl)⟩
  | started | handedOver =>
    refine Or.inr ⟨?_, nofun, Or.inl ?_⟩ <;> dsimp only [handOverState, startState]
  | demoted | released =>
    refine Or.inr ⟨?_, nofun, Or.inl ?_⟩ <;> dsimp only [handOverState, demoteCurrent, answerState]
  | promoted | invoked =>
    refine Or.inr ⟨?_, nofun, Or.inl ?_⟩ <;> dsimp only [promoteSlot, invokeState]
  | hibernated => refine Or.inr ⟨?_, nofun, Or.inl ?_⟩ <;> dsimp only [hibernateState]
  | _ => exact Or.inr ⟨rfl, fun _ _ _ => rfl, Or.inl rfl⟩

lemma Effect.mem_eq {m : ℕ} (h : Effect B s e t) (hl : e ≠ .mutexLock m) (hc : e ≠ .clearMutex m)
    (hst : ∀ v, e ≠ .store m v) : t.mem m = s.mem m := by
  cases h with
  | @locked a =>
    apply update_of_ne
    rintro rfl
    exact hl rfl
  | @cleared a =>
    apply update_of_ne
    rintro rfl
    exact hc rfl
  | @stored a v =>
    apply update_of_ne
    rintro rfl
    exact hst v rfl
  | ticked _ _ h | scheduled _ _ h =>
    obtain ⟨⟨st, a, c, hframe⟩, -⟩ := h.wakes
    rw [hframe]
    rfl
  | killed | ended => dsimp only [handOverState, dropTask]
  | demoted | released => dsimp only [handOverState, demoteCurrent, answerState]
  | _ => rfl

section Services

lemma start_effect (hth : InThread s) (h : (startScheduler B s).map Prod.snd = some t) :
    Effect B s .startScheduler t := by
  unfold startScheduler at h
  split at h
  · rename_i hfirst
    obtain rfl := by simpa using h
    exact .alreadyStarted hth hfirst
  · rename_i hfirst
    obtain rfl := by simpa [svc_startScheduler] using h
    exact .started hth (by simpa using hfirst)

lemma invoke_effect {args : ℕ} (hth : InThread s)
    (h : (svc B s svcInvokeBase args 0 0 0).map Prod.snd = some t) : Effect B s (.invokeBase args) t := by
  rw [svc_invokeBase] at h
  by_cases hbase : s.currentTask = 0
  · obtain rfl := by simpa [hbase] using h
    exact .invokeRefused hth hbase
  · by_cases hslot : B.maxTaskCount ≤ s.mem B.baseMutex >>> 16
    · simp [hbase, hslot] at h
    · obtain rfl := by simpa [hbase, hslot] using h
      exact .invoked hth hbase (not_le.mp hslot)

lemma release_effect {n : ℕ} (hth : InThread s)
    (h : (svc B s svcReleaseBase n 0 0 0).map Prod.snd = some t) : Effect B s (.releaseBase n) t := by
  rw [svc_releaseBase] at h
  by_cases hbase : s.currentTask = 0
  · by_cases hslot : slotOf B s s.invocatedTask = B.maxTaskCount
    · obtain rfl := by simpa [hbase, hslot] using h
      exact .releaseRefused hth (Or.inr hslot)
    · obtain rfl := by simpa [hbase, hslot] using h
      exact .released hth hbase (lt_of_le_of_ne (firstIndex_le _ _) hslot)
  · obtain rfl := by simpa [hbase] using h
    exact .releaseRefused hth (Or.inl hbase)

lemma grant_effect {pid w : ℕ} (hth : InThread s)
    (h : (svc B s svcGrantPermission pid w 0 0).map Prod.snd = some t) :
    Effect B s (.grantPermission pid w) t := by
  rw [svc_grantPermission] at h
  by_cases hbase : s.currentTask = 0
  · by_cases hslot : slotOf B s pid = B.maxTaskCount
    · obtain rfl := by simpa [hbase, hslot] using h
      exact .grantRefused hth (Or.inr hslot)
    · obtain rfl := by simpa [hbase, hslot] using h
      exact .granted hth hbase (lt_of_le_of_ne (firstIndex_le _ _) hslot)
  · obtain rfl := by simpa [hbase] using h
    exact .grantRefused hth (Or.inl hbase)

lemma promote_effect {m : ℕ} (hth : InThread s)
    (h : (svc B s svcPriorityPromote m 0 0 0).map Prod.snd = some t) : Effect B s (.promote m) t := by
  rw [svc_promote] at h
  by_cases hslot : B.maxTaskCount ≤ s.mem m >>> 16
  · simp [hslot] at h
  · obtain rfl := by simpa [hslot] using h
    exact .promoted hth (not_le.mp hslot)

lemma lock_effect (hth : InThread s) (m : ℕ) : Effect B s (.mutexLock m) (mutexLock s m).2 := by
  unfold mutexLock
  by_cases hfree : s.mem m % 256 = 0
  · rw [if_neg (not_not.mpr hfree)]
    exact .locked hth hfree
  · rw [if_pos hfree]
    exact .lockRefused hth hfree

lemma unlockTest_effect {m : ℕ} (hth : InThread s) (h : unlockTest B s m = some t) :
    Effect B s (.unlockTest m) t := by
  unfold unlockTest at h
  by_cases hstash : s.mutexStash s.currentTask = m
  · obtain rfl := by simpa [hstash, svc_demote] using h
    exact .demoted hth hstash
  · obtain rfl := by simpa [hstash] using h
    exact .kept hth hstash

end Services

lemma step_effect (h : Step B s e t) : Effect B s e t := by
  obtain ⟨fuel, h⟩ := h
  cases e with
  | createTask p arg =>
    obtain ⟨hth, h⟩ := inThread_some h
    exact create_effect hth h
  | startScheduler =>
    obtain ⟨hth, h⟩ := inThread_some h
    exact start_effect hth h
  | killTask pid =>
    obtain ⟨hth, h⟩ := inThread_some h
    exact kill_effect hth h
  | endTask =>
    obtain ⟨hth, h⟩ := inThread_some h
    exact end_effect hth h
  | hibernate n a b v =>
    obtain ⟨hth, h⟩ := inThread_some h
    obtain rfl := by simpa [svc_hibernate] using h
    exact .hibernated hth
  | handOver =>
    obtain ⟨hth, h⟩ := inThread_some h
    obtain rfl := by simpa [svc_handOver] using h
    exact .handedOver hth
  | invokeBase args =>
    obtain ⟨hth, h⟩ := inThread_some h
    exact invoke_effect hth h
  | releaseBase e =>
    obtain ⟨hth, h⟩ := inThread_some h
    exact release_effect hth h
  | grantPermission pid w =>
    obtain ⟨hth, h⟩ := inThread_some h
    exact grant_effect hth h
  | promote m =>
    obtain ⟨hth, h⟩ := inThread_some h
    exact promote_effect hth h
  | mutexLock m =>
    obtain ⟨hth, h⟩ := inThread_some h
    obtain rfl := Option.some.inj h
    exact lock_effect hth m
  | clearMutex m =>
    obtain ⟨hth, h⟩ := inThread_some h
    obtain rfl := Option.some.inj h
    exact .cleared hth
  | unlockTest m =>
    obtain ⟨hth, h⟩ := inThread_some h
    exact unlockTest_effect hth h
  | store a v =>
    obtain rfl := Option.some.inj h
    exact .stored
  | fillTask p o =>
    obtain rfl := Option.some.inj h
    exact .filled
  | tick =>
    obtain ⟨hth, h⟩ := inThread_some h
    split_ifs at h with htimer
    obtain ⟨w, c, hs, rfl⟩ := scheduled_effect h
    exact .ticked hth htimer hs
  | scheduler =>
    simp only [step] at h
    split_ifs at h with hpending
    obtain ⟨w, c, hs, rfl⟩ := scheduled_effect h
    exact .scheduled hpending.1 hpending.2 hs
  | contextSwitch =>
    simp only [step] at h
    split_ifs at h with hpending
    obtain rfl := Option.some.inj h
    exact .switched hpending

end Skibios.Kernel.Effects

import Skibios.Tasks.Insertion
import Skibios.Tasks.Killing

/-! The task table in every state of a running system, and which calls leave `level_stash`. -/

namespace Skibios.Tasks.TaskTable

open Function Library.Words Library.Loops Library.Rings Library.Counting Library.Runs
open Kernel State TaskServices Services Scheduler SchedulerLoops Events Effects Invariants Identity
open LevelStash
open Insertion (InTable insertLevel_ne_none)
open Killing (Removable removeLevel_iff)

variable {B : Build} {s t : KernelState} {e : Event} {es : List Event} {mutexes : List ℕ}

/-- What the tasks promise: objects set up by `task_init`, fewer than 65535
creations, kills by id of a live task other than the base task and the caller, mutex words that
only the lock routines touch. -/
def Allowed (B : Build) (mutexes : List ℕ) (s : KernelState) : Event → Prop
  | .createTask p _ => p ≠ 0 ∧ (s.objs p).hibernate = 0 ∧ s.totalTaskCount < 65535
  | .startScheduler => s.currentTask = 0
  | .killTask pid => ∃ k < B.maxTaskCount, Live B s k ∧ k ≠ 0 ∧ k ≠ s.currentTask ∧ s.taskId k = pid
  | .endTask => s.currentTask ≠ 0
  | .promote m | .mutexLock m | .clearMutex m | .unlockTest m => m ∈ mutexes
  | .store a _ => a ∉ mutexes
  | .invokeBase _ | .releaseBase _ | .grantPermission .. => False
  | .hibernate .. | .handOver | .fillTask .. | .tick | .scheduler | .contextSwitch => True

instance (s : KernelState) (e : Event) : Decidable (Allowed B mutexes s e) :=
  match e with
  | .createTask _ _ => inferInstanceAs (Decidable (_ ∧ _ ∧ _))
  | .startScheduler => inferInstanceAs (Decidable (_ = _))
  | .killTask _ => inferInstanceAs (Decidable (∃ k < _, _))
  | .endTask => inferInstanceAs (Decidable (_ ≠ _))
  | .promote _ | .mutexLock _ | .clearMutex _ | .unlockTest _ => inferInstanceAs (Decidable (_ ∈ _))
  | .store _ _ => inferInstanceAs (Decidable (_ ∉ _))
  | .invokeBase _ | .releaseBase _ | .grantPermission .. => isFalse id
  | .hibernate .. | .handOver | .fillTask .. | .tick | .scheduler | .contextSwitch => isTrue trivial

def Searches (B : Build) (s : KernelState) (p : ℕ) : Prop :=
  s.taskCount < B.maxTaskCount ∧ (s.objs p).priority ≤ 127 ∧
    ((s.objs p).priority = 0 → s.firstStart = false) ∧ slotStack B s (idleSlot B s) ≠ 0

/-- The call accesses `level_stash` below `MAX_TASK_COUNT` only. -/
def Fits (B : Build) (s : KernelState) : Event → Prop
  | .createTask p _ => Searches B s p → InTable B s (s.objs p).priority
  | .killTask pid => Removable B s (slotNumber pid)
  | .endTask => Removable B s s.currentTask
  | _ => True

/-- The exceptions are not calls: `scheduler()` may not return. -/
def IsCall : Event → Prop
  | .tick | .scheduler | .contextSwitch => False
  | _ => True

/-- The invariant of the task table after the events `es`. -/
structure Intact (B : Build) (es : List Event) (s : KernelState) : Prop where
  cycle : ∃ n, 0 < n ∧ (hop s)^[n] 0 = 0 ∧
    (∀ i j, i < j → j < n → (hop s)^[i] 0 < (hop s)^[j] 0) ∧
    ∀ k, Live B s k ↔ ∃ i < n, (hop s)^[i] 0 = k
  free : ∀ k < B.maxTaskCount, s.state k = .idle → s.jmpList k = 0
  exact : ∀ k < B.maxTaskCount,
    -128 ≤ s.jmpList k ∧ s.jmpList k ≤ 127 ∧ (k : ℤ) + s.jmpList k = hop s k
  counted : s.taskCount = count B.maxTaskCount (Live B s)
  objects : ∀ k < B.maxTaskCount, s.taskObj k ≠ 0 ↔ Live B s k
  ids : ∀ k < B.maxTaskCount, s.taskId k ≠ 0 ↔ Live B s k
  next : Live B s s.nextTask
  running : .contextSwitch ∈ es → InThread s →
    s.currentTask = s.nextTask ∧ ∀ k < B.maxTaskCount, s.state k = .active ↔ k = s.currentTask

lemma live_iff {k : ℕ} (hk : k < B.maxTaskCount) : Live B s k ↔ s.state k ≠ .idle :=
  and_iff_right hk

lemma allowed_regular (hn : Numbered B s) (h : Allowed B mutexes s e) (hc : Consistent B s)
    (hth : e = .endTask → InThread s) : Regular B s e := by
  cases e with
  | createTask p arg =>
    refine ⟨h.1, ?_⟩
    rw [h.2.1]
    decide
  | startScheduler => exact h
  | killTask pid =>
    obtain ⟨k, -, hk, h0, hcur, rfl⟩ := h
    change Live B s _ ∧ _ ≠ 0 ∧ _ ≠ s.currentTask
    rw [hn.slotNumber hk]
    exact ⟨hk, h0, hcur⟩
  | endTask => exact ⟨h, hn.slotNumber (hc.in_thread (hth rfl)).2.1⟩
  | _ => trivial

lemma active_step (h : Consistent B s) (hok : Regular B s e) (he : Effect B s e t)
    (ha : e = .contextSwitch ∨ (s.schedulerPending = false → s.state s.nextTask = .active))
    (ht : t.schedulerPending = false) : t.state t.nextTask = .active := by
  cases he with
  | switched hq => exact h.switching hq
  | ticked | scheduled => exact update_self ..
  | started | ended | hibernated | handedOver | invoked | released | promoted | demoted =>
    exact Bool.noConfusion ht
  | created hth hc =>
    have hs := (ha.resolve_left fun h => by cases h) hth.1
    change newState s _ (idleSlot B s) s.nextTask = .active
    have hne : s.nextTask ≠ idleSlot B s := fun heq =>
      h.next.2 (by rw [heq]; exact Table.idleSlot_idle hc.slot)
    rw [Table.newState_eq hok.2, update_of_ne hne]
    exact hs
  | @killed pid ptr stash hth =>
    have hs := (ha.resolve_left fun h => by cases h) hth.1
    have hcur := (h.in_thread hth).1
    have hnext : (dropTask B s (slotNumber pid) s.selfKill ptr stash).nextTask = s.nextTask := by
      simp [dropTask, h.selfKill]
    rw [hnext]
    change update s.state (slotNumber pid) .idle s.nextTask = .active
    rw [update_of_ne (hcur ▸ hok.2.2.symm)]
    exact hs
  | _ => exact (ha.resolve_left fun h => by cases h) ht

structure Kept (B : Build) (mutexes : List ℕ) (es : List Event) (s : KernelState) : Prop where
  consistent : Consistent B s
  numbered : Numbered B s
  words : ∀ m ∈ mutexes, s.mem m >>> 16 < B.maxTaskCount
  byte : s.lstashPtr < 256
  active : .contextSwitch ∈ es → s.schedulerPending = false → s.state s.nextTask = .active

lemma Kept.regular (h : Kept B mutexes es s) (hok : Allowed B mutexes s e)
    (hth : e = .endTask → InThread s) : Regular B s e :=
  allowed_regular h.numbered hok h.consistent hth

lemma thread_of_end (he : Effect B s .endTask t) : InThread s := by
  cases he with
  | ended hth => exact hth

lemma Kept.words_step (h : Kept B mutexes es s) (hok : Allowed B mutexes s e) (he : Effect B s e t) :
    ∀ m ∈ mutexes, t.mem m >>> 16 < B.maxTaskCount := by
  intro m hm
  have hw := h.words m hm
  have hframe : t.mem = s.mem → t.mem m >>> 16 < B.maxTaskCount := fun heq => by rwa [heq]
  cases he with
  | @locked a hth hl =>
    obtain ⟨-, hlive, -⟩ := h.consistent.in_thread hth
    change update s.mem a (s.taskId s.currentTask) m >>> 16 < B.maxTaskCount
    rcases eq_or_ne m a with rfl | hne
    · rw [update_self, h.numbered _ hlive]
      exact hlive.1
    · rwa [update_of_ne hne]
  | @cleared a =>
    change update s.mem a (s.mem a / 256 * 256) m >>> 16 < B.maxTaskCount
    rcases eq_or_ne m a with rfl | hne
    · rw [Nat.shiftRight_eq_div_pow] at hw ⊢
      rw [update_self]
      omega
    · rwa [update_of_ne hne]
  | @stored a v =>
    have hne : m ≠ a := by
      rintro rfl
      exact hok hm
    change update s.mem a v m >>> 16 < B.maxTaskCount
    rwa [update_of_ne hne]
  | ticked _ _ hs | scheduled _ _ hs =>
    obtain ⟨⟨st, a, c, heq⟩, -⟩ := hs.wakes
    exact hframe (by rw [heq]; rfl)
  | demoted | released => exact hframe (by dsimp only [handOverState, demoteCurrent, answerState])
  | _ => exact hframe rfl

lemma Kept.advance (h : Kept B mutexes es s) (hok : Allowed B mutexes s e) (he : Effect B s e t) :
    Kept B mutexes (es ++ [e]) t := by
  have hreg := h.regular hok fun heq => thread_of_end (heq ▸ he)
  have ht := h.consistent.step hreg he
  refine ⟨ht, h.numbered.step h.consistent ht ?_ he, h.words_step hok he,
    lstashPtr_step h.byte he, fun hmem hp => ?_⟩
  · rintro p arg rfl
    exact hok.2.2
  · refine active_step h.consistent hreg he ?_ hp
    rcases List.mem_append.mp hmem with hold | hnew
    · exact Or.inr (h.active hold)
    · exact Or.inl (List.mem_singleton.mp hnew).symm

lemma Kept.intact (h : Kept B mutexes es s) : Intact B es s := by
  have hc := h.consistent
  have hr := hc.ringFrom hc.base
  refine ⟨⟨_, hr.length_pos, iterate_minimalPeriod, fun i j hij hj => ?_, fun k => ⟨?_, ?_⟩⟩,
    hc.free, fun k hk => ⟨(hc.jumps k hk).1, (hc.jumps k hk).2, ?_⟩, ?_, ?_, ?_, hc.next, ?_⟩
  · exact hc.ring.increasing (fun k hk => hk.1) hc.base (fun k _ => Nat.zero_le k) hij hj
  · exact hr.index
  · rintro ⟨i, -, rfl⟩
    exact hr.position i
  · by_cases hl : Live B s k
    · exact hc.jump hl
    · have hidle : s.state k = .idle := not_not.mp fun hne => hl ⟨hk, hne⟩
      have hN := B.maxTaskCount_le
      rw [hop, hc.free k hk hidle]
      omega
  · rw [hc.counted]
    exact count_congr fun k hk => (live_iff hk).symm
  · exact fun k hk => (hc.objects k hk).trans (live_iff hk).symm
  · exact fun k hk => (hc.ids k hk).trans (live_iff hk).symm
  · intro hmem hth
    have hact := h.active hmem hth.1
    have hcur := (hc.in_thread hth).1
    refine ⟨hcur, fun k hk => ⟨fun hs => (hc.single k hk hs).trans hcur.symm, ?_⟩⟩
    rintro rfl
    rwa [hcur]

lemma idleSlot_lt (h : Consistent B s) (hc : s.taskCount < B.maxTaskCount) :
    idleSlot B s < B.maxTaskCount := by
  refine lt_of_le_of_ne (firstIndex_le _ _) fun heq => ?_
  have hall : ∀ k < B.maxTaskCount, True ↔ s.state k ≠ .idle := by
    intro k hk
    have hmin := firstIndex_min (p := fun k => s.state k = .idle) (heq ▸ hk)
    simpa using hmin
  have hcount : count B.maxTaskCount (fun _ => True) = B.maxTaskCount := by simp [count]
  rw [h.counted, ← count_congr hall, hcount] at hc
  omega

lemma create_defined (h : Consistent B s) (hb : s.lstashPtr < 256) (hth : InThread s) (p arg : ℕ) :
    (∃ u, Step B s (.createTask p arg) u) ↔ Fits B s (.createTask p arg) := by
  rw [Fits, ← insertLevel_ne_none hb]
  by_cases hs : Searches B s p
  · obtain ⟨hcount, hprio, hbase, hpsp⟩ := hs
    have hslot := idleSlot_lt h hcount
    cases hi : insertLevel B s (s.objs p).priority with
    | none =>
      have hok : ¬ (127 < (s.objs p).priority ∨ (s.objs p).priority = 0 ∧ s.firstStart = true) := by
        rintro (hgt | ⟨h0, hf⟩)
        · omega
        · exact absurd (hbase h0) (by simp [hf])
      have hnone : ∀ fuel, step B fuel s (.createTask p arg) = none := by
        intro fuel
        simp only [step, inThread, if_pos hth, svc_createTask, svcServiceTaskCreate, if_pos hcount,
          if_neg hok, if_neg (not_le.mpr hslot), if_neg hpsp, hi]
        rfl
      constructor
      · rintro ⟨u, fuel, hu⟩
        rw [hnone] at hu
        cases hu
      · intro hf
        exact absurd rfl (hf ⟨hcount, hprio, hbase, hpsp⟩)
    | some r =>
      exact iff_of_true ⟨_, 0, step_create hth ⟨hcount, hprio, hbase, hslot, hi⟩ hpsp⟩
        fun _ => Option.some_ne_none r
  · refine iff_of_true ?_ fun hs' => absurd hs' hs
    obtain ⟨r, hr⟩ : ∃ r, svcServiceTaskCreate B ⟨svcCreateTask, p, arg, 0, 0⟩ s = some r := by
      simp only [svcServiceTaskCreate]
      by_cases hcount : s.taskCount < B.maxTaskCount
      · have hslot := not_le.mpr (idleSlot_lt h hcount)
        by_cases hok : 127 < (s.objs p).priority ∨ (s.objs p).priority = 0 ∧ s.firstStart = true
        · exact ⟨_, by rw [if_pos hcount, if_pos hok]⟩
        · by_cases hpsp : slotStack B s (idleSlot B s) = 0
          · exact ⟨_, by rw [if_pos hcount, if_neg hok, if_neg hslot, if_pos hpsp]⟩
          · rw [not_or, not_and] at hok
            exact absurd ⟨hcount, by omega, fun h0 => by simpa using hok.2 h0, hpsp⟩ hs
      · exact ⟨_, by rw [if_neg hcount]⟩
    exact ⟨_, 0, by rw [step, inThread, if_pos hth, svc_createTask, hr]; rfl⟩

lemma kill_service_defined (n pid flag : ℕ) (hi : slotNumber pid < B.maxTaskCount)
    (ho : s.taskObj (slotNumber pid) ≠ 0) :
    (∃ r, svcServiceTaskKill B ⟨n, pid, flag, 0, 0⟩ s = some r) ↔
      Removable B s (slotNumber pid) := by
  rw [← removeLevel_iff]
  have hok : ¬ (B.maxTaskCount ≤ uint8 (pid >>> 16) ∨ s.taskObj (uint8 (pid >>> 16)) = 0) := by
    rw [not_or, not_le]
    exact ⟨hi, ho⟩
  simp only [svcServiceTaskKill, if_neg hok]
  rw [← Option.isSome_iff_exists, Option.isSome_map, Option.isSome_iff_ne_none]
  rfl

lemma Kept.call_defined (h : Kept B mutexes es s) (hth : InThread s) (hok : Allowed B mutexes s e)
    (hcall : IsCall e) : (∃ u, Step B s e u) ↔ Fits B s e := by
  have hreg := h.regular hok fun _ => hth
  cases e with
  | createTask p arg => exact create_defined h.consistent h.byte hth p arg
  | startScheduler =>
    refine iff_of_true ?_ trivial
    cases hf : s.firstStart
    · exact ⟨_, 0, by simp only [step, inThread, if_pos hth, startScheduler, hf]; rfl⟩
    · exact ⟨_, 0, by simp only [step, inThread, if_pos hth, startScheduler, hf]; rfl⟩
  | killTask pid =>
    have hlive : Live B s (slotNumber pid) := hreg.1
    rw [Fits, ← kill_service_defined svcKillTask pid 0 hlive.1
      ((h.consistent.objects _ hlive.1).mpr hlive.2)]
    simp only [Step, step, inThread, if_pos hth, svc_killTask _ _ _ _ _ _ zero_ne_one,
      Option.map_map, Option.map_eq_some_iff]
    constructor
    · rintro ⟨_, _, r, hr, _⟩
      exact ⟨r, hr⟩
    · rintro ⟨r, hr⟩
      exact ⟨_, 0, r, hr, rfl⟩
  | endTask =>
    obtain ⟨-, hnum⟩ : _ ∧ slotNumber (s.taskId s.currentTask) = s.currentTask := hreg
    have hlive := (h.consistent.in_thread hth).2.1
    have hiff := kill_service_defined (B := B) (s := s) svcKillTask (s.taskId s.currentTask) 1
      (by rw [hnum]; exact hlive.1) (by rw [hnum]; exact (h.consistent.objects _ hlive.1).mpr hlive.2)
    rw [hnum] at hiff
    rw [Fits, ← hiff]
    simp only [Step, step, inThread, if_pos hth, svc_killTask_self, Option.map_map,
      Option.map_eq_some_iff]
    constructor
    · rintro ⟨_, _, r, hr, _⟩
      exact ⟨r, hr⟩
    · rintro ⟨r, hr⟩
      exact ⟨_, 0, r, hr, rfl⟩
  | promote m =>
    have hm := not_le.mpr (h.words m hok)
    exact iff_of_true ⟨_, 0, by simp only [step, inThread, if_pos hth, svc_promote, if_neg hm]; rfl⟩ trivial
  | hibernate n a b v => exact iff_of_true ⟨_, 0, by rw [step, inThread, if_pos hth]; rfl⟩ trivial
  | handOver => exact iff_of_true ⟨_, 0, by rw [step, inThread, if_pos hth]; rfl⟩ trivial
  | mutexLock m => exact iff_of_true ⟨_, 0, by rw [step, inThread, if_pos hth]⟩ trivial
  | clearMutex m => exact iff_of_true ⟨_, 0, by rw [step, inThread, if_pos hth]⟩ trivial
  | unlockTest m =>
    refine iff_of_true ?_ trivial
    by_cases hm : s.mutexStash s.currentTask = m
    · exact ⟨_, 0, by simp only [step, inThread, if_pos hth, unlockTest, if_pos hm]; rfl⟩
    · exact ⟨_, 0, by simp only [step, inThread, if_pos hth, unlockTest, if_neg hm]; rfl⟩
  | store a v => exact iff_of_true ⟨_, 0, rfl⟩ trivial
  | fillTask p o => exact iff_of_true ⟨_, 0, rfl⟩ trivial
  | invokeBase | releaseBase | grantPermission => exact hok.elim
  | tick | scheduler | contextSwitch => exact hcall.elim

variable {mem : ℕ → ℕ} {objs : ℕ → TaskObject} {stack : ℕ → ℕ}

lemma kept_boot (B : Build) (objs : ℕ → TaskObject) (stack : ℕ → ℕ) (hm : ∀ m ∈ mutexes, mem m = 0) :
    Kept B mutexes [] (bootState B mem objs stack) := by
  refine ⟨boot_consistent B mem objs stack, ?_, ?_, ?_, nofun⟩
  all_goals
    obtain ⟨objs', stack', hb⟩ := bootState_eq B mem objs stack
    rw [hb]
  · intro k hk
    obtain rfl := (booted_live B mem objs' stack' k).mp hk
    change update (fun _ => 0) 0 1 0 >>> 16 = 0
    rw [update_self]
    rfl
  · intro m hmem
    change update mem B.baseMutex 1 m >>> 16 < B.maxTaskCount
    have hN := B.maxTaskCount_pos
    rcases eq_or_ne m B.baseMutex with rfl | hne
    · simpa using hN
    · rw [update_of_ne hne, hm m hmem]
      simpa using hN
  · change 1 < 256
    decide

lemma kept_run (hm : ∀ m ∈ mutexes, mem m = 0)
    (h : Run (Guarded B (Allowed B mutexes)) (bootState B mem objs stack) es t) :
    Kept B mutexes es t := by
  induction h with
  | nil => exact kept_boot B objs stack hm
  | snoc _ he ih => exact ih.advance he.1 (step_effect he.2)

/-- As long as the calls stay inside `level_stash` the task table is intact in every state, and a
call that is about to leave it is the only one that is undefined. -/
theorem task_table (hm : ∀ m ∈ mutexes, mem m = 0)
    (h : Run (Guarded B (Allowed B mutexes)) (bootState B mem objs stack) es t) :
    Intact B es t ∧ ∀ e, InThread t → Allowed B mutexes t e → IsCall e →
      ((∃ u, Step B t e u) ↔ Fits B t e) :=
  ⟨(kept_run hm h).intact, fun _ hth hok hcall => (kept_run hm h).call_defined hth hok hcall⟩

section Instances

def eightSlots : Build := Build.eight

def objectOf (priority : ℕ) : TaskObject := ⟨0, 0, priority, 0, 0, 0, 0, 0⟩

def creation (p priority : ℕ) : List Event := [.fillTask p (objectOf priority), .createTask p 0]

def start : KernelState := bootState eightSlots (fun _ => 0) (fun _ => objectOf 1) (fun _ => 0)

def descending : List Event :=
  creation 10 5 ++ creation 11 3 ++ creation 12 4 ++ [.fillTask 13 (objectOf 2)]

def lively : List Event :=
  creation 10 1 ++ creation 11 2 ++ creation 12 5 ++
    [.startScheduler, .scheduler, .contextSwitch, .endTask, .scheduler, .contextSwitch,
      .hibernate 2 100 101 1, .scheduler, .contextSwitch]

/-- The search for priority 2 goes left of the first entry and reads `level_stash[255]`. -/
theorem task_table_fails : ∃ t, Run (Guarded eightSlots (Allowed eightSlots [])) start descending t ∧
    InThread t ∧ Allowed eightSlots [] t (.createTask 13 0) ∧
    ∀ fuel, step eightSlots fuel t (.createTask 13 0) = none := by
  obtain ⟨t, hr, hth, hok, hn⟩ := run_of_exec eightSlots 20
    (Allowed eightSlots []) start descending
    (fun t => InThread t ∧ Allowed eightSlots [] t (.createTask 13 0) ∧
      (step eightSlots 0 t (.createTask 13 0)).isNone = true) (by decide +kernel)
  exact ⟨t, hr, hth, hok, fun _ => Option.isNone_iff_eq_none.mp hn⟩

theorem task_table_lively : ∃ t, Run (Guarded eightSlots (Allowed eightSlots [])) start lively t ∧
    Intact eightSlots lively t ∧ ∀ e, InThread t → Allowed eightSlots [] t e → IsCall e →
      ((∃ u, Step eightSlots t e u) ↔ Fits eightSlots t e) := by
  obtain ⟨t, hr, -⟩ := run_of_exec eightSlots 20 (Allowed eightSlots []) start lively (fun _ => True)
    (by decide +kernel)
  exact ⟨t, hr, task_table nofun hr⟩

end Instances

end Skibios.Tasks.TaskTable

import Skibios.Tasks.Identity

/-! Creating a task and killing it again, over and over: the kernel variables come back and the
creation counter moves on. -/

namespace Skibios.Tasks.Churn

open Function Library.Words Library.Loops Library.Runs Library.Counting
open Kernel State TaskServices Services Scheduler SchedulerLoops Events Effects Invariants Identity

variable {B : Build} {s t : KernelState} {p n : ℕ}

def Churns (B : Build) (s : KernelState) (e : Event) : Prop :=
  Regular B s e ∧ ((∃ p arg, e = .createTask p arg) ∨ ∃ pid, e = .killTask pid)

/-- Only the base task lives, the boot thread runs, the counter has seen `n` creations and the
object at `p` asks for priority 1. -/
structure Alone (B : Build) (s : KernelState) (p n : ℕ) : Prop where
  consistent : Consistent B s
  thread : InThread s
  first : s.firstStart = false
  states : ∀ k, Live B s k ↔ k = 0
  total : s.totalTaskCount = n % 65536
  ptr : s.lstashPtr = 1
  stash : s.levelStash = fun _ => 0
  prio : ∀ k < B.maxTaskCount, k ≠ 1 → s.prioCurrent k = 0
  priority : (s.objs p).priority = 1
  hibernate : (s.objs p).hibernate = 0
  room : slotStack B s 1 ≠ 0

namespace Alone

lemma idleSlot_eq (h : Alone B s p n) (hB : 1 < B.maxTaskCount) : idleSlot B s = 1 := by
  have h1 : s.state 1 = .idle := by
    by_contra hne
    exact absurd ((h.states 1).mp ⟨hB, hne⟩) (by decide)
  have hle : idleSlot B s ≤ 1 := firstIndex_le_of (by simpa using h1)
  have hne : idleSlot B s ≠ 0 := by
    intro h0
    have hidle := Table.idleSlot_idle (B := B) (s := s) (by omega)
    rw [h0] at hidle
    exact ((h.states 0).mpr rfl).2 hidle
  omega

lemma taskCount_eq (h : Alone B s p n) : s.taskCount = 1 := by
  have hzero : count B.maxTaskCount (fun _ => False) = 0 := count_eq_zero_iff.mpr (by simp)
  rw [h.consistent.counted, count_insert (p := fun _ => False) B.maxTaskCount_pos (by simp)
    ((h.states 0).mpr rfl).2, hzero]
  intro k hk hk0
  simpa using mt (fun hs => (h.states k).mp ⟨hk, hs⟩) hk0

lemma insertLevel_eq (h : Alone B s p n) (hB : 2 < B.maxTaskCount) :
    insertLevel B s 1 = some (2, update (fun _ => 0) 1 1) := by
  have h0 : searchTurn B (fun _ => 0) 1 ⟨0, 1, 0⟩ = .again ⟨1, 1, 0⟩ := by
    simp [searchTurn, uint8, show ¬ B.maxTaskCount ≤ 0 by omega]
  have h1 : searchTurn B (fun _ => 0) 1 ⟨1, 1, 0⟩ = .again ⟨2, 1, 1⟩ := by
    simp [searchTurn, uint8, show ¬ B.maxTaskCount ≤ 1 by omega]
  have h2 : searchTurn B (fun _ => 0) 1 ⟨2, 1, 1⟩ = .leave (some 1) := by simp [searchTurn]
  rw [insertLevel, h.ptr, h.stash, runLoop_again h0, runLoop_again h1, runLoop_leave h2]
  simp [shiftUp, uint8, show ¬ B.maxTaskCount ≤ 1 by omega]

lemma creates (h : Alone B s p n) (hB : 2 < B.maxTaskCount) :
    Creates B s p 2 (update (fun _ => 0) 1 1) := by
  have hi := h.idleSlot_eq (by omega)
  refine ⟨by rw [h.taskCount_eq]; omega, by rw [h.priority]; omega, fun _ => h.first,
    by rw [hi]; omega, by rw [h.priority, h.insertLevel_eq hB]⟩

lemma regular (h : Alone B s p n) (hp : p ≠ 0) : Regular B s (.createTask p 0) :=
  ⟨hp, by rw [h.hibernate]; decide⟩

lemma create (h : Alone B s p n) (hB : 2 < B.maxTaskCount) (hp : p ≠ 0) :
    Guarded B (Churns B) s (.createTask p 0) (fillSlot B s p 0 2 (update (fun _ => 0) 1 1)) := by
  refine ⟨⟨h.regular hp, Or.inl ⟨_, _, rfl⟩⟩, 0, step_create h.thread (h.creates hB) ?_⟩
  rw [h.idleSlot_eq (by omega)]
  exact h.room

lemma slotNumber_newTaskId (h : Alone B s p n) : slotNumber (newTaskId s 1) = 1 := by
  have hid := newTaskId_eq (i := 1) h.total
  by_cases hn : n % 65536 = 65535
  · rw [hid, idOf, hn]
    decide
  · rw [hid, slotNumber, idOf_slot (by decide) hn]
    decide

lemma removeLevel_eq (h : Alone B s p n) (hB : 2 < B.maxTaskCount) :
    removeLevel B (fillSlot B s p 0 2 (update (fun _ => 0) 1 1)) 1 = some (1, fun _ => 0) := by
  have hi := h.idleSlot_eq (by omega)
  have hprio : (fillSlot B s p 0 2 (update (fun _ => 0) 1 1)).prioCurrent =
      update s.prioCurrent 1 1 := by
    dsimp only [fillSlot, placeTask]
    rw [hi, h.priority]
  have hptr : (fillSlot B s p 0 2 (update (fun _ => 0) 1 1)).lstashPtr = 2 := by
    dsimp only [fillSlot, placeTask]
  have hstash : (fillSlot B s p 0 2 (update (fun _ => 0) 1 1)).levelStash =
      update (fun _ => 0) 1 1 := by
    dsimp only [fillSlot, placeTask]
  have hnone : ¬ ∃ j < B.maxTaskCount, j ≠ 1 ∧
      update s.prioCurrent 1 1 j = update s.prioCurrent 1 1 1 := by
    rintro ⟨j, hj, hne, he⟩
    rw [update_of_ne hne, update_self, h.prio j hj hne] at he
    cases he
  have hdrop : dropLevel 1 2 (update (fun _ => 0) 1 1) = (true, fun _ => 0) := by
    simp [dropLevel]
  rw [removeLevel, hprio, hptr, hstash, if_neg hnone, update_self, hdrop,
    if_neg (by simp only [not_or, not_and, not_le]; omega)]
  rfl

lemma created_state (h : Alone B s p n) (hB : 2 < B.maxTaskCount) (hp : p ≠ 0) :
    (fillSlot B s p 0 2 (update (fun _ => 0) 1 1)).state = update s.state 1 .sleep := by
  have hib : (s.objs p).hibernate &&& hibernateStateMask ≠ hibernateStateMask := (h.regular hp).2
  rw [fillSlot, h.idleSlot_eq (by omega)]
  exact Table.newState_eq hib

lemma created_obj (h : Alone B s p n) (hB : 2 < B.maxTaskCount) :
    (fillSlot B s p 0 2 (update (fun _ => 0) 1 1)).taskObj 1 = p := by
  rw [fillSlot, h.idleSlot_eq (by omega)]
  exact update_self (1 : ℕ) p s.taskObj

lemma created_objs (h : Alone B s p n) (hB : 2 < B.maxTaskCount) :
    (fillSlot B s p 0 2 (update (fun _ => 0) 1 1)).objs =
      update s.objs p { s.objs p with taskId := newTaskId s 1 } := by
  rw [fillSlot, h.idleSlot_eq (by omega)]
  dsimp only [placeTask]

lemma created_prio (h : Alone B s p n) (hB : 2 < B.maxTaskCount) {k : ℕ}
    (hk : k < B.maxTaskCount) (hne : k ≠ 1) :
    (fillSlot B s p 0 2 (update (fun _ => 0) 1 1)).prioCurrent k = 0 := by
  rw [fillSlot, h.idleSlot_eq (by omega)]
  dsimp only [placeTask]
  rw [update_of_ne hne]
  exact h.prio k hk hne

lemma kill_regular (h : Alone B s p n) (hB : 2 < B.maxTaskCount) (hp : p ≠ 0) :
    Regular B (fillSlot B s p 0 2 (update (fun _ => 0) 1 1)) (.killTask (newTaskId s 1)) := by
  set t := fillSlot B s p 0 2 (update (fun _ => 0) 1 1) with ht
  have hlive : Live B t 1 := ⟨by omega, by rw [ht, h.created_state hB hp]; simp⟩
  have hcur : t.currentTask = 0 := by
    rw [ht]
    exact (h.states _).mp (h.consistent.in_thread h.thread).2.1
  change Live B t _ ∧ _ ≠ 0 ∧ _ ≠ t.currentTask
  rw [h.slotNumber_newTaskId, hcur]
  exact ⟨hlive, by decide, by decide⟩

lemma kill (h : Alone B s p n) (hB : 2 < B.maxTaskCount) (hp : p ≠ 0) :
    Guarded B (Churns B) (fillSlot B s p 0 2 (update (fun _ => 0) 1 1)) (.killTask (newTaskId s 1))
      (dropTask B (fillSlot B s p 0 2 (update (fun _ => 0) 1 1)) 1
        (fillSlot B s p 0 2 (update (fun _ => 0) 1 1)).selfKill 1 (fun _ => 0)) := by
  have hnum := h.slotNumber_newTaskId
  have hkills : Kills B (fillSlot B s p 0 2 (update (fun _ => 0) 1 1))
      (slotNumber (newTaskId s 1)) 1 (fun _ => 0) := by
    rw [hnum]
    exact ⟨by omega, by rw [h.created_obj hB]; exact hp, h.removeLevel_eq hB⟩
  have hthread : InThread (fillSlot B s p 0 2 (update (fun _ => 0) 1 1)) := h.thread
  refine ⟨⟨h.kill_regular hB hp, Or.inr ⟨_, rfl⟩⟩, 0, ?_⟩
  rw [step_kill hthread hkills, hnum]

lemma killed (h : Alone B s p n) (hB : 2 < B.maxTaskCount) (hp : p ≠ 0) :
    Alone B (dropTask B (fillSlot B s p 0 2 (update (fun _ => 0) 1 1)) 1
      (fillSlot B s p 0 2 (update (fun _ => 0) 1 1)).selfKill 1 (fun _ => 0)) p (n + 1) := by
  have hstate := h.created_state hB hp
  have hprio := @created_prio B s p n h hB
  have hobj := h.created_obj hB
  have hobjs := h.created_objs hB
  have hcreate := h.create hB hp
  have hkill := h.kill hB hp
  set t := fillSlot B s p 0 2 (update (fun _ => 0) 1 1) with ht
  have hct : Consistent B t := h.consistent.step hcreate.1.1 (step_effect hcreate.2)
  have hback : (dropTask B t 1 t.selfKill 1 (fun _ => 0)).objs =
      update t.objs p { t.objs p with taskId := 0 } := by
    dsimp only [dropTask]
    rw [hobj]
  have hthread : InThread t := by
    rw [ht]
    exact h.thread
  refine ⟨hct.step hkill.1.1 (step_effect hkill.2), hthread, ?_, fun k => ?_, ?_, rfl, rfl,
    fun k hk hne => hprio hk hne, ?_, ?_, ?_⟩
  · rw [ht]
    exact h.first
  · change k < B.maxTaskCount ∧ update t.state 1 .idle k ≠ .idle ↔ k = 0
    rw [hstate, update_idem, ← h.states k]
    rcases eq_or_ne k 1 with rfl | hk
    · simpa [Live] using fun _ => not_not.mp fun hne => absurd ((h.states 1).mp ⟨by omega, hne⟩) (by decide)
    · rw [update_of_ne hk]
      rfl
  · change uint16 (s.totalTaskCount + 1) = _
    rw [h.total, uint16]
    omega
  · rw [hback, hobjs]
    simpa using h.priority
  · rw [hback, hobjs]
    simpa using h.hibernate
  · rw [ht]
    exact h.room

lemma cycle (h : Alone B s p n) (hB : 2 < B.maxTaskCount) (hp : p ≠ 0) :
    ∃ es t, Run (Guarded B (Churns B)) s es t ∧ Alone B t p (n + 1) :=
  ⟨_, _, (Run.single (h.create hB hp)).snoc (h.kill hB hp), h.killed hB hp⟩

lemma cycles (h : Alone B s p n) (hB : 2 < B.maxTaskCount) (hp : p ≠ 0) (m : ℕ) :
    ∃ es t, Run (Guarded B (Churns B)) s es t ∧ Alone B t p (n + m) := by
  induction m with
  | zero => exact ⟨[], s, .nil, h⟩
  | succ m ih =>
    obtain ⟨es, t, hr, ht⟩ := ih
    obtain ⟨fs, u, hr', hu⟩ := ht.cycle hB hp
    exact ⟨es ++ fs, u, hr.append hr', hu⟩

end Alone

lemma booted_alone (B : Build) (mem : ℕ → ℕ) (objs : ℕ → TaskObject) (stack : ℕ → ℕ) (p : ℕ)
    (o : TaskObject) (hB : uint32 (B.procHeapAddr + 1 * B.taskStackSize * 4) ≠ 0)
    (ho : o.priority = 1 ∧ o.hibernate = 0) :
    Alone B { bootState B mem objs stack with
      objs := update (bootState B mem objs stack).objs p o } p 1 := by
  obtain ⟨objs', stack', h⟩ := bootState_eq B mem objs stack
  have hc : Consistent B { booted B mem objs' stack' with
      objs := update (booted B mem objs' stack').objs p o } :=
    (booted_consistent B mem objs' stack').step (e := .fillTask p o) trivial .filled
  rw [h]
  refine ⟨hc, ⟨rfl, rfl⟩, rfl, booted_live B mem objs' stack', rfl, rfl, rfl, fun _ _ _ => rfl, ?_, ?_, hB⟩
  · simpa using ho.1
  · simpa using ho.2

end Skibios.Tasks.Churn

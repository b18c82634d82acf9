import Skibios.Tasks.LevelStash

/-! KILL_TASK: which task it kills, and what a task that kills itself through it leaves behind. -/

namespace Skibios.Tasks.Killing

open Function Library.Words Library.Loops Library.Counting Library.Rings Library.Runs
open Kernel State TaskServices Services Scheduler SchedulerLoops Events Effects
open Invariants Identity LevelStash

variable {B : Build} {s t u v w : KernelState} {e : Event} {es fs : List Event} {i pid flag : ℕ}
variable {mem : ℕ → ℕ} {objs : ℕ → TaskObject} {stack : ℕ → ℕ}

def Named (B : Build) (s : KernelState) (pid i : ℕ) : Prop := i ≠ 0 ∧ Live B s i ∧ s.taskId i = pid

instance (B : Build) (s : KernelState) (pid : ℕ) : DecidablePred (Named B s pid) :=
  fun _ => inferInstanceAs (Decidable (_ ∧ _))

def kill (B : Build) (s : KernelState) (pid flag : ℕ) : Option (ℕ × Call × KernelState) :=
  svcServiceTaskKill B ⟨svcKillTask, pid, flag, 0, 0⟩ s

/-- A task with the id dies and nobody else does; where there is none the call is refused. -/
structure KillsNamed (B : Build) (s : KernelState) (pid flag : ℕ) : Prop where
  named : (∃ i, Named B s pid i) → ∃ i r, Named B s pid i ∧ kill B s pid flag = some r ∧
    r.2.2.state = update s.state i .idle ∧ r.2.2.taskCount + 1 = s.taskCount
  unknown : (¬ ∃ i, Named B s pid i) → ∃ r, kill B s pid flag = some r ∧ r.1 ≠ errorNone ∧ r.2.2 = s

/-- Taking a level out of `level_stash` reads one entry past the level it finds. -/
def Removable (B : Build) (s : KernelState) (i : ℕ) : Prop :=
  (∃ j < B.maxTaskCount, j ≠ i ∧ s.prioCurrent j = s.prioCurrent i) ∨
    s.lstashPtr < B.maxTaskCount ∨
    s.lstashPtr = B.maxTaskCount ∧ ∀ j < B.maxTaskCount, s.levelStash j ≠ s.prioCurrent i

instance (B : Build) (s : KernelState) (i : ℕ) : Decidable (Removable B s i) :=
  inferInstanceAs (Decidable (_ ∨ _))

lemma dropLevel_found (p n : ℕ) (stash : ℕ → ℕ) :
    (dropLevel p n stash).1 = true ↔ ∃ j < n, stash j = p := by
  rcases dropLevel_spec p n stash with ⟨hd, hnone⟩ | ⟨f, hf, hfp, hd⟩
  · rw [hd]
    constructor
    · intro h
      cases h
    · rintro ⟨j, hj, hp⟩
      exact absurd hp (hnone j hj)
  · rw [hd]
    exact iff_of_true rfl ⟨f, hf, hfp⟩

lemma removeLevel_iff : removeLevel B s i ≠ none ↔ Removable B s i := by
  unfold removeLevel Removable
  by_cases hshared : ∃ j < B.maxTaskCount, j ≠ i ∧ s.prioCurrent j = s.prioCurrent i
  · rw [if_pos hshared]
    exact iff_of_true (Option.some_ne_none _) (Or.inl hshared)
  rw [if_neg hshared, or_iff_right hshared]
  dsimp only
  have hmet := dropLevel_found (s.prioCurrent i) s.lstashPtr s.levelStash
  rcases lt_trichotomy s.lstashPtr B.maxTaskCount with hlt | heq | hgt
  · rw [if_neg (by omega)]
    exact iff_of_true (Option.some_ne_none _) (Or.inl hlt)
  · by_cases hfound : ∃ j < s.lstashPtr, s.levelStash j = s.prioCurrent i
    · rw [if_pos (Or.inr ⟨hmet.mpr hfound, heq.ge⟩)]
      refine iff_of_false (fun h => h rfl) ?_
      rintro (hlt | ⟨-, hnone⟩)
      · exact hlt.ne heq
      · obtain ⟨j, hj, hp⟩ := hfound
        exact hnone j (heq ▸ hj) hp
    · have hsafe : ¬ (B.maxTaskCount < s.lstashPtr ∨
          (dropLevel (s.prioCurrent i) s.lstashPtr s.levelStash).1 = true ∧
            B.maxTaskCount ≤ s.lstashPtr) := by
        rintro (hlt | ⟨hd, -⟩)
        · exact hlt.ne' heq
        · exact hfound (hmet.mp hd)
      rw [if_neg hsafe]
      refine iff_of_true (Option.some_ne_none _) (Or.inr ⟨heq, fun j hj hp => ?_⟩)
      exact hfound ⟨j, heq.symm ▸ hj, hp⟩
  · rw [if_pos (Or.inl hgt)]
    refine iff_of_false (fun h => h rfl) ?_
    rintro (hlt | ⟨heq, -⟩) <;> omega

lemma kill_iff {r : ℕ × Call × KernelState} : kill B s pid flag = some r ↔
    ∃ ptr stash, Kills B s (slotNumber pid) ptr stash ∧
      r = (errorNone, ⟨if flag = 1 then svcHandOver else svcKillTask, pid, flag, 0, 0⟩,
        dropTask B s (slotNumber pid) (s.selfKill || flag = 1) ptr stash) := by
  by_cases hok : B.maxTaskCount ≤ slotNumber pid ∨ s.taskObj (slotNumber pid) = 0
  · have hnone : kill B s pid flag = none := if_pos hok
    rw [hnone]
    refine iff_of_false nofun ?_
    rintro ⟨ptr, stash, hk, -⟩
    rcases hok with hslot | hobj
    · exact absurd hk.slot (not_lt.mpr hslot)
    · exact hk.object hobj
  · have hsome : kill B s pid flag = (removeLevel B s (slotNumber pid)).map fun d =>
        (errorNone, ⟨if flag = 1 then svcHandOver else svcKillTask, pid, flag, 0, 0⟩,
          dropTask B s (slotNumber pid) (s.selfKill || flag = 1) d.1 d.2) := if_neg hok
    rw [hsome, Option.map_eq_some_iff]
    rw [not_or, not_le] at hok
    constructor
    · rintro ⟨⟨ptr, stash⟩, hr, rfl⟩
      exact ⟨ptr, stash, ⟨hok.1, hok.2, hr⟩, rfl⟩
    · rintro ⟨ptr, stash, hk, rfl⟩
      exact ⟨(ptr, stash), hk.remove, rfl⟩

lemma dropped_count {ptr : ℕ} {stash : ℕ → ℕ} {f : Bool} (hs : Table B s) (hi : Live B s i) :
    (dropTask B s i f ptr stash).taskCount + 1 = s.taskCount := by
  have hN := B.maxTaskCount_le
  have hcount := hs.counted
  have hpos : 0 < s.taskCount := by
    rw [hcount]
    exact count_pos_iff.mpr ⟨i, hi⟩
  have hle : s.taskCount ≤ B.maxTaskCount := by
    rw [hcount]
    exact count_le _ _
  change uint16 (s.taskCount + 65535) + 1 = s.taskCount
  unfold uint16
  omega

/-- In a state a regular run reaches, KILL_TASK does what its caller means if and only if a task
other than the base task carries the id in the slot the id names, and its level can be removed. -/
theorem kill_named (h : Run (Guarded B (Regular B)) (bootState B mem objs stack) es s) :
    KillsNamed B s pid flag ↔ Named B s pid (slotNumber pid) ∧ Removable B s (slotNumber pid) := by
  have hs := run_consistent (fun _ _ hr => hr) (boot_consistent B mem objs stack) h
  constructor
  · intro hlaw
    by_cases hex : ∃ i, Named B s pid i
    · obtain ⟨i, r, hi, hr, hstate, -⟩ := hlaw.named hex
      obtain ⟨ptr, stash, hk, rfl⟩ := kill_iff.mp hr
      have hslot : i = slotNumber pid := by
        by_contra hne
        have hidle := congrFun hstate i
        change update s.state (slotNumber pid) .idle i = _ at hidle
        rw [update_self, update_of_ne hne] at hidle
        exact hi.2.1.2 hidle
      rw [← hslot] at hk ⊢
      refine ⟨hi, removeLevel_iff.mp ?_⟩
      rw [hk.remove]
      exact Option.some_ne_none _
    · obtain ⟨r, hr, herr, -⟩ := hlaw.unknown hex
      obtain ⟨ptr, stash, -, rfl⟩ := kill_iff.mp hr
      exact absurd rfl herr
  · rintro ⟨hi, hrem⟩
    obtain ⟨⟨ptr, stash⟩, hremove⟩ := Option.ne_none_iff_exists'.mp (removeLevel_iff.mpr hrem)
    have hobj := (hs.objects _ hi.2.1.1).mpr hi.2.1.2
    have hr : kill B s pid flag = some _ :=
      kill_iff.mpr ⟨ptr, stash, ⟨hi.2.1.1, hobj, hremove⟩, rfl⟩
    refine ⟨fun _ => ⟨slotNumber pid, _, hi, hr, rfl, ?_⟩, fun hnone => absurd ⟨_, hi⟩ hnone⟩
    exact dropped_count hs.toTable hi.2.1

def Spares (B : Build) (i : ℕ) (s : KernelState) (e : Event) : Prop :=
  Regular B s e ∧
    match e with
    | .createTask .. => idleSlot B s ≠ i
    | _ => True

/-- What the end of the task in slot `i` leaves once another task runs. -/
structure Ended (B : Build) (s : KernelState) (i : ℕ) : Prop where
  idle : s.state i = .idle
  current : Live B s s.currentTask
  next : s.nextTask = s.currentTask
  ring : Sorted (Live B s) (hop s)
  -- the slot can be linked in again
  free : s.jmpList i = 0
  stays : ∀ es t, Run (Guarded B (Spares B i)) s es t → t.state i = .idle ∧ t.currentTask ≠ i

lemma current_step (he : Effect B s e t) (hreg : Regular B s e) :
    t.currentTask = s.currentTask ∨ t.currentTask = s.nextTask ∧ e = .contextSwitch := by
  cases he with
  | started =>
    have h0 : s.currentTask = 0 := hreg
    exact Or.inl h0.symm
  | ticked _ _ h | scheduled _ _ h =>
    obtain ⟨⟨st, a, c, hframe⟩, -⟩ := h.wakes
    exact Or.inl (by rw [hframe]; rfl)
  | switched => exact Or.inr ⟨rfl, rfl⟩
  | demoted | released =>
    left
    dsimp only [handOverState, demoteCurrent, answerState]
  | _ => exact Or.inl rfl

structure Gone (B : Build) (s : KernelState) (i : ℕ) : Prop where
  consistent : Consistent B s
  slot : i < B.maxTaskCount
  idle : s.state i = .idle
  other : s.currentTask ≠ i

lemma Gone.step (h : Gone B s i) (hok : Spares B i s e) (he : Effect B s e t) : Gone B t i := by
  have ht := h.consistent.step hok.1 he
  refine ⟨ht, h.slot, ?_, ?_⟩
  · by_contra hlive
    rcases live_before h.consistent ht he ⟨h.slot, hlive⟩ with hold | ⟨p, arg, rfl, hi⟩
    · exact hold.2 h.idle
    · exact hok.2 hi.symm
  · rcases current_step he hok.1 with hc | ⟨hc, -⟩
    · rw [hc]
      exact h.other
    · rw [hc]
      rintro rfl
      exact h.consistent.next.2 h.idle

lemma Gone.ended (h : Gone B s i) (hc : s.currentTask = s.nextTask) : Ended B s i := by
  refine ⟨h.idle, hc ▸ h.consistent.next, hc.symm, h.consistent.ring,
    h.consistent.free i h.slot h.idle, fun es t hr => ?_⟩
  have ht : Gone B t i := by
    refine hr.invariant (I := fun t => Gone B t i) ?_ h
    exact fun _ _ _ hg hstep => hg.step hstep.1 (step_effect hstep.2)
  exact ⟨ht.idle, ht.other⟩

/-- What the code of a task does between two runs of the scheduler, apart from creating and ending
tasks. -/
def Meanwhile : Event → Prop
  | .createTask .. | .killTask _ | .endTask | .startScheduler | .tick | .scheduler
  | .contextSwitch => False
  | _ => True

instance : DecidablePred Meanwhile
  | .createTask .. | .killTask _ | .endTask | .startScheduler | .tick | .scheduler
  | .contextSwitch => isFalse id
  | .hibernate .. | .handOver | .invokeBase _ | .releaseBase _ | .grantPermission .. | .promote _
  | .mutexLock _ | .clearMutex _ | .unlockTest _ | .store .. | .fillTask .. => isTrue trivial

/-- The running task may be dead, and the next run of the scheduler will not find its slot IDLE. -/
structure Undead (s : KernelState) (i : ℕ) : Prop where
  current : s.currentTask = i
  other : i ≠ 0
  selfKill : s.selfKill = false
  parked : s.normalSchedule = false → s.state i ≠ .idle

namespace Undead

lemma handOver (h : Undead s i) : Undead (handOverState s) i := by
  refine ⟨h.current, h.other, rfl, fun _ => ?_⟩
  simp [handOverState, h.selfKill, h.current]

lemma demote (h : Undead s i) : Undead (handOverState (demoteCurrent B s)) i := by
  have hc : (demoteCurrent B s).currentTask = i := h.current
  have hk : (demoteCurrent B s).selfKill = false := h.selfKill
  refine ⟨h.current, h.other, rfl, fun _ => ?_⟩
  simp [handOverState, hk, hc]

lemma step (h : Undead s i) (hm : Meanwhile e) (he : Effect B s e t) : Undead t i := by
  cases he with
  | refused | created | started | alreadyStarted | killed | ended | ticked | scheduled | switched =>
    exact hm.elim
  | hibernated =>
    refine ⟨h.current, h.other, h.selfKill, fun _ => ?_⟩
    change update s.state s.currentTask _ i ≠ _
    rw [h.current, update_self]
    split <;> decide
  | promoted | invoked =>
    refine ⟨h.current, h.other, h.selfKill, fun _ => ?_⟩
    change update s.state s.currentTask .hold i ≠ _
    rw [h.current, update_self]
    decide
  | handedOver => exact h.handOver
  | demoted => exact h.demote
  | released _ h0 => exact absurd (h.current.symm.trans h0) h.other
  | _ => exact ⟨h.current, h.other, h.selfKill, h.parked⟩

lemma enter (h : Undead s i) : (enterScheduler s).state i ≠ .idle := by
  dsimp only [enterScheduler]
  cases hn : s.normalSchedule with
  | true => simp [h.current]
  | false => simpa using h.parked hn

lemma scheduled (h : Undead s i) {c : Selection} (hs : Scheduled B s w c) :
    (leaveScheduler w c).state i ≠ .idle := by
  have hw : w.state i ≠ .idle := by
    rcases hs.wakes.slot i with hk | ⟨-, hk⟩ <;> rw [hk]
    · exact h.enter
    · decide
  change update w.state c.next .active i ≠ _
  rcases eq_or_ne i c.next with rfl | hne
  · rw [update_self]
    decide
  · rwa [update_of_ne hne]

end Undead

/-- The two ways for a task to end itself: through `resolve_end` its slot is free for good after the
next run of the scheduler, through `task_kill` it never is. -/
theorem self_kill (h : Run (Guarded B (Regular B)) (bootState B mem objs stack) es s)
    (hth : InThread s) (h0 : s.currentTask ≠ 0) :
    (slotNumber (s.taskId s.currentTask) = s.currentTask → ∀ u v w, Step B s .endTask u →
      Step B u .scheduler v → Step B v .contextSwitch w → Ended B w s.currentTask) ∧
    ∀ pid u fs v w x, slotNumber pid = s.currentTask → Step B s (.killTask pid) u →
      Run (Guarded B fun _ e => Meanwhile e) u fs v → Step B v .tick w ∨ Step B v .scheduler w →
      Step B w .contextSwitch x → ¬ Ended B x s.currentTask := by
  have hs := run_consistent (fun _ _ hr => hr) (boot_consistent B mem objs stack) h
  constructor
  · intro hid u v w hu hv hw
    have hslot := (hs.in_thread hth).2.1.1
    have hreg : Regular B s .endTask := ⟨h0, hid⟩
    have hcu : Consistent B u := hs.step hreg (step_effect hu)
    have hregular : Regular B u .scheduler := trivial
    have hcv : Consistent B v := hcu.step hregular (step_effect hv)
    have hidle : u.state s.currentTask = .idle := by
      cases step_effect hu with
      | ended _ hk =>
        rw [hid]
        exact update_self ..
    have hidle' : v.state s.currentTask = .idle := by
      by_contra hlive
      rcases live_before hcu hcv (step_effect hv) ⟨hslot, hlive⟩ with hold | ⟨_, _, hcreate, -⟩
      · exact hold.2 hidle
      · cases hcreate
    cases step_effect hw with
    | switched hq =>
      refine Gone.ended ⟨hcv.switched hq, hslot, hidle', ?_⟩ rfl
      intro hnext
      have hlive : Live B v s.currentTask := hnext ▸ hcv.next
      exact hlive.2 hidle'
  · intro pid u fs v w x hpid hu hrun hw hx hended
    have hundead : Undead u s.currentTask := by
      cases step_effect hu with
      | killed _ _ =>
        refine ⟨rfl, h0, hs.selfKill, fun hn => ?_⟩
        have hnormal : s.normalSchedule = true := (hs.in_thread hth).2.2
        exact absurd (hn.symm.trans hnormal) (by decide)
    have hv : Undead v s.currentTask := by
      refine hrun.invariant (I := fun t => Undead t s.currentTask) ?_ hundead
      exact fun _ _ _ hi hg => hi.step hg.1 (step_effect hg.2)
    cases step_effect hx with
    | switched =>
      apply absurd hended.idle
      rcases hw with hw | hw
      · cases step_effect hw with
        | ticked _ _ hsch => exact hv.scheduled hsch
      · cases step_effect hw with
        | scheduled _ _ hsch => exact hv.scheduled hsch

section Instances

def fiveSlots : Build := Build.five

def spawn (p priority : ℕ) : List Event :=
  [.fillTask p ⟨0, 0, priority, 0, 0, 0, 0, 0⟩, .createTask p 0]

def boot : KernelState :=
  bootState fiveSlots (fun _ => 0) (fun _ => ⟨0, 0, 1, 0, 0, 0, 0, 0⟩) (fun _ => 0)

def trio : List Event :=
  spawn 10 1 ++ spawn 11 5 ++ spawn 12 1 ++ [.startScheduler, .scheduler, .contextSwitch] ++
    [.hibernate 2 100 101 1, .scheduler, .contextSwitch]

def lone : KernelState := after fiveSlots 20 (Regular fiveSlots) boot trio

def next (s : KernelState) (e : Event) : KernelState := (step fiveSlots 20 s e).getD s

def killed : KernelState := next lone (.killTask 0x30004)
def chosen : KernelState := next killed .tick
def resumed : KernelState := next chosen .contextSwitch

lemma lone_run : Run (Guarded fiveSlots (Regular fiveSlots)) boot trio lone :=
  run_after (by decide +kernel)

lemma next_step {s : KernelState} {e : Event} (h : (step fiveSlots 20 s e).isSome = true) :
    Step fiveSlots s e (next s e) := step_getD h

lemma resumed_steps : Step fiveSlots lone (.killTask 0x30004) killed ∧
    Step fiveSlots killed .tick chosen ∧ Step fiveSlots chosen .contextSwitch resumed :=
  ⟨next_step (by decide +kernel), next_step (by decide +kernel), next_step (by decide +kernel)⟩

theorem self_kill_resumed : ¬ Ended fiveSlots resumed lone.currentTask := by
  obtain ⟨hkill, htick, hswitch⟩ := resumed_steps
  have hs : InThread lone ∧ lone.currentTask ≠ 0 ∧ slotNumber 0x30004 = lone.currentTask := by
    decide +kernel
  exact (self_kill lone_run hs.1 hs.2.1).2 0x30004 killed [] killed chosen resumed hs.2.2 hkill .nil
    (Or.inl htick) hswitch

/-- The task that killed itself runs on in a slot without an object; a creation would find the slot
taken, and slot 1 is not on its ring. -/
theorem self_kill_fails : Run (Guarded fiveSlots (Regular fiveSlots)) boot trio lone ∧
    (InThread lone ∧ lone.currentTask = 3 ∧ lone.taskId 3 = 0x30004) ∧
    (Step fiveSlots lone (.killTask 0x30004) killed ∧ Step fiveSlots killed .tick chosen ∧
      Step fiveSlots chosen .contextSwitch resumed) ∧
    (resumed.currentTask = 3 ∧ resumed.state 3 = .active ∧ resumed.taskObj 3 = 0) ∧
    hop resumed 3 = 3 := by
  refine ⟨lone_run, by decide +kernel, resumed_steps, ?_⟩
  decide +kernel

def recycled : List Event := spawn 10 1 ++ [.killTask 0x10002] ++ spawn 11 1

def reused : KernelState := after fiveSlots 20 (Regular fiveSlots) boot recycled

lemma reused_run : Run (Guarded fiveSlots (Regular fiveSlots)) boot recycled reused :=
  run_after (by decide +kernel)

theorem kill_named_reused : KillsNamed fiveSlots reused 0x10003 0 := by
  have hs : Named fiveSlots reused 0x10003 (slotNumber 0x10003) ∧
      Removable fiveSlots reused (slotNumber 0x10003) := by decide +kernel
  exact (kill_named reused_run).mpr hs

/-- The id of the task that was killed before kills the one that took its slot, and the caller is
told that all went well. -/
theorem kill_named_fails : Run (Guarded fiveSlots (Regular fiveSlots)) boot recycled reused ∧
    (∀ i < 5, reused.taskId i ≠ 0x10002) ∧ reused.state 1 ≠ .idle ∧
      (kill fiveSlots reused 0x10002 0).any
        (fun r => decide (r.1 = errorNone ∧ r.2.2.state 1 = .idle)) = true := by
  refine ⟨reused_run, ?_⟩
  decide +kernel

end Instances

end Skibios.Tasks.Killing

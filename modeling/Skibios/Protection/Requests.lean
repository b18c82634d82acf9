import Skibios.Protection.Bystanders

/-! The kernel variables while a request is pending: base is above everybody else until it releases
the request. -/

namespace Skibios.Protection.Requests

open Function Library.Words Library.Loops Library.Rings
open Kernel State TaskServices Services Scheduler SchedulerLoops Events Effects
open Tasks Invariants Identity Promotion Rungs
open Sharing Waiters WakeUp
open Invocation Bystanders

variable {B : Build} {s t w : KernelState} {c : Selection} {k args : ℕ}

structure Resting (B : Build) (s : KernelState) : Prop where
  invocated : s.invocatedTask = 0
  prio : s.prioCurrent 0 = 0
  waiters : ∀ k < B.maxTaskCount, ¬ WaitsOn s B.baseMutex k

/-- The way of the processor from the caller in slot `k` to base. -/
inductive Stage (s : KernelState) (k : ℕ) : Prop
  | handedIn (pending : s.schedulerPending = true) (current : s.currentTask = k)
      (base : s.state 0 = .sleep)
  | picked (switch : s.switchPending = true) (current : s.currentTask = k) (next : s.nextTask = 0)
      (timer : s.timer = false)
  | served (thread : InThread s) (current : s.currentTask = 0) (timer : s.timer = false)

structure Asked (B : Build) (s : KernelState) (k args : ℕ) : Prop where
  caller : Live B s k ∧ k ≠ 0
  invocated : s.invocatedTask = s.taskId k
  arguments : s.invocatedArgs = args
  waiters : ∀ j < B.maxTaskCount, WaitsOn s B.baseMutex j ↔ j = k
  stashed : s.prioStashed 0 = 0
  carried : s.mutexStash 0 = B.baseMutex
  prio : s.prioCurrent 0 = s.maxLevel
  alone : ∀ j, Live B s j → s.prioCurrent j = s.maxLevel → j = 0
  counters : s.alc = 1 ∧ s.hlc = 0
  first : s.firstStart = true
  stage : Stage s k

lemma Resting.quiet (h : Resting B s) : Quiet B s := fun _ => ⟨h.prio, h.waiters⟩

lemma Resting.invoke (h : Resting B s) (hs : Consistent B s) (hth : InThread s) (hu : Upright s)
    (h0 : s.currentTask ≠ 0) (hf : s.firstStart = true) (hx : Exclusive B s) (args : ℕ) :
    Asked B (promoteSlot (invokeState s args) B.baseMutex 0) s.currentTask args := by
  obtain ⟨hcur, hlive, -⟩ := hs.in_thread hth
  have hstate : (promoteSlot (invokeState s args) B.baseMutex 0).state =
      update s.state s.currentTask .hold := rfl
  have hsleep : s.state 0 = .sleep := by
    apply hu.resolve_right
    intro hactive
    exact h0 (hcur.trans (hs.single 0 hs.base.1 hactive).symm)
  refine ⟨⟨⟨hlive.1, ?_⟩, h0⟩, rfl, rfl, ?_, h.prio, ?_, ?_, ?_, ?_, hf, ?_⟩
  · rw [hstate, update_self]
    decide
  · intro j hj
    have hop : (promoteSlot (invokeState s args) B.baseMutex 0).op1 =
        update s.op1 s.currentTask B.baseMutex := rfl
    rw [WaitsOn, hstate, hop]
    rcases eq_or_ne j s.currentTask with rfl | hne
    · rw [update_self, update_self]
      exact iff_of_true ⟨rfl, rfl⟩ rfl
    · rw [update_of_ne hne, update_of_ne hne]
      exact iff_of_false (h.waiters j hj) hne
  · exact update_self 0 _ s.mutexStash
  · exact update_self 0 _ s.prioCurrent
  · intro j hj hp
    by_contra hne
    change update s.prioCurrent 0 _ j = promotedLevel s at hp
    rw [update_of_ne hne] at hp
    have hidle : s.state j ≠ .idle := by
      intro hi
      have hj2 := hj.2
      rw [hstate] at hj2
      exact hj2 ((update_idle_iff hlive.2 (by decide) j).mpr hi)
    exact hx.1 j hj.1 hidle hp
  · change (if s.maxpLevel = 127 then 1 else s.alc) = 1 ∧ (if s.maxpLevel = 127 then 0 else s.hlc) = 0
    split_ifs with hp
    · exact ⟨rfl, rfl⟩
    · exact hx.2.resolve_left hp
  · apply Stage.handedIn rfl rfl
    rw [hstate, update_of_ne h0.symm]
    exact hsleep

namespace Asked

lemma slotOf_caller (h : Asked B s k args) (hk : Kept B s) : slotOf B s (s.taskId k) = k := by
  have hle : slotOf B s (s.taskId k) ≤ k := firstIndex_le_of (by simp)
  have hlt := hle.trans_lt h.caller.1.1
  have hid := Permissions.slotOf_spec hlt
  have hlive : Live B s (slotOf B s (s.taskId k)) := by
    refine ⟨hlt, (hk.consistent.ids _ hlt).mp ?_⟩
    rw [hid]
    exact (hk.consistent.ids k h.caller.1.1).mpr h.caller.1.2
  rw [← hk.numbered _ hlive, hid, hk.numbered k h.caller.1]

section Pick

variable (h : Asked B s k args) (hs : Consistent B s) (hsleep : s.state 0 = .sleep)
variable (hcur : s.currentTask = k) (hq : s.switchPending = false)
include h hs hsleep hcur hq

lemma pick (hsch : Scheduled B s w c) : c.next = 0 := by
  have hnext := hs.current hq (hcur ▸ h.caller.1)
  have hr := hs.ringFrom hs.next
  have hready : Ready B s 0 := by
    refine ⟨(hs.live_enter hq).mpr hs.base, Or.inl ?_⟩
    dsimp only [enterScheduler]
    split
    · rw [hcur, update_of_ne h.caller.2.symm]
      exact hsleep
    · exact hsleep
  obtain ⟨i, hi, hplace⟩ : ∃ i < minimalPeriod (hop s) s.nextTask, place s i = 0 := hr.index hs.base
  have hpos : 0 < i := by
    rcases Nat.eq_zero_or_pos i with rfl | hpos
    · exact (h.caller.2 (hcur.symm.trans (hnext.trans hplace))).elim
    · exact hpos
  have hround : ∀ j ≤ i, rounds s j = 0 := fun j hj => Nat.div_eq_of_lt (hj.trans_lt hi)
  have hat : ∀ j ≤ i, levelAt s (rounds s j) = s.maxLevel := by
    intro j hj
    rw [hround j hj]
    rfl
  obtain ⟨m, hm, hexit⟩ : ∃ m ≤ i, Exit (Underflows B s (rounds s)) (Suits B s (rounds s)) m := by
    apply Exit.of_hit hpos
    · rw [Suits, hat i le_rfl]
      rw [hplace]
      exact ⟨hready, h.prio⟩
    · rintro j hj hji ⟨hmet, -⟩
      have hdvd := (place_eq_current_iff hnext j).mp hmet
      exact absurd (Nat.le_of_dvd hj hdvd) (by omega)
  have hlaps := laps_rounds hnext
  have hring : RingFrom (hop s) (Live B (enterScheduler s)) s.nextTask :=
    ⟨hr.periodic, fun j => (hs.live_enter hq).trans (hr.visits j)⟩
  obtain ⟨n, hn, hpick⟩ := (picks_iff hring hs.dws hlaps c.next).mp
    ⟨leaveScheduler w c, scheduler_iff.mpr ⟨w, c, hsch, rfl⟩, rfl⟩
  rw [hpick, hn.unique hexit]
  obtain ⟨hmready, hmprio⟩ := hexit.here
  rw [hat m hm] at hmprio
  exact h.alone _ ((hs.live_enter hq).mp hmready.1) hmprio

lemma wakes (hsch : Scheduled B s w c) : w.alc = 1 ∧ w.hlc = 0 := by
  obtain ⟨n, hn⟩ := hsch.woken
  have hinv : Wakes (enterScheduler s) w ∧ w.alc = 1 ∧ w.hlc = 0 := by
    refine wake_pass_invariant (I := fun t => Wakes (enterScheduler s) t ∧ t.alc = 1 ∧ t.hlc = 0)
      ?_ ⟨.refl _, h.counters⟩ hn
    rintro t j hj ⟨hw, ha, hc⟩
    refine ⟨hw.wakeSlot j, ?_⟩
    have hoff : ¬ (WakeCondition t j ∧ t.prioCurrent j = t.maxLevel) := by
      rintro ⟨hwake, hp⟩
      have hcond := hw.condition hwake
      obtain ⟨⟨st, a, b, hframe⟩, -⟩ := hw
      rw [hframe] at hp
      have hlive : Live B s j := (hs.live_enter hq).mp ⟨hj, WakeCondition.ne_idle hcond⟩
      obtain rfl := h.alone j hlive hp
      apply WakeCondition.ne_sleep hcond
      dsimp only [enterScheduler]
      split
      · rw [hcur, update_of_ne h.caller.2.symm]
        exact hsleep
      · exact hsleep
    rw [wakeSlot]
    dsimp only
    rw [if_neg hoff, if_neg hoff]
    exact ⟨ha, hc⟩
  exact hinv.2

lemma scheduled (hsch : Scheduled B s w c) : Asked B (leaveScheduler w c) k args := by
  have hpick := h.pick hs hsleep hcur hq hsch
  have hcounters := h.wakes hs hsleep hcur hq hsch
  have hlevel := hsch.chosen.level
  have hsame := scheduled_waiters hs hq hsch
  have hlive : ∀ j, Live B (leaveScheduler w c) j ↔ Live B s j := by
    intro j
    refine and_congr_right fun hj => not_congr ?_
    exact scheduled_idle_iff hs hq hsch hj
  obtain ⟨⟨st, a, b, hframe⟩, -⟩ := hsch.wakes
  have hmax : (leaveScheduler w c).maxLevel = s.maxLevel := by
    rw [hframe]
    rfl
  have hprio : (leaveScheduler w c).prioCurrent = s.prioCurrent := by
    rw [hframe]
    rfl
  refine ⟨⟨(hlive k).mpr h.caller.1, h.caller.2⟩, ?_, ?_, ?_, ?_, ?_, ?_, ?_, hcounters, ?_, ?_⟩
  · rw [hframe]
    exact h.invocated
  · rw [hframe]
    exact h.arguments
  · exact fun j hj => (hsame.waitsOn hj).trans (h.waiters j hj)
  · rw [hframe]
    exact h.stashed
  · rw [hsame.mutexes]
    exact h.carried
  · rw [hprio, hmax]
    exact h.prio
  · intro j hj hp
    rw [hprio, hmax] at hp
    exact h.alone j ((hlive j).mp hj) hp
  · rw [hframe]
    exact h.first
  · refine .picked rfl ?_ hpick ?_
    · rw [hframe]
      exact hcur
    · have htop : c.level = w.maxLevel := by
        rw [← hlevel, hpick, hframe]
        exact h.prio
      dsimp only [leaveScheduler]
      rw [hcounters.1, hcounters.2, htop]
      simp

end Pick

lemma switched (h : Asked B s k args) (hs : Consistent B s) (hq : s.switchPending = true) :
    Asked B (contextSwitch s) k args := by
  have hpending : s.schedulerPending = false := by
    cases hp : s.schedulerPending with
    | false => rfl
    | true =>
      rw [hs.apart hp] at hq
      cases hq
  refine ⟨h.caller, h.invocated, h.arguments, h.waiters, h.stashed, h.carried, h.prio, h.alone,
    h.counters, h.first, ?_⟩
  cases h.stage with
  | handedIn hp =>
    rw [hpending] at hp
    cases hp
  | picked _ _ hnext htimer => exact .served ⟨hpending, rfl⟩ hnext htimer
  | served hth =>
    rw [hth.2] at hq
    cases hq

lemma granted (h : Asked B s k args) (i permission : ℕ) : Asked B (grantState s i permission) k args := by
  refine ⟨h.caller, h.invocated, h.arguments, h.waiters, h.stashed, h.carried, h.prio, h.alone,
    h.counters, h.first, ?_⟩
  cases h.stage with
  | handedIn hp hcur hbase => exact .handedIn hp hcur hbase
  | picked hq hcur hnext htimer => exact .picked hq hcur hnext htimer
  | served hth hcur htimer => exact .served hth hcur htimer

lemma serving (h : Asked B s k args) (hth : InThread s) : s.currentTask = 0 ∧ s.timer = false := by
  cases h.stage with
  | handedIn hp =>
    rw [hth.1] at hp
    cases hp
  | picked hq =>
    rw [hth.2] at hq
    cases hq
  | served _ hcur htimer => exact ⟨hcur, htimer⟩

lemma release (h : Asked B s k args) (hs : Consistent B s) (hth : InThread s) (i error : ℕ) :
    Resting B (handOverState (demoteCurrent B (answerState s i error))) := by
  have h0 := (h.serving hth).1
  have hanswer : Consistent B (answerState s i error) :=
    hs.keep rfl rfl rfl rfl rfl rfl rfl rfl rfl rfl rfl rfl rfl
  refine ⟨?_, ?_, ?_⟩
  · dsimp only [handOverState, demoteCurrent, answerState]
  · dsimp only [handOverState, demoteCurrent, answerState]
    rw [h0, update_self]
    exact h.stashed
  · intro j hj hw
    have hcur := current_not_hold (hanswer.demote hth) hth
    have hsame : SameWaiters B (demoteCurrent B (answerState s i error)) _ := handOver_waiters hcur
    obtain ⟨hwaits, hne⟩ := demote_waitsOn hj ((hsame.waitsOn hj).mp hw)
    obtain rfl := (h.waiters j hj).mp hwaits
    -- the caller is the only waiter, so it is the one that wakes
    have hfound : waiter B (answerState s i error) B.baseMutex ≤ j := by
      apply firstIndex_le_of
      exact decide_eq_true hwaits
    have hlt := hfound.trans_lt hj
    have hfirst := (h.waiters _ hlt).mp (Consistent.waiter_hold hlt)
    apply hne
    change j = waiter B (answerState s i error) (s.mutexStash s.currentTask)
    rw [h0, h.carried]
    exact hfirst.symm

end Asked

end Skibios.Protection.Requests

import Skibios.Promotion.Rungs

/-! Tasks in HOLD and the `mutex_stash` entries that are to wake them. -/

namespace Skibios.Sharing.Waiters

open Function Library.Words Library.Loops Library.Counting Library.Runs
open Kernel State TaskServices Services Scheduler SchedulerLoops Events Effects
open Tasks Invariants Promotion Rungs

variable {B : Build} {s t : KernelState} {e : Event} {i k m : ℕ}

def WaitsOn (s : KernelState) (m k : ℕ) : Prop := s.state k = .hold ∧ s.op1 k = m

def Carries (s : KernelState) (m k : ℕ) : Prop := s.mutexStash k = m ∧ m ≠ 0

instance (s : KernelState) (m : ℕ) : DecidablePred (WaitsOn s m) :=
  fun _ => inferInstanceAs (Decidable (_ ∧ _))

instance (s : KernelState) (m : ℕ) : DecidablePred (Carries s m) :=
  fun _ => inferInstanceAs (Decidable (_ ∧ _))

/-- Every waiter has a `mutex_stash` entry of its own. -/
def Balanced (B : Build) (s : KernelState) : Prop :=
  ∀ m, count B.maxTaskCount (WaitsOn s m) ≤ count B.maxTaskCount (Carries s m)

lemma Balanced.carrier (h : Balanced B s) (hk : k < B.maxTaskCount) (hw : WaitsOn s m k) :
    ∃ j < B.maxTaskCount, Carries s m j := by
  rw [← count_pos_iff]
  exact (count_pos_iff.mpr ⟨k, hk, hw⟩).trans_le (h m)

structure SameWaiters (B : Build) (s t : KernelState) : Prop where
  mutexes : t.mutexStash = s.mutexStash
  holds : ∀ k < B.maxTaskCount, t.state k = .hold ↔ s.state k = .hold
  words : ∀ k < B.maxTaskCount, s.state k = .hold → t.op1 k = s.op1 k

lemma SameWaiters.waitsOn (h : SameWaiters B s t) (hk : k < B.maxTaskCount) :
    WaitsOn t m k ↔ WaitsOn s m k := by
  rw [WaitsOn, WaitsOn, h.holds k hk]
  exact and_congr_right fun hs => by rw [h.words k hk hs]

lemma Balanced.keep (hb : Balanced B s) (h : SameWaiters B s t) : Balanced B t := by
  intro m
  rw [count_congr (q := WaitsOn s m) fun k hk => h.waitsOn hk]
  refine (hb m).trans (le_of_eq (count_congr fun k _ => ?_))
  rw [Carries, Carries, h.mutexes]

lemma update_hold_iff {st : ℕ → TaskState} {v : TaskState} (hi : st i ≠ .hold) (hv : v ≠ .hold)
    (k : ℕ) : update st i v k = .hold ↔ st k = .hold := by
  rcases eq_or_ne k i with rfl | hk
  · simp [hi, hv]
  · rw [update_of_ne hk]

lemma current_not_hold (hs : Consistent B s) (hth : InThread s) : s.state s.currentTask ≠ .hold := by
  rcases hs.awake hth with hst | hst <;> rw [hst] <;> decide

lemma handOver_waiters (hc : s.state s.currentTask ≠ .hold) : SameWaiters B s (handOverState s) := by
  refine ⟨rfl, fun k _ => ?_, fun _ _ _ => rfl⟩
  dsimp only [handOverState]
  split
  · exact Iff.rfl
  · exact update_hold_iff hc (by decide) k

lemma scheduled_waiters (hs : Consistent B s) (hq : s.switchPending = false) {w : KernelState}
    {c : Selection} (h : Scheduled B s w c) : SameWaiters B s (leaveScheduler w c) := by
  have henter : ∀ k, (enterScheduler s).state k = .hold ↔ s.state k = .hold := by
    intro k
    cases hn : s.normalSchedule with
    | false => simp [enterScheduler, hn]
    | true =>
      have hth : InThread s := ⟨by simpa [hn] using hs.flags, hq⟩
      simp only [enterScheduler, hn, if_true]
      exact update_hold_iff (current_not_hold hs hth) (by decide) k
  have hwake : ∀ k, w.state k = .hold ↔ (enterScheduler s).state k = .hold := by
    intro k
    rcases h.wakes.slot k with hk | ⟨hc, hk⟩
    · rw [hk]
    · rw [hk]
      rcases hc with ⟨hc, -⟩ | ⟨hc, -⟩ <;> simp [hc]
  have hpick : ∀ k, (leaveScheduler w c).state k = .hold ↔ w.state k = .hold :=
    update_hold_iff (by rw [h.chosen.sleeping]; decide) (by decide)
  obtain ⟨⟨st, a, b, hframe⟩, -⟩ := h.wakes
  refine ⟨by rw [hframe]; rfl, fun k _ => (hpick k).trans ((hwake k).trans (henter k)), fun k _ _ => ?_⟩
  rw [hframe]
  rfl

def Plain : Event → Prop
  | .killTask _ | .endTask | .promote _ | .unlockTest _ | .invokeBase _ | .releaseBase _ => False
  | _ => True

lemma effect_waiters (hs : Consistent B s) (hreg : Regular B s e) (hp : Plain e)
    (he : Effect B s e t) : SameWaiters B s t := by
  cases he with
  | @created p arg ptr stash hth hc =>
    have hstate : (fillSlot B s p arg ptr stash).state = update s.state (idleSlot B s) .sleep :=
      Table.newState_eq hreg.2
    refine ⟨rfl, fun k _ => ?_, fun _ _ _ => rfl⟩
    rw [hstate]
    apply update_hold_iff
    · rw [Table.idleSlot_idle hc.slot]
      decide
    · decide
  | started hth =>
    have h0 : s.currentTask = 0 := hreg
    have hc := current_not_hold hs hth
    rw [h0] at hc
    have hsame : SameWaiters B (startState B { s with currentTask := 0 }) _ := handOver_waiters hc
    exact ⟨hsame.mutexes, hsame.holds, hsame.words⟩
  | hibernated hth =>
    have hc := current_not_hold hs hth
    refine ⟨rfl, fun k _ => ?_, fun k _ hk => ?_⟩
    · apply update_hold_iff hc
      split <;> decide
    · apply update_of_ne
      rintro rfl
      exact hc hk
  | handedOver hth => exact handOver_waiters (current_not_hold hs hth)
  | ticked hth _ h => exact scheduled_waiters hs hth.2 h
  | scheduled _ hq h => exact scheduled_waiters hs hq h
  | killed | ended | invokeRefused | invoked | releaseRefused | released | promoted | kept
  | demoted => exact hp.elim
  | _ => exact ⟨rfl, fun _ _ => Iff.rfl, fun _ _ _ => rfl⟩

lemma Balanced.promote (hb : Balanced B s) (hs : Consistent B s) (hth : InThread s)
    (hi : i < B.maxTaskCount) (hnone : s.mutexStash i = 0) (hm : m ≠ 0) :
    Balanced B (promoteSlot s m i) := by
  have hcur := current_not_hold hs hth
  have hc := (hs.in_thread hth).2.1.1
  have hself : WaitsOn (promoteSlot s m i) m s.currentTask := by
    refine ⟨?_, ?_⟩ <;> dsimp only [promoteSlot] <;> rw [update_self]
  have hwait : ∀ n k, k ≠ s.currentTask → (WaitsOn (promoteSlot s m i) n k ↔ WaitsOn s n k) := by
    intro n k hk
    rw [WaitsOn, WaitsOn]
    dsimp only [promoteSlot]
    rw [update_of_ne hk, update_of_ne hk]
  have hcarry : ∀ n k, k ≠ i → (Carries (promoteSlot s m i) n k ↔ Carries s n k) := by
    intro n k hk
    rw [Carries, Carries]
    dsimp only [promoteSlot]
    rw [update_of_ne hk]
  have hentry : (promoteSlot s m i).mutexStash i = m := update_self ..
  intro n
  by_cases hn : n = m
  · rw [hn, count_insert (p := WaitsOn s m) hc (fun h => hcur h.1) hself fun k _ hk =>
        (hwait m k hk).symm,
      count_insert (p := Carries s m) hi (fun h => hm (h.1.symm.trans hnone)) ⟨hentry, hm⟩
        fun k _ hk => (hcarry m k hk).symm]
    exact Nat.succ_le_succ (hb m)
  · have hless : count B.maxTaskCount (WaitsOn (promoteSlot s m i) n) ≤
        count B.maxTaskCount (WaitsOn s n) := by
      apply count_mono
      intro k _ hk
      rcases eq_or_ne k s.currentTask with rfl | hne
      · exact (hn (hk.2.symm.trans hself.2)).elim
      · exact (hwait n k hne).mp hk
    have hmore : count B.maxTaskCount (Carries s n) ≤
        count B.maxTaskCount (Carries (promoteSlot s m i) n) := by
      apply count_mono
      intro k _ hk
      rcases eq_or_ne k i with rfl | hne
      · exact (hk.2 (hk.1.symm.trans hnone)).elim
      · exact (hcarry n k hne).mpr hk
    exact hless.trans ((hb n).trans hmore)

lemma demote_waitsOn (hk : k < B.maxTaskCount) (h : WaitsOn (demoteCurrent B s) m k) :
    WaitsOn s m k ∧ k ≠ waiter B s (s.mutexStash s.currentTask) := by
  rw [WaitsOn] at h ⊢
  dsimp only [demoteCurrent] at h
  split at h
  · have hne : k ≠ waiter B s (s.mutexStash s.currentTask) := by
      rintro rfl
      rw [update_self] at h
      cases h.1
    rw [update_of_ne hne] at h
    exact ⟨h, hne⟩
  · rename_i hnone
    refine ⟨h, ?_⟩
    rintro rfl
    exact hnone hk

lemma Balanced.demote (hb : Balanced B s) (hc : s.currentTask < B.maxTaskCount)
    (hp : Promoted s s.currentTask) : Balanced B (demoteCurrent B s) := by
  have hcarry : ∀ n k, k ≠ s.currentTask → (Carries (demoteCurrent B s) n k ↔ Carries s n k) := by
    intro n k hk
    rw [Carries, Carries]
    dsimp only [demoteCurrent]
    rw [update_of_ne hk]
  have hzero : (demoteCurrent B s).mutexStash s.currentTask = 0 := update_self ..
  have hless : ∀ n, ∀ k < B.maxTaskCount, WaitsOn (demoteCurrent B s) n k → WaitsOn s n k :=
    fun _ _ hk hw => (demote_waitsOn hk hw).1
  intro n
  by_cases hn : n = s.mutexStash s.currentTask
  · rw [hn]
    have hone := count_insert (n := B.maxTaskCount)
      (p := Carries (demoteCurrent B s) (s.mutexStash s.currentTask))
      (q := Carries s (s.mutexStash s.currentTask)) hc (fun h => hp (h.1.symm.trans hzero)) ⟨rfl, hp⟩
      fun k _ hk => hcarry _ k hk
    by_cases hw : waiter B s (s.mutexStash s.currentTask) < B.maxTaskCount
    · have hwaits := Consistent.waiter_hold hw
      have hdrop := count_insert (n := B.maxTaskCount)
        (p := WaitsOn (demoteCurrent B s) (s.mutexStash s.currentTask))
        (q := WaitsOn s (s.mutexStash s.currentTask)) hw ?_ hwaits ?_
      · have hle := hb (s.mutexStash s.currentTask)
        omega
      · rintro ⟨hk, -⟩
        dsimp only [demoteCurrent] at hk
        rw [if_pos hw, update_self] at hk
        cases hk
      · intro k _ hne
        rw [WaitsOn, WaitsOn]
        dsimp only [demoteCurrent]
        rw [if_pos hw, update_of_ne hne]
    · have hnone : count B.maxTaskCount (WaitsOn (demoteCurrent B s) (s.mutexStash s.currentTask)) = 0 := by
        rw [count_eq_zero_iff]
        intro k hk hwk
        refine hw ((firstIndex_le_of (n := B.maxTaskCount) ?_).trans_lt hk)
        have hold : s.state k = .hold ∧ s.op1 k = s.mutexStash s.currentTask := hless _ k hk hwk
        simpa using hold
      omega
  · have hmore : count B.maxTaskCount (Carries s n) ≤
        count B.maxTaskCount (Carries (demoteCurrent B s) n) := by
      apply count_mono
      intro k _ hk
      rcases eq_or_ne k s.currentTask with rfl | hne
      · exact (hn hk.1.symm).elim
      · exact (hcarry n k hne).mpr hk
    exact (count_mono (hless n)).trans ((hb n).trans hmore)

end Skibios.Sharing.Waiters

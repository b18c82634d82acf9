import Skibios.Kernel.SchedulerLoops
import Skibios.Library.Rounds
import Skibios.Library.Counting

/-! The ticks among the ready tasks of the top level. -/

namespace Skibios.Scheduling.RoundRobin

open Function Library.Words Library.Loops Library.Rings Library.Counting Library.Runs Library.Rounds
open Kernel State Scheduler SchedulerLoops

variable {B : Build} {s t u w : KernelState} {k m : ℕ} {ks : List ℕ}

/-- A task of the top level that is not asleep for long. -/
def Member (B : Build) (s : KernelState) (k : ℕ) : Prop :=
  k < B.maxTaskCount ∧ s.prioCurrent k = s.maxLevel ∧ (s.state k = .sleep ∨ s.state k = .active)

instance (B : Build) (s : KernelState) : DecidablePred (Member B s) :=
  fun _ => inferInstanceAs (Decidable (_ ∧ _ ∧ _))

/-- The members in ring order from the running task on, which comes last. -/
noncomputable def order (B : Build) (s : KernelState) : List ℕ :=
  (lap (hop s) s.nextTask).filter (Member B s)

structure Rotating (B : Build) (s : KernelState) : Prop where
  ring : RingFrom (hop s) (Live B s) s.nextTask
  current : s.currentTask = s.nextTask
  active : s.state s.currentTask = .active
  normal : s.normalSchedule = true
  top : s.prioCurrent s.currentTask = s.maxLevel
  alone : ∀ k, Member B s k → s.state k = .active → k = s.currentTask
  company : 2 ≤ count B.maxTaskCount (Member B s)

/-- Nobody of the top level is due to wake. -/
def Steady (B : Build) (s : KernelState) : Prop :=
  ∀ k < B.maxTaskCount, s.prioCurrent k = s.maxLevel → ¬ WakeCondition s k

instance (B : Build) (s : KernelState) : Decidable (Steady B s) :=
  inferInstanceAs (Decidable (∀ k < B.maxTaskCount, _ → _))

def Tick (B : Build) (s t : KernelState) : Prop := ∃ n u, scheduler B n s = some u ∧ t = contextSwitch u

lemma Member.live (h : Member B s k) : Live B s k := by
  refine ⟨h.1, fun hidle => ?_⟩
  rcases h.2.2 with hst | hst <;> rw [hidle] at hst <;> cases hst

lemma select_until (hm : 0 < m) (hin : ∀ j, place w j < B.maxTaskCount)
    (hunmet : ∀ j, 0 < j → j ≤ m → place w j ≠ w.currentTask)
    (hhere : w.state (place w m) = .sleep ∧ w.prioCurrent (place w m) = w.maxLevel)
    (hfirst : ∀ j, 0 < j → j < m →
      ¬ (w.state (place w j) = .sleep ∧ w.prioCurrent (place w j) = w.maxLevel)) (p : ℕ) :
    runLoop (selectTurn B w) m ⟨w.nextTask, w.maxLevel, p⟩ = some ⟨place w m, w.maxLevel, p⟩ := by
  have hturn : ∀ j, j + 1 ≤ m → selectTurn B w ⟨place w j, w.maxLevel, p⟩ =
      if w.state (place w (j + 1)) = .sleep ∧ w.prioCurrent (place w (j + 1)) = w.maxLevel then
        .leave ⟨place w (j + 1), w.maxLevel, p⟩
      else .again ⟨place w (j + 1), w.maxLevel, p⟩ := by
    intro j hj
    have hhop : hop w (place w j) = place w (j + 1) := (iterate_succ_apply' _ _ _).symm
    have hne : ¬ (w.currentTask = place w (j + 1) ∧ w.enableDws = true) :=
      fun hc => hunmet (j + 1) (Nat.succ_pos j) hj hc.1.symm
    simp only [selectTurn, hhop, hne, if_false, false_and, false_or, not_le.mpr (hin j),
      not_le.mpr (hin (j + 1))]
  refine runLoop_walk (c := fun j => (⟨place w j, w.maxLevel, p⟩ : Selection)) hm (fun j hj => ?_) fun j hj => ?_
  · rw [hturn j hj.le, if_neg (hfirst (j + 1) (Nat.succ_pos j) hj)]
  · subst hj
    rw [hturn j le_rfl, if_pos hhere]

lemma enter_state (hn : s.normalSchedule = true) :
    (enterScheduler s).state = update s.state s.currentTask .sleep := if_pos hn

lemma wakes_before (hn : s.normalSchedule = true) (h : WakeCondition (enterScheduler s) k) :
    WakeCondition s k := by
  have hne : k ≠ s.currentTask := by
    rintro rfl
    apply WakeCondition.ne_sleep h
    rw [enter_state hn, update_self]
  have hstate : (enterScheduler s).state k = s.state k := by rw [enter_state hn, update_of_ne hne]
  rw [WakeCondition, hstate] at h
  exact h

lemma woken_state (hn : s.normalSchedule = true) (hs : Steady B s) (hw : Woken B (enterScheduler s) w)
    (hk : k < B.maxTaskCount) (hp : s.prioCurrent k = s.maxLevel) :
    w.state k = update s.state s.currentTask .sleep k := by
  rcases hw.slot k with hst | ⟨hwake, -⟩
  · rw [hst, enter_state hn]
  · exact absurd (wakes_before hn hwake) (hs k hk hp)

namespace Rotating

lemma live_current (h : Rotating B s) : Live B s s.currentTask := h.current ▸ h.ring.start

lemma member_current (h : Rotating B s) : Member B s s.currentTask :=
  ⟨h.live_current.1, h.top, Or.inr h.active⟩

lemma exists_next (h : Rotating B s) : ∃ m, 0 < m ∧ m < minimalPeriod (hop s) s.nextTask ∧
    Member B s (place s m) ∧ ∀ j, 0 < j → j < m → ¬ Member B s (place s j) := by
  classical
  obtain ⟨k, hk, hne⟩ : ∃ k, Member B s k ∧ k ≠ s.currentTask := by
    by_contra hnone
    have hone : count B.maxTaskCount (Member B s) ≤ count B.maxTaskCount (· = s.currentTask) := by
      refine count_mono fun k _ hk => ?_
      by_contra hne
      exact hnone ⟨k, hk, hne⟩
    have hle : count B.maxTaskCount (· = s.currentTask) ≤ 1 := by
      refine Finset.card_le_one.mpr fun i hi j hj => ?_
      rw [(Finset.mem_filter.mp hi).2, (Finset.mem_filter.mp hj).2]
    have := h.company
    omega
  obtain ⟨i, hi, hik⟩ := h.ring.index hk.live
  have hpos : 0 < i := by
    rcases Nat.eq_zero_or_pos i with rfl | hpos
    · exact absurd (hik.symm.trans h.current.symm) hne
    · exact hpos
  have hex : ∃ j, 0 < j ∧ Member B s (place s j) := ⟨i, hpos, by rwa [place, hik]⟩
  obtain ⟨hm, hmem⟩ := Nat.find_spec hex
  have hle : Nat.find hex ≤ i := Nat.find_min' hex ⟨hpos, by rwa [place, hik]⟩
  exact ⟨Nat.find hex, hm, hle.trans_lt hi, hmem, fun j hj hlt hjm => Nat.find_min hex hlt ⟨hj, hjm⟩⟩

end Rotating

structure Passed (s w : KernelState) : Prop where
  hops : hop w = hop s
  next : w.nextTask = s.nextTask
  current : w.currentTask = s.currentTask
  prio : w.prioCurrent = s.prioCurrent
  level : w.maxLevel = s.maxLevel
  normal : w.normalSchedule = true

lemma Wakes.passed (hw : Wakes (enterScheduler s) w) : Passed s w := by
  obtain ⟨⟨st, a, c, rfl⟩, -⟩ := hw
  exact ⟨rfl, rfl, rfl, rfl, rfl, rfl⟩

lemma Passed.place (h : Passed s w) : place w = place s := by
  funext j
  rw [SchedulerLoops.place, h.hops, h.next, SchedulerLoops.place]

lemma tick_iff {c : Selection} (h : ∀ v d, Scheduled B s v d ↔ v = w ∧ d = c) :
    Tick B s t ↔ t = contextSwitch (leaveScheduler w c) := by
  constructor
  · rintro ⟨n, u, hu, rfl⟩
    obtain ⟨v, d, hv, rfl⟩ := scheduler_iff.mp ⟨n, hu⟩
    obtain ⟨rfl, rfl⟩ := (h v d).mp hv
    rfl
  · rintro rfl
    obtain ⟨n, hn⟩ := scheduler_iff.mpr ⟨w, c, (h w c).mpr ⟨rfl, rfl⟩, rfl⟩
    exact ⟨n, _, hn, rfl⟩

/-- What one tick does: the task at position `m` runs, the running task sleeps, and the members and
their ring are as before. -/
structure Turns (B : Build) (s t : KernelState) (m : ℕ) : Prop where
  next : t.nextTask = place s m
  current : t.currentTask = place s m
  normal : t.normalSchedule = true
  hops : hop t = hop s
  live : ∀ k, Live B t k ↔ Live B s k
  prio : t.prioCurrent = s.prioCurrent
  level : t.maxLevel = s.maxLevel
  chosen : t.state (place s m) = .active
  others : ∀ k < B.maxTaskCount, s.prioCurrent k = s.maxLevel → k ≠ place s m →
    t.state k = update s.state s.currentTask .sleep k

namespace Rotating

lemma place_ne_current (h : Rotating B s) {j : ℕ} (hj : 0 < j)
    (hlt : j < minimalPeriod (hop s) s.nextTask) : place s j ≠ s.currentTask := by
  rw [Ne, place_eq_current_iff h.current]
  exact Nat.not_dvd_of_pos_of_lt hj hlt

lemma live_enter (h : Rotating B s) : Live B (enterScheduler s) k ↔ Live B s k :=
  SchedulerLoops.live_enter fun _ => h.live_current

lemma sleeper_iff (h : Rotating B s) (hs : Steady B s) (hw : Woken B (enterScheduler s) w) {j : ℕ}
    (hj : 0 < j) (hlt : j < minimalPeriod (hop s) s.nextTask) :
    (w.state (place s j) = .sleep ∧ s.prioCurrent (place s j) = s.maxLevel) ↔
      Member B s (place s j) := by
  have hne := h.place_ne_current hj hlt
  have hin : place s j < B.maxTaskCount := (h.ring.position j).1
  constructor
  · rintro ⟨hst, hp⟩
    rw [woken_state h.normal hs hw hin hp, update_of_ne hne] at hst
    exact ⟨hin, hp, Or.inl hst⟩
  · intro hmem
    refine ⟨?_, hmem.2.1⟩
    rw [woken_state h.normal hs hw hin hmem.2.1, update_of_ne hne]
    exact hmem.2.2.resolve_right fun hact => hne (h.alone _ hmem hact)

lemma scheduled_iff (h : Rotating B s) (hs : Steady B s) (hm : 0 < m)
    (hlt : m < minimalPeriod (hop s) s.nextTask) (hmem : Member B s (place s m))
    (hfirst : ∀ j, 0 < j → j < m → ¬ Member B s (place s j)) :
    ∃ w p, Woken B (enterScheduler s) w ∧
      ∀ v d, Scheduled B s v d ↔ v = w ∧ d = ⟨place s m, s.maxLevel, p⟩ := by
  have hring : RingFrom (hop s) (Live B (enterScheduler s)) s.nextTask :=
    ⟨h.ring.periodic, fun k => h.live_enter.trans (h.ring.visits k)⟩
  obtain ⟨w, hw, hsched⟩ := scheduled_on_ring hring
  have hpass := Wakes.passed hw.toWakes
  refine ⟨w, uint8 (w.lstashPtr + 255), hw, fun v d => (hsched v d).trans ?_⟩
  have hselect := select_until (B := B) (w := w) (p := uint8 (w.lstashPtr + 255)) hm
  rw [hpass.place, hpass.prio, hpass.level, hpass.current] at hselect
  have hreach := hselect (fun j => (h.ring.position j).1)
    (fun j hj hjm => h.place_ne_current hj (hjm.trans_lt hlt)) ((h.sleeper_iff hs hw hm hlt).mpr hmem)
    (fun j hj hjm => (h.sleeper_iff hs hw hj (hjm.trans hlt)).not.mpr (hfirst j hj hjm))
  rw [hpass.level]
  refine and_congr_right fun _ => ⟨?_, ?_⟩
  · rintro ⟨n, hn⟩
    exact runLoop_unique hn hreach
  · rintro rfl
    exact ⟨m, hreach⟩

lemma tick_turns (h : Rotating B s) (hs : Steady B s) (hm : 0 < m)
    (hlt : m < minimalPeriod (hop s) s.nextTask) (hmem : Member B s (place s m))
    (hfirst : ∀ j, 0 < j → j < m → ¬ Member B s (place s j)) :
    ∃ t, (∀ u, Tick B s u ↔ u = t) ∧ Turns B s t m := by
  obtain ⟨w, p, hw, hsched⟩ := h.scheduled_iff hs hm hlt hmem hfirst
  have hpass := Wakes.passed hw.toWakes
  let c : Selection := ⟨place s m, s.maxLevel, p⟩
  refine ⟨contextSwitch (leaveScheduler w c), fun u => tick_iff hsched, ?_⟩
  have hstate : (contextSwitch (leaveScheduler w c)).state = update w.state (place s m) .active := rfl
  refine ⟨rfl, rfl, hpass.normal, hpass.hops, fun k => ?_, hpass.prio, hpass.level, ?_, ?_⟩
  · rw [← h.live_enter, ← hw.live]
    refine and_congr_right fun _ => ?_
    rw [hstate]
    rcases eq_or_ne k (place s m) with rfl | hne
    · rw [update_self]
      refine iff_of_true nofun ?_
      exact (hw.live.mpr (h.live_enter.mpr hmem.live)).2
    · rw [update_of_ne hne]
  · rw [hstate, update_self]
  · intro k hk hp hne
    rw [hstate, update_of_ne hne, woken_state h.normal hs hw hk hp]

end Rotating

namespace Turns

lemma member_iff (ht : Turns B s t m) (h : Rotating B s) (hmem : Member B s (place s m)) :
    Member B t k ↔ Member B s k := by
  rw [Member, Member, ht.prio, ht.level]
  refine and_congr_right fun hk => and_congr_right fun hp => ?_
  rcases eq_or_ne k (place s m) with rfl | hne
  · exact iff_of_true (Or.inr ht.chosen) hmem.2.2
  · rw [ht.others k hk hp hne]
    rcases eq_or_ne k s.currentTask with rfl | hcur
    · rw [update_self]
      exact iff_of_true (Or.inl rfl) (Or.inr h.active)
    · rw [update_of_ne hcur]

lemma rotating (ht : Turns B s t m) (h : Rotating B s) (hmem : Member B s (place s m)) :
    Rotating B t := by
  have hmembers : ∀ k, Member B t k ↔ Member B s k := fun k => ht.member_iff h hmem
  have htop : t.prioCurrent t.currentTask = t.maxLevel := by
    rw [ht.prio, ht.level, ht.current]
    exact hmem.2.1
  refine ⟨?_, ht.current.trans ht.next.symm, ht.current ▸ ht.chosen, ht.normal, htop, ?_, ?_⟩
  · rw [ht.next, ht.hops]
    have hring := h.ring.move m
    exact ⟨hring.periodic, fun k => (ht.live k).trans (hring.visits k)⟩
  · intro k hk hact
    rw [ht.current]
    have hold := (hmembers k).mp hk
    by_contra hne
    rw [ht.others k hold.1 hold.2.1 hne] at hact
    rcases eq_or_ne k s.currentTask with rfl | hcur
    · rw [update_self] at hact
      cases hact
    · rw [update_of_ne hcur] at hact
      exact hcur (h.alone k hold hact)
  · rw [count_congr fun k _ => hmembers k]
    exact h.company

end Turns

lemma Rotating.tick (h : Rotating B s) (hs : Steady B s) : ∃ t, (∀ u, Tick B s u ↔ u = t) ∧
    Rotating B t ∧ ∃ rest, order B s = t.currentTask :: rest ∧ order B t = rest ++ [t.currentTask] := by
  obtain ⟨m, hm, hlt, hmem, hfirst⟩ := h.exists_next
  obtain ⟨t, htick, ht⟩ := h.tick_turns hs hm hlt hmem hfirst
  refine ⟨t, htick, ht.rotating h hmem, ?_⟩
  obtain ⟨rest, hold, hnew⟩ := lap_filter_turn (p := Member B s) h.ring.periodic hm hlt.le hmem hfirst
  refine ⟨rest, ?_, ?_⟩
  · rw [ht.current]
    exact hold
  · rw [order, ht.next, ht.hops, ht.current]
    refine Eq.trans (List.filter_congr fun k _ => ?_) hnew
    exact decide_eq_decide.mpr (ht.member_iff h hmem)

section Order

lemma mem_order (hr : RingFrom (hop s) (Live B s) s.nextTask) : k ∈ order B s ↔ Member B s k := by
  rw [order, List.mem_filter, mem_lap hr, decide_eq_true_iff]
  exact and_iff_right_of_imp Member.live

lemma order_nodup (hr : RingFrom (hop s) (Live B s) s.nextTask) : (order B s).Nodup :=
  (lap_nodup hr.periodic).filter _

lemma order_length (hr : RingFrom (hop s) (Live B s) s.nextTask) :
    (order B s).length = count B.maxTaskCount (Member B s) := by
  rw [← List.toFinset_card_of_nodup (order_nodup hr), count]
  congr 1
  ext k
  rw [List.mem_toFinset, mem_order hr, Finset.mem_filter, Finset.mem_range]
  exact (and_iff_right_of_imp fun hk => hk.1).symm

lemma order_last (h : Rotating B s) : (order B s).getLast? = some s.currentTask := by
  obtain ⟨n, hn⟩ : ∃ n, minimalPeriod (hop s) s.nextTask = n + 1 :=
    ⟨minimalPeriod (hop s) s.nextTask - 1, by have := h.ring.length_pos; omega⟩
  have hback : (hop s)^[n + 1] s.nextTask = s.currentTask := by
    rw [h.current, ← hn]
    exact iterate_minimalPeriod
  have hend : [s.currentTask].filter (Member B s) = [s.currentTask] :=
    List.filter_cons_of_pos (decide_eq_true h.member_current)
  rw [order, lap, hn, List.range_succ, List.map_append, List.filter_append, List.map_singleton, hback,
    hend, List.getLast?_concat]

end Order

/-- Between two ticks the task that runs goes on, and the members and their order on the ring stay;
whatever else happens. -/
structure Meanwhile (B : Build) (s t : KernelState) : Prop where
  ring : RingFrom (hop t) (Live B t) t.nextTask
  current : t.currentTask = s.currentTask
  next : t.nextTask = s.nextTask
  active : t.state t.currentTask = .active
  normal : t.normalSchedule = true
  alone : ∀ k, Member B t k → t.state k = .active → k = t.currentTask
  order : order B t = order B s

lemma Meanwhile.rotating (hm : Meanwhile B s t) (h : Rotating B s) : Rotating B t := by
  have hcur : Member B t t.currentTask := by
    rw [← mem_order hm.ring, hm.order, mem_order h.ring, hm.current]
    exact h.member_current
  have hcount : count B.maxTaskCount (Member B t) = count B.maxTaskCount (Member B s) := by
    rw [← order_length hm.ring, hm.order, order_length h.ring]
  refine ⟨hm.ring, ?_, hm.active, hm.normal, hcur.2.1, hm.alone, hcount ▸ h.company⟩
  rw [hm.current, hm.next]
  exact h.current

lemma Rotating.meanwhile (h : Rotating B s) : Meanwhile B s s :=
  ⟨h.ring, rfl, rfl, h.active, h.normal, h.alone, rfl⟩

/-- The running task goes on until a tick, at which nobody of its level wakes; then `k` runs. -/
def Round (B : Build) (s : KernelState) (k : ℕ) (t : KernelState) : Prop :=
  ∃ u, Meanwhile B s u ∧ Steady B u ∧ Tick B u t ∧ k = t.currentTask

lemma Rotating.round (h : Rotating B s) (hr : Round B s k t) :
    Rotating B t ∧ ∃ rest, order B s = k :: rest ∧ order B t = rest ++ [k] := by
  obtain ⟨u, hm, hs, ht, rfl⟩ := hr
  obtain ⟨v, hv, hrot, hturn⟩ := (hm.rotating h).tick hs
  obtain rfl := (hv t).mp ht
  rw [← hm.order]
  exact ⟨hrot, hturn⟩

/-- Every tick comes to an end, and as many ticks as there are members run them all, once each, in
ring order, and come back to the task that ran before. -/
theorem round_robin (h : Rotating B s) :
    (∀ ks t, Run (Round B) s ks t → ∀ u, Meanwhile B t u → Steady B u → ∃ v, Tick B u v) ∧
      ∀ ks t, Run (Round B) s ks t → ks.length = count B.maxTaskCount (Member B s) →
        ks = order B s ∧ ks.Nodup ∧ (∀ k, k ∈ ks ↔ Member B s k) ∧ t.currentTask = s.currentTask := by
  have hstep : ∀ s k t, Rotating B s → Round B s k t → Rotating B t := fun _ _ _ h hr => (h.round hr).1
  refine ⟨fun ks t hrun u hm hs => ?_, fun ks t hrun hlen => ?_⟩
  · have ht : Rotating B t := hrun.invariant hstep h
    obtain ⟨v, hv, -⟩ := (hm.rotating ht).tick hs
    exact ⟨v, (hv v).mpr rfl⟩
  · have ht : Rotating B t := hrun.invariant hstep h
    rw [← order_length h.ring] at hlen
    obtain ⟨rest, hold, hnew⟩ := run_rotates (I := Rotating B) (o := order B)
      (fun _ _ _ h hr => h.round hr) h hrun hlen.le
    have hrest : rest = [] := by
      have hsum := congrArg List.length hold
      rw [List.length_append] at hsum
      exact List.eq_nil_of_length_eq_zero (by omega)
    rw [hrest, List.append_nil] at hold
    rw [hrest, List.nil_append] at hnew
    refine ⟨hold.symm, hold ▸ order_nodup h.ring, fun k => ?_, ?_⟩
    · rw [← hold, mem_order h.ring]
    · have hlast := order_last ht
      rw [hnew, ← hold, order_last h] at hlast
      exact (Option.some.inj hlast).symm

section Instances

def threeSlots : Build := Build.three

/-- The base task and two tasks at level 5, the first of which runs. -/
def pair (other : TaskState) : KernelState :=
  { reset threeSlots (fun _ => 0) (fun _ => ⟨0, 0, 0, 0, 0, 0, 0, 0⟩) (fun _ => 0) with
    currentTask := 1
    nextTask := 1
    maxLevel := 5
    maxpLevel := 127
    alc := 2
    lstashPtr := 2
    levelStash := fun i => if i = 1 then 5 else 0
    prioCurrent := fun k => if k = 0 then 0 else 5
    jmpList := fun k => if k = 2 then -2 else 1
    state := fun k => if 3 ≤ k then .idle else if k = 1 then .active else if k = 2 then other else .sleep
    firstStart := true
    timer := true }

def ticked (s : KernelState) : KernelState := contextSwitch ((scheduler threeSlots 8 s).getD s)

lemma ticked_tick (h : (scheduler threeSlots 8 s).isSome = true) : Tick threeSlots s (ticked s) := by
  obtain ⟨u, hu⟩ := Option.isSome_iff_exists.mp h
  refine ⟨8, u, hu, ?_⟩
  rw [ticked, hu, Option.getD_some]

lemma pair_ring (other : TaskState) (ho : other ≠ .idle) :
    RingFrom (hop (pair other)) (Live threeSlots (pair other)) (pair other).nextTask := by
  have hin : ∀ i < 3, (hop (pair .sleep))^[i] 1 < 3 := by decide
  have hpos : ∀ k < 3, ∃ i < 3, (hop (pair .sleep))^[i] 1 = k := by decide
  have hlive : ∀ k < 3, Live threeSlots (pair other) k := by
    intro k hk
    refine ⟨hk, ?_⟩
    have : k = 0 ∨ k = 1 ∨ k = 2 := by omega
    rcases this with rfl | rfl | rfl
    · exact nofun
    · exact nofun
    · exact ho
  exact .of_positions (n := 3) (by decide) rfl (fun k hk => hk.1)
    (fun k hk => iff_of_true (hlive k hk) (hpos k hk)) hin

lemma pair_rotating : Rotating threeSlots (pair .sleep) := by
  refine ⟨pair_ring .sleep (by decide), rfl, rfl, rfl, rfl, ?_, by decide⟩
  intro k hk hact
  have hall : ∀ k < 3, (pair .sleep).state k = .active → k = 1 := by decide
  exact hall k hk.1 hact

theorem round_robin_pair : ∃ ks t, Run (Round threeSlots) (pair .sleep) ks t ∧ ks = [2, 1] ∧
    ks = order threeSlots (pair .sleep) ∧ t.currentTask = 1 := by
  have h := pair_rotating
  have h1 : Round threeSlots (pair .sleep) 2 (ticked (pair .sleep)) :=
    ⟨_, h.meanwhile, by decide, ticked_tick (by decide), rfl⟩
  have h2 : Round threeSlots (ticked (pair .sleep)) 1 (ticked (ticked (pair .sleep))) :=
    ⟨_, (h.round h1).1.meanwhile, by decide, ticked_tick (by decide), rfl⟩
  have hrun : Run (Round threeSlots) (pair .sleep) [2, 1] (ticked (ticked (pair .sleep))) :=
    .cons h1 (.single h2)
  obtain ⟨horder, -, -, hback⟩ := (round_robin h).2 _ _ hrun (by decide)
  exact ⟨_, _, hrun, rfl, horder, hback⟩

/-- A second task of the level is ACTIVE: two ticks run the base task and the first one, and no tick
ever runs the second. -/
theorem round_robin_fails : ∃ s, RingFrom (hop s) (Live threeSlots s) s.nextTask ∧
    (s.currentTask = s.nextTask ∧ s.state s.currentTask = .active ∧ s.normalSchedule = true ∧
      Member threeSlots s s.currentTask ∧ count 3 (Member threeSlots s) = 2 ∧ Member threeSlots s 2) ∧
    Steady threeSlots s ∧ Tick threeSlots s (ticked s) ∧
    Steady threeSlots (ticked s) ∧ Tick threeSlots (ticked s) (ticked (ticked s)) ∧
    (ticked s).currentTask ≠ 2 ∧ (ticked (ticked s)).currentTask ≠ 2 := by
  refine ⟨pair .active, pair_ring .active (by decide), by decide, by decide, ticked_tick (by decide),
    by decide, ticked_tick (by decide), by decide, by decide⟩

end Instances

end Skibios.Scheduling.RoundRobin

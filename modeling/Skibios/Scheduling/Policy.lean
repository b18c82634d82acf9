import Skibios.Kernel.SchedulerLoops
import Skibios.Library.Counting
import Mathlib.Tactic.IntervalCases

/-! Which task the scheduler picks. -/

namespace Skibios.Scheduling.Policy

open Function Library.Words Library.Loops Library.Rings Library.Counting
open Kernel State Scheduler SchedulerLoops

variable {B : Build} {s w t : KernelState} {k : ℕ}

/-- The ring visits the live slots, the running task is on it, `level_stash` lists the priorities
in use and `max_level` is the largest of them. -/
structure WellFormed (B : Build) (s : KernelState) : Prop where
  ring : RingFrom (hop s) (Live B s) s.nextTask
  current : s.currentTask = s.nextTask
  increasing : ∀ i j, i < j → j < s.lstashPtr → s.levelStash i < s.levelStash j
  levels : ∀ v, (∃ i < s.lstashPtr, s.levelStash i = v) ↔ ∃ k, Live B s k ∧ s.prioCurrent k = v
  top : ∃ k, Live B s k ∧ s.prioCurrent k = s.maxLevel
  above : ∀ k, Live B s k → s.prioCurrent k ≤ s.maxLevel

/-- The pick is ready, of the highest priority among the ready tasks, and the first of that priority
on the ring behind the old `next_task`, which itself comes last. -/
structure PicksFirst (B : Build) (s t : KernelState) : Prop where
  ready : Ready B s t.nextTask
  highest : ∀ k, Ready B s k → s.prioCurrent k ≤ s.prioCurrent t.nextTask
  first : ∃ i, 0 < i ∧ i ≤ minimalPeriod (hop s) s.nextTask ∧ place s i = t.nextTask ∧
    ∀ j, 0 < j → j < i →
      ¬ (Ready B s (place s j) ∧ s.prioCurrent (place s j) = s.prioCurrent t.nextTask)

def TopReady (B : Build) (s : KernelState) (k : ℕ) : Prop :=
  Ready B s k ∧ ∀ j, Ready B s j → s.prioCurrent j ≤ s.prioCurrent k

/-- Either the running task is not among the best candidates, or it has company there exactly when
its level is the top one. -/
def CurrentFits (B : Build) (s : KernelState) : Prop :=
  ¬ TopReady B s s.currentTask ∨
    ((∃ k, k ≠ s.currentTask ∧ Ready B s k ∧ s.prioCurrent k = s.prioCurrent s.currentTask) ↔
      s.prioCurrent s.currentTask = s.maxLevel)

/-- The best candidate at place `i` is the first one on the ring, and its level is that of lap `r`. -/
structure FirstBest (B : Build) (s : KernelState) (i r : ℕ) : Prop where
  pos : 0 < i
  le : i ≤ minimalPeriod (hop s) s.nextTask
  top : TopReady B s (place s i)
  first : ∀ j, 0 < j → j < i → ¬ TopReady B s (place s j)
  lap : r < s.lstashPtr
  level : levelAt s r = s.prioCurrent (place s i)

namespace WellFormed

lemma live_current (h : WellFormed B s) : Live B s s.currentTask := h.current ▸ h.ring.start

lemma lstashPtr_pos (h : WellFormed B s) : 0 < s.lstashPtr := by
  obtain ⟨i, hi, _⟩ := (h.levels _).mpr ⟨_, h.ring.start, rfl⟩
  omega

lemma lstashPtr_le (h : WellFormed B s) : s.lstashPtr ≤ B.maxTaskCount := by
  have hinj : Set.InjOn s.levelStash (Finset.range s.lstashPtr) := by
    intro i hi j hj he
    simp only [Finset.coe_range, Set.mem_Iio] at hi hj
    rcases lt_trichotomy i j with hlt | rfl | hlt
    · exact absurd he (h.increasing i j hlt hj).ne
    · rfl
    · exact absurd he (h.increasing j i hlt hi).ne'
  have hcard := card_le_count (n := B.maxTaskCount) (p := Live B s) s.prioCurrent
    (s := (Finset.range s.lstashPtr).image s.levelStash) fun v hv => by
      obtain ⟨i, hi, hv⟩ := Finset.mem_image.mp hv
      obtain ⟨k, hk, he⟩ := (h.levels v).mp ⟨i, Finset.mem_range.mp hi, hv⟩
      exact ⟨k, hk.1, hk, he⟩
  rw [Finset.card_image_of_injOn hinj, Finset.card_range] at hcard
  exact hcard.trans (count_le _ _)

lemma lstashPtr_le_128 (h : WellFormed B s) : s.lstashPtr ≤ 128 :=
  h.lstashPtr_le.trans B.maxTaskCount_le

lemma levelAt_eq (h : WellFormed B s) {r : ℕ} (hr : r < s.lstashPtr) :
    levelAt s r = s.levelStash (s.lstashPtr - 1 - r) := by
  unfold levelAt
  split
  · subst r
    obtain ⟨i, hi, he⟩ := (h.levels _).mpr h.top
    obtain ⟨k, hk, hv⟩ := (h.levels _).mp ⟨s.lstashPtr - 1, by omega, rfl⟩
    have hle := h.above k hk
    rw [hv, ← he] at hle
    rcases eq_or_lt_of_le (show i ≤ s.lstashPtr - 1 by omega) with hi' | hlt
    · rw [← he, hi']
      rfl
    · exact absurd (h.increasing i _ hlt (by omega)) (by omega)
  · rw [pointerAt_eq hr h.lstashPtr_le_128]

lemma levelAt_lt (h : WellFormed B s) {q r : ℕ} (hqr : q < r) (hr : r < s.lstashPtr) :
    levelAt s r < levelAt s q := by
  rw [h.levelAt_eq hr, h.levelAt_eq (hqr.trans hr)]
  exact h.increasing _ _ (by omega) (by omega)

lemma levelAt_eq_max (h : WellFormed B s) {r : ℕ} (hr : r < s.lstashPtr) :
    levelAt s r = s.maxLevel ↔ r = 0 := by
  have hzero : levelAt s 0 = s.maxLevel := if_pos rfl
  refine ⟨fun he => ?_, fun he => he ▸ hzero⟩
  rcases Nat.eq_zero_or_pos r with h0 | h0
  · exact h0
  · exact absurd (he.trans hzero.symm) (h.levelAt_lt h0 hr).ne

lemma exists_lap (h : WellFormed B s) (hk : Live B s k) :
    ∃ r < s.lstashPtr, levelAt s r = s.prioCurrent k := by
  obtain ⟨i, hi, he⟩ := (h.levels _).mpr ⟨k, hk, rfl⟩
  refine ⟨s.lstashPtr - 1 - i, by omega, ?_⟩
  rw [h.levelAt_eq (by omega), ← he]
  congr 1
  omega

lemma live_enter (h : WellFormed B s) : Live B (enterScheduler s) k ↔ Live B s k :=
  SchedulerLoops.live_enter fun _ => h.live_current

lemma place_eq_current_iff (h : WellFormed B s) (j : ℕ) :
    place s j = s.currentTask ↔ minimalPeriod (hop s) s.nextTask ∣ j :=
  SchedulerLoops.place_eq_current_iff h.current j

lemma picks_iff (h : WellFormed B s) (hd : s.enableDws = true) (k : ℕ) :
    (∃ t, (∃ n, scheduler B n s = some t) ∧ t.nextTask = k) ↔
      ∃ m, Exit (Underflows B s (rounds s)) (Suits B s (rounds s)) m ∧ k = place s m :=
  SchedulerLoops.picks_iff ⟨h.ring.periodic, fun k => h.live_enter.trans (h.ring.visits k)⟩ hd
    (laps_rounds h.current) k

lemma current_at_lap (h : WellFormed B s) (r : ℕ) :
    place s (r * minimalPeriod (hop s) s.nextTask) = s.currentTask :=
  (h.place_eq_current_iff _).mpr (dvd_mul_left _ _)

lemma other_of_lt (h : WellFormed B s) {i : ℕ} (hi : 0 < i)
    (hlt : i < minimalPeriod (hop s) s.nextTask) : place s i ≠ s.currentTask := by
  rw [Ne, h.place_eq_current_iff]
  exact Nat.not_dvd_of_pos_of_lt hi hlt

lemma fits_of_picks (h : WellFormed B s) (hd : s.enableDws = true)
    (hp : ∃ t, (∃ n, scheduler B n s = some t) ∧ PicksFirst B s t) : CurrentFits B s := by
  obtain ⟨t, ht, hpick⟩ := hp
  obtain ⟨m, hm, hk⟩ := (h.picks_iff hd t.nextTask).mp ⟨t, ht, rfl⟩
  have hn := h.ring.length_pos
  have hlap : m / minimalPeriod (hop s) s.nextTask < s.lstashPtr :=
    rounds_lt h.ring h.current h.lstashPtr_pos hm
  set n := minimalPeriod (hop s) s.nextTask with hndef
  by_cases htop : TopReady B s s.currentTask
  swap
  · exact Or.inl htop
  have hprio : s.prioCurrent t.nextTask = s.prioCurrent s.currentTask :=
    le_antisymm (htop.2 _ hpick.ready) (hpick.highest _ htop.1)
  have hlevel : levelAt s (m / n) = s.prioCurrent s.currentTask := by
    rw [← hprio, hk]
    exact hm.here.2.symm
  refine Or.inr ⟨?_, fun hmax => ?_⟩
  · rintro ⟨k, hne, hr, hkp⟩
    -- the pick sits before the running task, so the first lap found it
    obtain ⟨i, hi, hin, hplace, hfirst⟩ := hpick.first
    obtain ⟨j, hj, hjk⟩ := h.ring.index (h.live_enter.mp hr.1)
    have hj0 : 0 < j := by
      rcases Nat.eq_zero_or_pos j with rfl | hj0
      · exact absurd (hjk.symm.trans h.current.symm) hne
      · exact hj0
    have hij : i ≤ j := by
      by_contra hlt
      refine hfirst j hj0 (not_le.mp hlt) ⟨?_, ?_⟩
      · rwa [place, hjk]
      · rw [place, hjk, hkp, hprio]
    have hnot : t.nextTask ≠ s.currentTask := hplace ▸ h.other_of_lt hi (hij.trans_lt hj)
    rcases Nat.eq_zero_or_pos (m / n) with hr0 | hr0
    · rw [hr0] at hlevel
      exact hlevel.symm
    · exfalso
      have hsuit : Suits B s (rounds s) (m / n * n) := by
        rw [Suits, h.current_at_lap, rounds, ← hndef, Nat.mul_div_cancel _ hn]
        exact ⟨htop.1, hlevel.symm⟩
      have hle : m / n * n ≤ m := Nat.div_mul_le_self m n
      rcases eq_or_lt_of_le hle with he | hlt
      · exact hnot (by rw [hk, ← he, h.current_at_lap])
      · exact hm.first _ (Nat.mul_pos hr0 hn) hlt hsuit
  · have hr0 : m / n = 0 := (h.levelAt_eq_max hlap).mp (hlevel.trans hmax)
    refine ⟨t.nextTask, ?_, hpick.ready, hprio⟩
    rw [hk]
    exact h.other_of_lt hm.pos ((Nat.div_eq_zero_iff_lt hn).mp hr0)

lemma exists_topReady (h : WellFormed B s) (hr : ∃ k, Ready B s k) : ∃ k, TopReady B s k := by
  obtain ⟨k, hk⟩ := hr
  have hbound : ∀ v, (∃ j, Ready B s j ∧ s.prioCurrent j = v) → v < s.maxLevel + 1 := by
    rintro v ⟨j, hj, rfl⟩
    exact Nat.lt_succ_of_le (h.above j (h.live_enter.mp hj.1))
  obtain ⟨v, ⟨j, hj, rfl⟩, hmax⟩ := exists_greatest hbound ⟨k, hk, rfl⟩
  exact ⟨j, hj, fun i hi => hmax _ ⟨i, hi, rfl⟩⟩

lemma exists_first (h : WellFormed B s) (hk : TopReady B s k) : ∃ i r, FirstBest B s i r := by
  classical
  have hn := h.ring.length_pos
  obtain ⟨i, hi, hik⟩ := h.ring.index (h.live_enter.mp hk.1.1)
  have hex : ∃ i, 0 < i ∧ i ≤ minimalPeriod (hop s) s.nextTask ∧ TopReady B s (place s i) := by
    rcases Nat.eq_zero_or_pos i with rfl | hi0
    · refine ⟨_, hn, le_rfl, ?_⟩
      rwa [(h.place_eq_current_iff _).mpr dvd_rfl, h.current, ← iterate_zero_apply (hop s) s.nextTask,
        hik]
    · exact ⟨i, hi0, hi.le, by rwa [place, hik]⟩
  obtain ⟨hpos, hle, htop⟩ := Nat.find_spec hex
  obtain ⟨r, hr, hlevel⟩ := h.exists_lap (h.live_enter.mp htop.1.1)
  refine ⟨Nat.find hex, r, hpos, hle, htop, fun j hj hlt ht => ?_, hr, hlevel⟩
  exact Nat.find_min hex hlt ⟨hj, hlt.le.trans hle, ht⟩

lemma topReady_of_prio (hk : TopReady B s k) {j : ℕ} (hj : Ready B s j)
    (hp : s.prioCurrent j = s.prioCurrent k) : TopReady B s j :=
  ⟨hj, fun i hi => (hk.2 i hi).trans hp.ge⟩

end WellFormed

namespace FirstBest

variable {i r : ℕ}

noncomputable def exit (s : KernelState) (i r : ℕ) : ℕ :=
  r * minimalPeriod (hop s) s.nextTask + i % minimalPeriod (hop s) s.nextTask

lemma exit_div (h : WellFormed B s) : exit s i r / minimalPeriod (hop s) s.nextTask = r := by
  have hn := h.ring.length_pos
  rw [exit, Nat.mul_comm, Nat.mul_add_div hn, Nat.div_eq_of_lt (Nat.mod_lt i hn), Nat.add_zero]

lemma exit_place : place s (exit s i r) = place s i := by
  rw [← place_mod, exit, Nat.mul_comm, Nat.mul_add_mod, Nat.mod_mod, place_mod]

lemma at_current (h : WellFormed B s) (hb : FirstBest B s i r)
    (hnot : ¬ i < minimalPeriod (hop s) s.nextTask) : TopReady B s s.currentTask := by
  have hi : place s i = s.currentTask :=
    (h.place_eq_current_iff i).mpr ((le_antisymm hb.le (not_lt.mp hnot)) ▸ dvd_rfl)
  exact hi ▸ hb.top

lemma lap_zero (h : WellFormed B s) (hb : FirstBest B s i r) (hfit : CurrentFits B s)
    (ht : TopReady B s s.currentTask) : i < minimalPeriod (hop s) s.nextTask ↔ r = 0 := by
  have hprio : s.prioCurrent (place s i) = s.prioCurrent s.currentTask :=
    le_antisymm (ht.2 _ hb.top.1) (hb.top.2 _ ht.1)
  rw [← h.levelAt_eq_max hb.lap, hb.level, hprio, ← hfit.resolve_left (not_not_intro ht)]
  refine ⟨fun hlt => ⟨_, h.other_of_lt hb.pos hlt, hb.top.1, hprio⟩, ?_⟩
  rintro ⟨j, hne, hj, hjp⟩
  obtain ⟨q, hq, hqj⟩ := h.ring.index (h.live_enter.mp hj.1)
  refine lt_of_le_of_lt (not_lt.mp fun hlt => ?_) hq
  refine hb.first q ?_ hlt (WellFormed.topReady_of_prio ht ?_ ?_)
  · rcases Nat.eq_zero_or_pos q with rfl | hq0
    · exact absurd (hqj.symm.trans h.current.symm) hne
    · exact hq0
  · rwa [place, hqj]
  · rwa [place, hqj]

lemma earlier (h : WellFormed B s) (hb : FirstBest B s i r) (hfit : CurrentFits B s) {j : ℕ}
    (hj0 : 0 < j) (hj : j < exit s i r) : ¬ Suits B s (rounds s) j := by
  rintro ⟨hrj, hpj⟩
  have hn := h.ring.length_pos
  set n := minimalPeriod (hop s) s.nextTask with hndef
  rw [rounds, ← hndef] at hpj
  have hq : j / n ≤ r := (Nat.div_le_div_right hj.le).trans_eq (exit_div h)
  have hqr : j / n = r := by
    refine le_antisymm hq (not_lt.mp fun hlt' => ?_)
    have := hb.top.2 _ hrj
    rw [hpj, ← hb.level] at this
    exact absurd (h.levelAt_lt hlt' hb.lap) (by omega)
  have hx : j % n < i % n := by
    have := Nat.div_add_mod j n
    rw [exit, ← hndef] at hj
    rw [hqr, Nat.mul_comm] at this
    omega
  have htj : TopReady B s (place s j) :=
    WellFormed.topReady_of_prio hb.top hrj (by rw [hpj, hqr, hb.level])
  rw [← place_mod, ← hndef] at htj
  rcases Nat.eq_zero_or_pos (j % n) with h0 | h0
  · -- the running task is a best candidate and its own lap is not the first
    have hin : i < n := by
      by_contra hnot
      rw [le_antisymm hb.le (not_lt.mp hnot), Nat.mod_self] at hx
      omega
    rw [h0, show place s 0 = s.currentTask from h.current.symm] at htj
    have hr0 : r = 0 := (hb.lap_zero h hfit htj).mp hin
    rw [hr0, Nat.div_eq_zero_iff_lt hn] at hqr
    rw [Nat.mod_eq_of_lt hqr] at h0
    omega
  · exact hb.first _ h0 (hx.trans_le (Nat.mod_le i n)) htj

lemma exits (h : WellFormed B s) (hb : FirstBest B s i r) (hfit : CurrentFits B s) :
    Exit (Underflows B s (rounds s)) (Suits B s (rounds s)) (exit s i r) := by
  have hn := h.ring.length_pos
  have htop : Ready B s (place s (exit s i r)) := by
    rw [exit_place]
    exact hb.top.1
  refine ⟨?_, ⟨htop, ?_⟩, ?_, fun j hj0 hj => hb.earlier h hfit hj0 hj⟩
  · by_cases hin : i < minimalPeriod (hop s) s.nextTask
    · rw [exit, Nat.mod_eq_of_lt hin]
      exact Nat.add_pos_right _ hb.pos
    · have hr0 : r ≠ 0 := mt (hb.lap_zero h hfit (hb.at_current h hin)).mpr hin
      exact Nat.add_pos_left (Nat.mul_pos (Nat.pos_of_ne_zero hr0) hn) _
  · rw [exit_place, rounds, exit_div h, hb.level]
  · rintro j - hj ⟨-, hbad⟩
    have hq : j / minimalPeriod (hop s) s.nextTask ≤ r :=
      (Nat.div_le_div_right hj).trans_eq (exit_div h)
    rw [rounds, pointerAt_eq (hq.trans_lt hb.lap) h.lstashPtr_le_128] at hbad
    generalize j / minimalPeriod (hop s) s.nextTask = q at hbad
    have hpos := h.lstashPtr_pos
    have hle := h.lstashPtr_le
    omega

end FirstBest

lemma WellFormed.picks_of_fits (h : WellFormed B s) (hd : s.enableDws = true) (hr : ∃ k, Ready B s k)
    (hfit : CurrentFits B s) : ∃ t, (∃ n, scheduler B n s = some t) ∧ PicksFirst B s t := by
  obtain ⟨k, hk⟩ := h.exists_topReady hr
  obtain ⟨i, r, hb⟩ := h.exists_first hk
  refine ((h.picks_iff hd (place s i)).mpr ⟨_, hb.exits h hfit, FirstBest.exit_place.symm⟩).imp ?_
  rintro t ⟨ht, hnext⟩
  refine ⟨ht, ?_, ?_, i, hb.pos, hb.le, ?_, ?_⟩
  · rw [hnext]
    exact hb.top.1
  · rw [hnext]
    exact hb.top.2
  · rw [hnext]
  · rintro j hj hji ⟨hrj, hpj⟩
    rw [hnext] at hpj
    exact hb.first j hj hji (WellFormed.topReady_of_prio hb.top hrj hpj)

/-- The policy is met exactly when the running task fits: the walk lowers the level before it looks
at the running task. -/
theorem scheduler_policy (h : WellFormed B s) (hd : s.enableDws = true)
    (hr : ∃ k, Ready B s k) :
    (∃ t, (∃ n, scheduler B n s = some t) ∧ PicksFirst B s t) ↔ CurrentFits B s :=
  ⟨h.fits_of_picks hd, h.picks_of_fits hd hr⟩

section Instances

def fourSlots : Build := Build.four

def crowd (n : ℕ) : KernelState :=
  { reset fourSlots (fun _ => 0) (fun _ => ⟨0, 0, 0, 0, 0, 0, 0, 0⟩) (fun _ => 0) with
    currentTask := 1
    nextTask := 1
    maxLevel := 5
    maxpLevel := 127
    alc := n - 1
    lstashPtr := 2
    levelStash := fun i => if i = 1 then 5 else 0
    prioCurrent := fun k => if k = 0 then 0 else 5
    jmpList := fun k => if k + 1 < n then 1 else if k + 1 = n then -k else 0
    state := fun k => if n ≤ k then .idle else if k = 1 then .active else .sleep
    firstStart := true
    timer := true }

variable {n : ℕ}

lemma crowd_live (hn : n ≤ 4) : Live fourSlots (crowd n) k ↔ k < n := by
  have hl : Live fourSlots (crowd n) k ↔
      k < 4 ∧ (if n ≤ k then TaskState.idle else if k = 1 then .active else .sleep) ≠ .idle := Iff.rfl
  rw [hl]
  split_ifs with h1 h2
  · simp [not_lt.mpr h1]
  all_goals
    simp only [ne_eq, reduceCtorEq, not_false_eq_true, and_true]
    omega

lemma crowd_sorted (hn : n ≤ 4) : Sorted (Live fourSlots (crowd n)) (hop (crowd n)) := by
  intro k hk
  rw [crowd_live hn] at hk
  have hjmp : (crowd n).jmpList k = if k + 1 < n then 1 else if k + 1 = n then -(k : ℤ) else 0 := rfl
  by_cases hlt : k + 1 < n
  · have hhop : hop (crowd n) k = k + 1 := by
      rw [hop, hjmp, if_pos hlt]
      omega
    rw [hhop]
    exact ⟨(crowd_live hn).mpr hlt, Or.inl ⟨by omega, fun j _ _ => by omega⟩⟩
  · have hhop : hop (crowd n) k = 0 := by
      rw [hop, hjmp, if_neg hlt, if_pos (by omega)]
      omega
    rw [hhop]
    refine ⟨(crowd_live hn).mpr (by omega), Or.inr ⟨by omega, fun j hj h => ?_, fun j hj => ?_⟩⟩
    · rw [crowd_live hn] at h
      omega
    · omega

lemma crowd_wellFormed (hn : n ≤ 4) (h2 : 2 ≤ n) : WellFormed fourSlots (crowd n) := by
  have hlive : ∀ k, Live fourSlots (crowd n) k ↔ k < n := fun k => crowd_live hn
  refine ⟨(crowd_sorted hn).ring (n := 4) (fun k hk => hk.1) ((hlive 1).mpr h2), rfl, ?_, ?_, ?_, ?_⟩
  · intro i j hij hj
    obtain rfl : j = 1 := by
      change j < 2 at hj
      omega
    obtain rfl : i = 0 := by omega
    exact Nat.zero_lt_succ 4
  · intro v
    change (∃ i < 2, (if i = 1 then 5 else 0) = v) ↔
      ∃ k, Live fourSlots (crowd n) k ∧ (if k = 0 then 0 else 5) = v
    constructor
    · rintro ⟨i, hi, rfl⟩
      refine ⟨i, (hlive i).mpr (by omega), ?_⟩
      interval_cases i <;> rfl
    · rintro ⟨k, -, rfl⟩
      rcases Nat.eq_zero_or_pos k with rfl | hk
      · exact ⟨0, by omega, rfl⟩
      · exact ⟨1, by omega, (if_neg hk.ne').symm⟩
  · exact ⟨1, (hlive 1).mpr h2, rfl⟩
  · intro k _
    change (if k = 0 then 0 else 5) ≤ 5
    split <;> omega

/-- With company on its level the running task fits. -/
theorem scheduler_policy_crowd :
    ∃ t, (∃ n, scheduler fourSlots n (crowd 3) = some t) ∧ PicksFirst fourSlots (crowd 3) t :=
  (scheduler_policy (crowd_wellFormed (by decide) (by decide)) rfl ⟨2, by decide⟩).mpr
    (Or.inr ⟨fun _ => rfl, fun _ => ⟨2, by decide, by decide, rfl⟩⟩)

/-- A tick while the only task above the base task runs gives the processor to the base task. -/
theorem scheduler_policy_fails :
    (∃ t, scheduler fourSlots 8 (crowd 2) = some t ∧ t.nextTask = 0) ∧
      ¬ ∀ (B : Build) (s : KernelState), WellFormed B s → s.enableDws = true →
        (∃ k, Ready B s k) → ∃ t, (∃ n, scheduler B n s = some t) ∧ PicksFirst B s t := by
  refine ⟨?_, fun h => ?_⟩
  · exact Option.map_eq_some_iff.mp
      (show (scheduler fourSlots 8 (crowd 2)).map KernelState.nextTask = some 0 by decide)
  have hw := crowd_wellFormed (n := 2) (by decide) (by decide)
  have hready : Ready fourSlots (crowd 2) 1 := by decide
  rcases hw.fits_of_picks rfl (h _ _ hw rfl ⟨1, hready⟩) with hfit | hfit
  · refine hfit ⟨hready, fun j _ => ?_⟩
    change (if j = 0 then 0 else 5) ≤ 5
    split <;> omega
  · obtain ⟨k, hne, hk, hp⟩ := hfit.mpr rfl
    have hlt := (crowd_live (by decide)).mp (hw.live_enter.mp hk.1)
    interval_cases k
    · exact absurd hp (by decide)
    · exact hne rfl

end Instances

end Skibios.Scheduling.Policy

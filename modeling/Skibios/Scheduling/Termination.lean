import Skibios.Tasks.LevelStash

/-! When the loops of `scheduler()` end inside their tables. -/

namespace Skibios.Scheduling.Termination

open Function Library.Words Library.Loops Library.Rings Library.Counting Library.Runs
open Kernel State TaskServices Services Scheduler SchedulerLoops Events Effects
open Tasks Invariants LevelStash

variable {B : Build} {s t : KernelState} {es : List Event} {k : ℕ}

def Returns (B : Build) (s : KernelState) : Prop := ∃ t n, scheduler B n s = some t

/-- Another task is ready at the top level, or the running task is still on the ring and some task
is ready at a level below the last one of the stash. -/
def Reaches (B : Build) (s : KernelState) : Prop :=
  (∃ k, k ≠ s.currentTask ∧ Ready B s k ∧ s.prioCurrent k = s.maxLevel) ∨
    (Live B s s.currentTask ∧ ∃ k, Ready B s k ∧
      ∃ i, i + 1 < s.lstashPtr ∧ s.levelStash i = s.prioCurrent k)

section Walk

variable (hs : Consistent B s) (hq : s.switchPending = false)
include hs hq

lemma ring_enter : RingFrom (hop s) (Live B (enterScheduler s)) s.nextTask := by
  have hr := hs.ringFrom hs.next
  exact ⟨hr.periodic, fun k => (hs.live_enter hq).trans (hr.visits k)⟩

lemma returns_iff {lap : ℕ → ℕ} (hl : Laps s lap) :
    Returns B s ↔ ∃ m, Exit (Underflows B s lap) (Suits B s lap) m := by
  have hpick := picks_iff (ring_enter hs hq) hs.dws hl
  constructor
  · rintro ⟨t, ht⟩
    obtain ⟨m, hm, -⟩ := (hpick t.nextTask).mp ⟨t, ht, rfl⟩
    exact ⟨m, hm⟩
  · rintro ⟨m, hm⟩
    obtain ⟨t, ht, -⟩ := (hpick (place s m)).mpr ⟨m, hm, rfl⟩
    exact ⟨t, ht⟩

lemma ready_position (hk : Ready B s k) :
    ∃ i, 0 < i ∧ i ≤ minimalPeriod (hop s) s.nextTask ∧ place s i = k := by
  have hr := hs.ringFrom hs.next
  obtain ⟨i, hi, hik⟩ := hr.index ((hs.live_enter hq).mp hk.1)
  rcases Nat.eq_zero_or_pos i with rfl | hpos
  · exact ⟨_, hr.length_pos, le_rfl, (iterate_minimalPeriod).trans hik⟩
  · exact ⟨i, hpos, hi.le, hik⟩

lemma returns_of_gone (hc : ¬ Live B s s.currentTask) : Returns B s ↔
    ∃ k, k ≠ s.currentTask ∧ Ready B s k ∧ s.prioCurrent k = s.maxLevel := by
  have hlive := hs.ringFrom hs.next
  have hne : ∀ j, place s j ≠ s.currentTask := fun j he => hc (he ▸ hlive.position j)
  rw [returns_iff hs hq (laps_of_gone hlive hc)]
  constructor
  · rintro ⟨m, hm⟩
    exact ⟨place s m, hne m, hm.here.1, hm.here.2⟩
  · rintro ⟨k, -, hk, hp⟩
    obtain ⟨i, hi, -, rfl⟩ := ready_position hs hq hk
    obtain ⟨m, -, hm⟩ : ∃ m ≤ i, Exit (Underflows B s fun _ => 0) (Suits B s fun _ => 0) m :=
      Exit.of_hit hi ⟨hk, hp⟩ fun j _ _ hb => hne j hb.1
    exact ⟨m, hm⟩

omit hq in
lemma round_position (hk : Live B s k) (r : ℕ) : ∃ m, rounds s m = r ∧ place s m = k ∧
    r * minimalPeriod (hop s) s.nextTask ≤ m := by
  have hr := hs.ringFrom hs.next
  obtain ⟨j, hj⟩ := hr.index hk
  refine ⟨r * minimalPeriod (hop s) s.nextTask + j, ?_, ?_, Nat.le_add_right _ _⟩
  · rw [rounds, Nat.mul_comm, Nat.mul_add_div hr.length_pos, Nat.div_eq_of_lt hj.1, Nat.add_zero]
  · rw [← place_mod, Nat.mul_comm, Nat.mul_add_mod, place_mod]
    exact hj.2

lemma returns_of_current (hst : Stash B s) (hc : Live B s s.currentTask) :
    Returns B s ↔ Reaches B s := by
  have hcur := hs.current hq hc
  have hr := hs.ringFrom hs.next
  have hn := hr.length_pos
  have hpos := hst.pos hs
  have hle := hst.le
  have h128 := B.maxTaskCount_le
  rw [returns_iff hs hq (laps_rounds hcur)]
  constructor
  · rintro ⟨m, hm⟩
    have hlt := rounds_lt hr hcur hpos hm
    rcases Nat.eq_zero_or_pos (rounds s m) with h0 | h0
    · refine Or.inl ⟨place s m, ?_, hm.here.1, ?_⟩
      · rw [Ne, place_eq_current_iff hcur]
        exact Nat.not_dvd_of_pos_of_lt hm.pos ((Nat.div_eq_zero_iff_lt hn).mp h0)
      · rw [hm.here.2, h0]
        rfl
    · refine Or.inr ⟨hc, place s m, hm.here.1, s.lstashPtr - 1 - rounds s m, by omega, ?_⟩
      rw [hm.here.2, levelAt, if_neg h0.ne', pointerAt_eq hlt (by omega)]
  · have hsound : ∀ r < s.lstashPtr, ∀ j, rounds s j ≤ r → ¬ Underflows B s (rounds s) j := by
      rintro r hr' j hj ⟨-, hb⟩
      rw [pointerAt_eq (hj.trans_lt hr') (by omega)] at hb
      omega
    rintro (⟨k, hne, hk, hp⟩ | ⟨-, k, hk, i, hi, hp⟩)
    · obtain ⟨j, hj, hjn, rfl⟩ := ready_position hs hq hk
      have hlt : j < minimalPeriod (hop s) s.nextTask := by
        refine lt_of_le_of_ne hjn fun heq => hne ?_
        exact (place_eq_current_iff hcur j).mpr (heq ▸ dvd_rfl)
      have h0 : rounds s j = 0 := (Nat.div_eq_zero_iff_lt hn).mpr hlt
      obtain ⟨m, -, hm⟩ : ∃ m ≤ j, Exit (Underflows B s (rounds s)) (Suits B s (rounds s)) m :=
        Exit.of_hit hj ⟨hk, by rw [h0]; exact hp⟩
          fun q _ hq' => hsound 0 hpos q (h0 ▸ Nat.div_le_div_right hq')
      exact ⟨m, hm⟩
    · -- the round in which the level of the stash at `i` is in force
      let r := s.lstashPtr - 1 - i
      obtain ⟨j, hround, hplace, hle'⟩ := round_position hs ((hs.live_enter hq).mp hk.1) r
      have hrpos : 0 < r := by
        change 0 < s.lstashPtr - 1 - i
        omega
      have hrlt : r < s.lstashPtr := by
        change s.lstashPtr - 1 - i < s.lstashPtr
        omega
      have hlevel : levelAt s r = s.prioCurrent k := by
        rw [levelAt, if_neg hrpos.ne', pointerAt_eq hrlt (by omega), ← hp]
        congr 1
        change s.lstashPtr - 1 - (s.lstashPtr - 1 - i) = i
        omega
      have hjpos : 0 < j := (Nat.mul_pos hrpos hn).trans_le hle'
      obtain ⟨m, -, hm⟩ : ∃ m ≤ j, Exit (Underflows B s (rounds s)) (Suits B s (rounds s)) m :=
        Exit.of_hit hjpos
          ⟨by rwa [hplace], by rw [hround, hplace, hlevel]⟩
          fun q _ hq' => hsound r hrlt q (hround ▸ Nat.div_le_div_right hq')
      exact ⟨m, hm⟩

lemma returns_iff_reaches (hst : Stash B s) : Returns B s ↔ Reaches B s := by
  by_cases hc : Live B s s.currentTask
  · exact returns_of_current hs hq hst hc
  · rw [returns_of_gone hs hq hc, Reaches, or_iff_left fun h => hc h.1]

end Walk

variable {mem : ℕ → ℕ} {objs : ℕ → TaskObject} {stack : ℕ → ℕ}

lemma run_stash (h : Run (Guarded B (Unpromoted B)) (bootState B mem objs stack) es s) :
    Consistent B s ∧ Stash B s := by
  obtain ⟨objs', stack', hb⟩ := bootState_eq B mem objs stack
  rw [hb] at h
  refine h.invariant (I := fun s => Consistent B s ∧ Stash B s) ?_
    ⟨booted_consistent B mem objs' stack', Stash.booted B mem objs' stack'⟩
  rintro s e t ⟨hs, hst⟩ hg
  have he := step_effect hg.2
  exact ⟨hs.step hg.1.regular he, hst.step hs hg.1 he⟩

/-- In every reachable state in which the scheduler may run, having a ready task makes it return
exactly when it makes the walk reach one. -/
theorem scheduler_termination
    (h : Run (Guarded B (Unpromoted B)) (bootState B mem objs stack) es s)
    (hq : s.switchPending = false) :
    ((∃ k, Ready B s k) → Returns B s) ↔ ((∃ k, Ready B s k) → Reaches B s) := by
  obtain ⟨hs, hst⟩ := run_stash h
  exact imp_congr_right fun _ => returns_iff_reaches hs hq hst

section Instances

def fourSlots : Build := Build.four

def start : KernelState :=
  bootState fourSlots (fun _ => 0) (fun _ => ⟨0, 0, 1, 0, 0, 0, 0, 0⟩) (fun _ => 0)

def oneTask : List Event :=
  [.fillTask 10 ⟨0, 0, 5, 0, 0, 0, 0, 0⟩, .createTask 10 0, .startScheduler, .scheduler,
    .contextSwitch, .hibernate 1 100 101 1]

theorem scheduler_termination_oneTask : ∃ s,
    Run (Guarded fourSlots (Unpromoted fourSlots)) start oneTask s ∧ Ready fourSlots s 0 ∧
      (((∃ k, Ready fourSlots s k) → Returns fourSlots s) ↔
        ((∃ k, Ready fourSlots s k) → Reaches fourSlots s)) := by
  obtain ⟨s, hr, hq, h0⟩ := run_of_exec fourSlots 10 (Unpromoted fourSlots) start oneTask
    (fun s => s.switchPending = false ∧ Ready fourSlots s 0) (by decide +kernel)
  exact ⟨s, hr, h0, scheduler_termination hr hq⟩

/-- Alone in the system, the base task is ready when it hands over, and the walk lowers `lptr`
below 0. -/
theorem scheduler_termination_fails : ∃ s,
    Run (Guarded fourSlots (Unpromoted fourSlots)) start [.handOver] s ∧
      s.schedulerPending = true ∧ Ready fourSlots s 0 ∧ ∀ n, scheduler fourSlots n s = none := by
  obtain ⟨s, hr, hq, hp, h0, hcur, hone, hptr⟩ := run_of_exec fourSlots 10
    (Unpromoted fourSlots) start [.handOver]
    (fun s => s.switchPending = false ∧ s.schedulerPending = true ∧ Ready fourSlots s 0 ∧
      s.currentTask = 0 ∧ s.taskCount = 1 ∧ s.lstashPtr = 1) (by decide +kernel)
  obtain ⟨hs, hst⟩ := run_stash hr
  refine ⟨s, hr, hp, h0, fun n => Option.eq_none_iff_forall_ne_some.mpr fun t ht => ?_⟩
  rcases (returns_iff_reaches hs hq hst).mp ⟨t, n, ht⟩ with ⟨k, hne, hk, -⟩ | ⟨-, k, -, i, hi, -⟩
  · have hlive := (hs.live_enter hq).mp hk.1
    rw [hs.counted] at hone
    exact hne ((count_le_one hone.le hlive.1 hs.base.1 hlive.2 hs.base.2).trans hcur.symm)
  · omega

end Instances

end Skibios.Scheduling.Termination

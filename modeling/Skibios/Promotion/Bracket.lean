import Skibios.Promotion.Rungs

/-! The level counters across a promotion: from a state without promotions through the outermost
PRIORITY_DEMOTE. -/

namespace Skibios.Promotion.Bracket

open Function Library.Words Library.Loops Library.Counting Library.Runs
open Kernel State TaskServices Services Scheduler SchedulerLoops Events Effects
open Tasks Invariants Counters Rungs

variable {B : Build} {s t u v : KernelState} {e : Event} {es : List Event} {i k m : ℕ}
variable {prio : ℕ → ℕ} {state : ℕ → TaskState} {level a h : ℕ}

/-- The counters are exact for the priorities the tasks have without their promotions. -/
def BaseExact (B : Build) (s : KernelState) : Prop :=
  Exact B (basePrio s) s.state (baseLevel s) (baseAlc s) (baseHlc s)

structure Quiet (B : Build) (s : KernelState) : Prop where
  consistent : Consistent B s
  saved : s.maxpLevel = 127
  below : s.maxLevel < 127
  none : ∀ k < B.maxTaskCount, ¬ Promoted s k
  exact : CountersExact B s

/-- What may happen inside the bracket: while a task is promoted no task that belongs to the saved
top level is created, ends, hibernates or wakes, and none above it is created. -/
def Within (B : Build) (s : KernelState) : Event → Prop
  | .createTask p arg =>
    Regular B s (.createTask p arg) ∧ (s.objs p).priority < s.maxpLevel
  | .killTask pid => Regular B s (.killTask pid) ∧ ¬ Promoted s (slotNumber pid) ∧
      s.prioCurrent (slotNumber pid) ≠ s.maxpLevel
  | .endTask => Regular B s .endTask ∧ ¬ Promoted s s.currentTask ∧
      s.prioCurrent s.currentTask ≠ s.maxpLevel
  | .hibernate .. => basePrio s s.currentTask ≠ s.maxpLevel
  | .promote m => m ≠ 0 ∧ Live B s (s.mem m >>> 16) ∧ ¬ Promoted s (s.mem m >>> 16)
  | .unlockTest m => m ≠ 0 ∧ (s.mutexStash s.currentTask = m →
      s.prioCurrent s.currentTask = s.maxLevel ∧ s.maxLevel ≠ 128)
  | .tick | .scheduler => ∀ k < B.maxTaskCount, basePrio s k = s.maxpLevel →
      ¬ WakeCondition (enterScheduler s) k
  | .startScheduler => s.firstStart = true
  | .invokeBase _ | .releaseBase _ => False
  | _ => True

instance (s : KernelState) (e : Event) : Decidable (Within B s e) :=
  match e with
  | .createTask .. | .killTask _ | .endTask | .promote _ | .unlockTest _ =>
    inferInstanceAs (Decidable (_ ∧ _))
  | .hibernate .. => inferInstanceAs (Decidable (_ ≠ _))
  | .tick | .scheduler => inferInstanceAs (Decidable (∀ k < _, _ → _))
  | .startScheduler => inferInstanceAs (Decidable (_ = _))
  | .invokeBase _ | .releaseBase _ => isFalse id
  | .handOver | .grantPermission .. | .mutexLock _ | .clearMutex _ | .store .. | .fillTask ..
  | .contextSwitch => isTrue trivial

lemma remove (he : Exact B prio state level a h) (hp : prio i ≠ level) :
    Exact B prio (update state i .idle) level a h := by
  have hkeep : ∀ k, prio k = level → update state i .idle k = state k := by
    intro k hk
    apply update_of_ne
    rintro rfl
    exact hp hk
  constructor
  · constructor
    · obtain ⟨k, hk, hs, hpk⟩ := he.attained
      exact ⟨k, hk, by rwa [hkeep k hpk], hpk⟩
    · intro k hk hs
      exact he.highest k hk ((CountersExact.update_ne_idle_iff ..).mp hs).1
  · rw [he.awake]
    apply count_congr
    intro k _
    exact and_congr_left fun hpk => by rw [hkeep k hpk]
  · rw [he.hibernating]
    apply count_congr
    intro k _
    exact and_congr_left fun hpk => by rw [hkeep k hpk]

structure Inside (B : Build) (s : KernelState) : Prop where
  consistent : Consistent B s
  ladder : Ladder B s
  exact : BaseExact B s
  raised : Raised s
  saved : s.maxpLevel < 127

lemma Within.steady (h : Within B s e) (hi : Inside B s) (hs : e ≠ .startScheduler) :
    Steady B s e := by
  have hlevel := baseLevel_raised hi.raised
  cases e with
  | createTask => exact ⟨h.1, fun _ => hlevel ▸ h.2⟩
  | killTask | endTask => exact ⟨h.1, h.2.1⟩
  | promote =>
    refine ⟨h.1, h.2.1, h.2.2, iff_of_false ?_ (not_not.mpr hi.raised)⟩
    exact (hi.saved).ne
  | unlockTest => exact ⟨h.1, fun hm => (h.2 hm).1⟩
  | startScheduler => exact (hs rfl).elim
  | invokeBase | releaseBase => exact h.elim
  | _ => trivial

lemma SameBase.exact_iff (h : SameBase s t) : BaseExact B t ↔
    Exact B (basePrio s) t.state (baseLevel s) (baseAlc s) (baseHlc s) := by
  rw [BaseExact, h.level, h.alc, h.hlc, funext h.prio]

lemma same_base (hr : SameRungs s t) (hs : Raised s) (ha : t.alcp = s.alcp) (hh : t.hlcp = s.hlcp) :
    SameBase s t := by
  have ht := hr.raised.mpr hs
  refine ⟨fun k => congrFun hr.basePrio_eq k, hr.baseLevel_eq, ?_, ?_⟩
  · rw [baseAlc, baseAlc, if_pos ht, if_pos hs, ha]
  · rw [baseHlc, baseHlc, if_pos ht, if_pos hs, hh]

lemma current_awake (hs : Consistent B s) (hth : InThread s) : Awake (s.state s.currentTask) := by
  rcases hs.awake hth with hst | hst <;> rw [hst] <;> decide

lemma handOver_base (s : KernelState) : SameBase s (handOverState s) := by
  refine ⟨fun _ => rfl, ?_, ?_, ?_⟩ <;> rfl

lemma handed_exact (hs : Consistent B s) (hth : InThread s) (he : BaseExact B s) :
    BaseExact B (handOverState s) := by
  rw [SameBase.exact_iff (handOver_base s)]
  have hst : (handOverState s).state = update s.state s.currentTask .sleep := by
    dsimp only [handOverState]
    rw [hs.selfKill]
    rfl
  rw [hst]
  exact Exact.stir he (current_awake hs hth) (by decide)

lemma demoted_exact (hs : Consistent B s) (hl : Ladder B s) (he : BaseExact B s) (hth : InThread s)
    (hp : Promoted s s.currentTask) (htop : s.prioCurrent s.currentTask = s.maxLevel) :
    BaseExact B (handOverState (demoteCurrent B s)) := by
  have hsame := (hl.demote (hs.in_thread hth).2.1.1 hp htop).2
  apply handed_exact (hs.demote hth) hth
  rw [SameBase.exact_iff hsame]
  dsimp only [demoteCurrent]
  split
  · rename_i hw
    apply Exact.stir he
    · rw [(Consistent.waiter_hold hw).1]
      decide
    · decide
  · exact he

lemma scheduled_exact (h : Inside B s) (hq : s.switchPending = false) {w : KernelState}
    {c : Selection} (hsch : Scheduled B s w c)
    (hwake : ∀ k < B.maxTaskCount, basePrio s k = s.maxpLevel →
      ¬ WakeCondition (enterScheduler s) k) : BaseExact B (leaveScheduler w c) := by
  have hsame : SameBase s (leaveScheduler w c) := by
    apply same_base (scheduled_rungs hsch) h.raised
    all_goals
      obtain ⟨⟨st, a, b, hframe⟩, -⟩ := hsch.wakes
      rw [hframe]
      rfl
  have henter : ∀ k, Hibernating ((enterScheduler s).state k) ↔ Hibernating (s.state k) := by
    intro k
    cases hn : s.normalSchedule with
    | false => simp [enterScheduler, hn]
    | true =>
      have hth : InThread s := ⟨by simpa [hn] using h.consistent.flags, hq⟩
      simp only [enterScheduler, hn, if_true]
      rcases eq_or_ne k s.currentTask with rfl | hne
      · rw [update_self]
        exact iff_of_false (by decide) (current_awake h.consistent hth).2
      · rw [update_of_ne hne]
  rw [SameBase.exact_iff hsame]
  apply Exact.congr h.exact
  · intro k hk
    exact scheduled_idle_iff h.consistent hq hsch hk
  · intro k hk hp
    rw [baseLevel_raised h.raised] at hp
    have hkept : w.state k = (enterScheduler s).state k :=
      (hsch.wakes.slot k).resolve_right fun hw => hwake k hk hp hw.1
    dsimp only [leaveScheduler]
    rcases eq_or_ne k c.next with rfl | hne
    · rw [update_self, ← henter, ← hkept, hsch.chosen.sleeping]
      decide
    · rw [update_of_ne hne, hkept, henter]
  · intro k _ _
    rfl

lemma Inside.drop_exact (h : Inside B s) (selfKill : Bool) (ptr : ℕ) (stash : ℕ → ℕ) {k : ℕ}
    (h0 : k ≠ 0) (hp : ¬ Promoted s k) (hne : s.prioCurrent k ≠ s.maxpLevel) :
    BaseExact B (dropTask B s k selfKill ptr stash) ∧
      Raised (dropTask B s k selfKill ptr stash) := by
  have hbase := h.consistent.base
  have hsame := h.ladder.drop_base selfKill ptr stash hbase h0 hp h.raised
  refine ⟨(SameBase.exact_iff hsame).mpr (remove h.exact ?_),
    (h.ladder.drop_raised selfKill ptr stash hbase h0 hp).mpr h.raised⟩
  rwa [basePrio_of_not hp, baseLevel_raised h.raised]

lemma Inside.exact_step (h : Inside B s) (hok : Within B s e) (he : Effect B s e t) :
    BaseExact B t ∧ Raised t ∧ t.maxpLevel = s.maxpLevel := by
  have hlevel := baseLevel_raised h.raised
  have hs := h.consistent
  have hkeep : SameRungs s t → t.alcp = s.alcp → t.hlcp = s.hlcp →
      Exact B (basePrio s) t.state (baseLevel s) (baseAlc s) (baseHlc s) →
      BaseExact B t ∧ Raised t ∧ t.maxpLevel = s.maxpLevel := fun hr ha hh hx =>
    ⟨(SameBase.exact_iff (same_base hr h.raised ha hh)).mpr hx, hr.raised.mpr h.raised, hr.saved⟩
  cases he with
  | @created p arg ptr stash hth hc =>
    obtain ⟨hreg, hlt⟩ := hok
    have hadm := h.ladder.fill_admits arg ptr stash hc.slot hreg.2 hc.priority fun _ => hlevel ▸ hlt
    have hx := Exact.insert h.exact hc.slot (Table.idleSlot_idle hc.slot) hadm
    refine ⟨?_, (h.ladder.fill_raised arg ptr stash hc.slot hreg.2 hc.priority).mpr h.raised, rfl⟩
    have hst : (fillSlot B s p arg ptr stash).state = update s.state (idleSlot B s) .sleep :=
      Table.newState_eq hreg.2
    rw [BaseExact, h.ladder.fill_basePrio arg ptr stash hc.slot, hst]
    exact hx
  | started _ hf =>
    have hbegun : s.firstStart = true := hok
    exact Bool.noConfusion (hf.symm.trans hbegun)
  | @killed pid ptr stash hth hk =>
    obtain ⟨⟨hlive, h0, -⟩, hp, hne⟩ := hok
    obtain ⟨hx, hr⟩ := h.drop_exact s.selfKill ptr stash h0 hp hne
    exact ⟨hx, hr, rfl⟩
  | @ended ptr stash hth hk =>
    obtain ⟨⟨h0, hnum⟩, hp, hne⟩ := hok
    rw [hnum]
    obtain ⟨hx, hr⟩ := h.drop_exact true ptr stash h0 hp hne
    exact ⟨(SameBase.exact_iff (handOver_base _)).mpr hx, (handOver_rungs _).raised.mpr hr, rfl⟩
  | hibernated hth =>
    refine hkeep ⟨rfl, rfl, rfl, rfl, rfl⟩ rfl rfl ?_
    apply Exact.aside h.exact (hs.in_thread hth).2.1.2
    · split <;> decide
    · rw [hlevel]
      exact hok
  | handedOver hth =>
    have hx := handed_exact hs hth h.exact
    exact ⟨hx, h.raised, rfl⟩
  | promoted hth =>
    obtain ⟨hm, hlive, hp⟩ := hok
    obtain ⟨-, hsame, hr⟩ := h.ladder.promote (hs.in_thread hth).2.1 hm hlive hp
      (iff_of_false h.saved.ne (not_not.mpr h.raised))
    refine ⟨(SameBase.exact_iff hsame).mpr ?_, hr, ?_⟩
    · exact Exact.stir h.exact (current_awake hs hth) (by decide)
    · dsimp only [promoteSlot]
      rw [if_neg h.saved.ne]
  | demoted hth hm =>
    obtain ⟨hne, hin⟩ := hok
    obtain ⟨htop, h128⟩ := hin hm
    have hp : Promoted s s.currentTask := by rwa [Promoted, hm]
    have hlt := h.ladder.maxLevel_lt
    refine ⟨demoted_exact hs h.ladder h.exact hth hp htop, ?_, ?_⟩
    · change 128 ≤ (demoteCurrent B s).maxLevel
      have hr : 128 ≤ s.maxLevel := h.raised
      rw [Ladder.demote_maxLevel h.raised hlt, if_neg h128]
      omega
    · change (demoteCurrent B s).maxpLevel = s.maxpLevel
      rw [Ladder.demote_maxpLevel h.raised hlt, if_neg h128]
  | ticked hth _ hsch =>
    have hr := scheduled_rungs hsch
    exact ⟨scheduled_exact h hth.2 hsch hok, hr.raised.mpr h.raised, hr.saved⟩
  | scheduled _ hq hsch =>
    have hr := scheduled_rungs hsch
    exact ⟨scheduled_exact h hq hsch hok, hr.raised.mpr h.raised, hr.saved⟩
  | invokeRefused | invoked | releaseRefused | released => exact hok.elim
  | _ => exact hkeep ⟨rfl, rfl, rfl, rfl, rfl⟩ rfl rfl h.exact

lemma Inside.step (h : Inside B s) (hok : Within B s e) (he : Effect B s e t) : Inside B t := by
  by_cases hne : e = .startScheduler
  · subst hne
    cases he with
    | started _ hf =>
      have hbegun : s.firstStart = true := hok
      exact Bool.noConfusion (hf.symm.trans hbegun)
    | alreadyStarted => exact h
  · have hst := hok.steady h hne
    obtain ⟨hx, hr, hl⟩ := h.exact_step hok he
    have hladder := h.ladder.step h.consistent (fun heq => absurd heq hne) hst he
    exact ⟨h.consistent.step hst.regular he, hladder, hx, hr, hl ▸ h.saved⟩

lemma Quiet.ladder (h : Quiet B s) : Ladder B s := by
  have hflat : ¬ Raised s := by
    have hlt := h.below
    rw [Raised]
    omega
  constructor
  · exact fun k hk hp => (h.none k hk hp).elim
  · exact fun k hk hp => (h.none k hk hp).elim
  · exact fun j hj k hk hp => (h.none j hj hp).elim
  · intro v hv hle
    rw [Raised] at hflat
    omega
  · rw [baseLevel_flat hflat]
    exact h.below.le
  · intro k hk hs
    rw [basePrio_of_not (h.none k hk), baseLevel_flat hflat]
    exact h.exact.highest k hk hs

lemma base_exact_iff (hf : ¬ Raised s) (hn : ∀ k < B.maxTaskCount, ¬ Promoted s k) :
    BaseExact B s ↔ CountersExact B s := by
  rw [BaseExact, baseLevel_flat hf, baseAlc, baseHlc, if_neg hf, if_neg hf]
  constructor
  · intro h
    exact h.congr (fun _ _ => Iff.rfl) (fun _ _ _ => Iff.rfl) fun k hk _ =>
      (basePrio_of_not (hn k hk)).symm
  · intro h
    exact h.congr (fun _ _ => Iff.rfl) (fun _ _ _ => Iff.rfl) fun k hk _ => basePrio_of_not (hn k hk)

lemma Quiet.opened (h : Quiet B s) (hok : Within B s (.promote m)) (he : Effect B s (.promote m) t) :
    Inside B t := by
  have hflat : ¬ Raised s := by
    have hlt := h.below
    rw [Raised]
    omega
  obtain ⟨hm, hlive, hp⟩ := hok
  cases he with
  | promoted hth =>
    have hs := h.consistent
    obtain ⟨hl, hsame, hr⟩ := h.ladder.promote (hs.in_thread hth).2.1 hm hlive hp
      (iff_of_true h.saved hflat)
    refine ⟨hs.promote hth _ _, hl, (SameBase.exact_iff hsame).mpr ?_, hr, ?_⟩
    · exact Exact.stir ((base_exact_iff hflat h.none).mpr h.exact) (current_awake hs hth) (by decide)
    · dsimp only [promoteSlot]
      rw [if_pos h.saved]
      exact h.below

lemma Inside.closed (h : Inside B s) (hth : InThread s) (hp : Promoted s s.currentTask)
    (hlast : s.maxLevel = 128) : CountersExact B (handOverState (demoteCurrent B s)) := by
  have hs := h.consistent
  have hc := (hs.in_thread hth).2.1
  have hrung := h.ladder.rung _ hc.1 hp
  have htop : s.prioCurrent s.currentTask = s.maxLevel := by omega
  have hx := demoted_exact hs h.ladder h.exact hth hp htop
  have hl := (h.ladder.demote hc.1 hp htop).1
  have hlevel := h.ladder.level
  rw [baseLevel_raised h.raised] at hlevel
  have hflat : ¬ Raised (demoteCurrent B s) := by
    rw [Raised, Ladder.demote_maxLevel h.raised h.ladder.maxLevel_lt, if_pos hlast]
    omega
  have hsame := handOver_rungs (demoteCurrent B s)
  refine (base_exact_iff (mt hsame.raised.mp hflat) fun k hk => ?_).mp hx
  exact mt hsame.promoted.mp (hl.not_promoted hflat hk)

/-- From a state without promotions through the first PRIORITY_PROMOTE to the PRIORITY_DEMOTE that
ends the last promotion. -/
theorem promotion_bracket (hs : Quiet B s) (ho : Guarded B (Within B) s (.promote m) u)
    (hr : Run (Guarded B (Within B)) u es v) (hd : Step B v (.unlockTest m) t)
    (hm : v.mutexStash v.currentTask = m) (hlast : v.maxLevel = 128) : CountersExact B t := by
  have hu := hs.opened ho.1 (step_effect ho.2)
  have hv : Inside B v := hr.invariant (fun _ _ _ hi hg => hi.step hg.1 (step_effect hg.2)) hu
  cases step_effect hd with
  | kept _ hne => exact (hne hm).elim
  | demoted hth =>
    apply hv.closed hth _ hlast
    rw [Promoted, hm]
    exact ho.1.1

section Instances

def fiveSlots : Build := Build.five

def taskAt (priority : ℕ) : TaskObject := ⟨0, 0, priority, 0, 0, 0, 0, 0⟩

def start : KernelState := bootState fiveSlots (fun _ => 0) (fun _ => taskAt 1) (fun _ => 0)

def quiet : KernelState := after fiveSlots 20 (Recounted fiveSlots) start
  [.fillTask 10 (taskAt 1), .createTask 10 0, .fillTask 11 (taskAt 5), .createTask 11 0,
    .startScheduler, .scheduler, .contextSwitch, .store 200 65538]

def opened : KernelState := promoteSlot quiet 200 (quiet.mem 200 >>> 16)

def creating (priority : ℕ) : List Event :=
  [.scheduler, .contextSwitch, .fillTask 12 (taskAt priority), .createTask 12 0]

def below : KernelState := after fiveSlots 20 (Within fiveSlots) opened (creating 2)
def above : KernelState := after fiveSlots 20 (Regular fiveSlots) opened (creating 6)

lemma quiet_quiet : Quiet fiveSlots quiet := by
  have hr : Run (Guarded fiveSlots (Recounted fiveSlots)) start _ quiet :=
    run_after (by decide +kernel)
  obtain ⟨hs, hc⟩ := run_counters hr
  exact ⟨hs, by decide +kernel, by decide +kernel, by decide +kernel, hc⟩

lemma opening : Step fiveSlots quiet (.promote 200) opened :=
  ⟨0, step_promote (by decide +kernel) (by decide +kernel)⟩

theorem promotion_bracket_below :
    CountersExact fiveSlots (handOverState (demoteCurrent fiveSlots below)) := by
  have hr : Run (Guarded fiveSlots (Within fiveSlots)) opened _ below :=
    run_after (by decide +kernel)
  have hm : below.mutexStash below.currentTask = 200 := by decide +kernel
  exact promotion_bracket quiet_quiet ⟨by decide +kernel, opening⟩ hr
    ⟨0, step_demote (by decide +kernel) hm⟩ hm (by decide +kernel)

/-- A task of priority 6 is created while the saved level is 5. -/
theorem promotion_bracket_fails : Quiet fiveSlots quiet ∧ Step fiveSlots quiet (.promote 200) opened ∧
    Run (Guarded fiveSlots (Regular fiveSlots)) opened (creating 6) above ∧
    Step fiveSlots above (.unlockTest 200) (handOverState (demoteCurrent fiveSlots above)) ∧
    above.mutexStash above.currentTask = 200 ∧ above.maxLevel = 128 ∧
    ¬ CountersExact fiveSlots (handOverState (demoteCurrent fiveSlots above)) := by
  have hm : above.mutexStash above.currentTask = 200 := by decide +kernel
  refine ⟨quiet_quiet, opening, run_after (by decide +kernel),
    ⟨0, step_demote (by decide +kernel) hm⟩, hm, by decide +kernel, fun hc => ?_⟩
  have hlive : (handOverState (demoteCurrent fiveSlots above)).state 3 ≠ .idle := by decide +kernel
  have hle := hc.highest 3 (by decide) hlive
  exact absurd hle (by decide +kernel)

end Instances

end Skibios.Promotion.Bracket

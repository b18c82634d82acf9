import Skibios.Promotion.Rungs

/-! When `scheduler()` may leave the timer off: the sum of the two counters, saved or in force. -/

namespace Skibios.Promotion.TickGating

open Function Library.Words Library.Loops Library.Counting Library.Runs
open Kernel State TaskServices Services Scheduler SchedulerLoops Events Effects
open Tasks Invariants Counters Rungs

variable {B : Build} {s t : KernelState} {e : Event} {es : List Event} {i k : ℕ}

def AtLevel (prio : ℕ → ℕ) (state : ℕ → TaskState) (level k : ℕ) : Prop :=
  state k ≠ .idle ∧ prio k = level

instance (prio : ℕ → ℕ) (state : ℕ → TaskState) (level : ℕ) : DecidablePred (AtLevel prio state level) :=
  fun _ => inferInstanceAs (Decidable (_ ∧ _))

/-- `alc + hlc` counts every live task of the level, and perhaps some slots too many. -/
def Tally (B : Build) (prio : ℕ → ℕ) (state : ℕ → TaskState) (level a h : ℕ) : Prop :=
  ∃ u < B.maxTaskCount, (a + h) % 256 = count B.maxTaskCount (AtLevel prio state level) + u

def BaseTally (B : Build) (s : KernelState) : Prop :=
  Tally B (basePrio s) s.state (baseLevel s) (baseAlc s) (baseHlc s)

namespace Tally

variable {prio : ℕ → ℕ} {state state' : ℕ → TaskState} {level a h a' h' : ℕ}

lemma congr (ht : Tally B prio state level a h)
    (hi : ∀ k < B.maxTaskCount, state' k = .idle ↔ state k = .idle)
    (hs : (a' + h') % 256 = (a + h) % 256) : Tally B prio state' level a' h' := by
  obtain ⟨u, hu, he⟩ := ht
  refine ⟨u, hu, ?_⟩
  rw [hs, he]
  congr 1
  apply count_congr
  intro k hk
  exact and_congr_left fun _ => not_congr (hi k hk).symm

lemma insert (ht : Tally B prio state level a h) (hi : i < B.maxTaskCount) (hidle : state i = .idle)
    (hle : ∀ k < B.maxTaskCount, state k ≠ .idle → prio k ≤ level) {q l : ℕ}
    (hq : Admits level a h q l a' h') :
    Tally B (update prio i q) (update state i .sleep) l a' h' := by
  have hN := B.maxTaskCount_le
  have hnew : AtLevel (update prio i q) (update state i .sleep) q i := by
    refine ⟨?_, update_self ..⟩
    rw [update_self]
    decide
  have hold : ∀ v k, k ≠ i →
      (AtLevel (update prio i q) (update state i .sleep) v k ↔ AtLevel prio state v k) := by
    intro v k hne
    rw [AtLevel, AtLevel, update_of_ne hne, update_of_ne hne]
  have hnone : ∀ v, ¬ AtLevel prio state v i := fun v hv => hv.1 hidle
  obtain ⟨u, hu, he⟩ := ht
  cases hq with
  | above hq =>
    refine ⟨0, B.maxTaskCount_pos, ?_⟩
    rw [count_insert (p := fun _ => False) hi id hnew, count_eq_zero_iff.mpr fun _ _ => id]
    intro k hk hne
    refine iff_of_false id fun hl => ?_
    obtain ⟨hs, hp⟩ := (hold _ k hne).mp hl
    have hbound := hle k hk hs
    omega
  | level hq =>
    refine ⟨u, hu, ?_⟩
    have hone := count_insert (p := AtLevel prio state level)
      (q := AtLevel (update prio i q) (update state i .sleep) level) hi (hnone _) (hq ▸ hnew)
      fun k _ hne => (hold _ k hne).symm
    have hbound := count_le B.maxTaskCount (AtLevel (update prio i q) (update state i .sleep) level)
    rw [hone] at hbound ⊢
    rw [uint8]
    omega
  | below hq =>
    refine ⟨u, hu, ?_⟩
    rw [he]
    congr 1
    apply count_congr
    intro k _
    rcases eq_or_ne k i with rfl | hne
    · exact iff_of_false (hnone _) fun hl => by rw [AtLevel, update_self, update_self] at hl; omega
    · exact (hold _ k hne).symm

lemma remove (ht : Tally B prio state level a h) (hp : prio i ≠ level) :
    Tally B prio (update state i .idle) level a h := by
  obtain ⟨u, hu, he⟩ := ht
  refine ⟨u, hu, ?_⟩
  rw [he]
  congr 1
  apply count_congr
  intro k _
  apply and_congr_left
  rintro rfl
  rw [update_of_ne]
  rintro rfl
  exact hp rfl

lemma recounted (h0 : state 0 ≠ .idle) : Tally B prio state level (recount B prio state level).1
    (recount B prio state level).2 := by
  have hN := B.maxTaskCount_le
  rw [recount_eq]
  refine ⟨count B.maxTaskCount (fun k => state k = .idle ∧ prio k = level), ?_, ?_⟩
  · have hone := count_insert (n := B.maxTaskCount)
      (p := fun k => state k = .idle ∧ prio k = level)
      (q := fun k => k = 0 ∨ state k = .idle ∧ prio k = level)
      B.maxTaskCount_pos (fun h => h0 h.1) (Or.inl rfl) fun k _ hk => (or_iff_right hk).symm
    have hle := count_le B.maxTaskCount (fun k => k = 0 ∨ state k = .idle ∧ prio k = level)
    omega
  · have hle := count_le B.maxTaskCount (fun k => prio k = level)
    rw [count_add fun k _ hk => hk.1.1 hk.2.1]
    dsimp only
    rw [Nat.add_zero, Nat.mod_eq_of_lt (by omega)]
    apply count_congr
    intro k _
    by_cases hi : state k = .idle <;> simp [AtLevel, hi]

lemma unique (ht : Tally B prio state level 1 0) (hi : i < B.maxTaskCount)
    (hk : k < B.maxTaskCount) (hli : AtLevel prio state level i) (hlk : AtLevel prio state level k) :
    k = i := by
  obtain ⟨u, -, he⟩ := ht
  have hone : count B.maxTaskCount (AtLevel prio state level) ≤ 1 := by omega
  exact count_le_one hone hk hi hlk hli

lemma congr_prio {prio' : ℕ → ℕ} (ht : Tally B prio state level a h)
    (hp : ∀ k < B.maxTaskCount, prio' k = prio k) : Tally B prio' state level a h := by
  obtain ⟨u, hu, he⟩ := ht
  refine ⟨u, hu, ?_⟩
  rw [he]
  congr 1
  apply count_congr
  intro k hk
  rw [AtLevel, AtLevel, hp k hk]

end Tally

lemma base_sum (hr : SameRungs s t) (ha : t.alcp = s.alcp) (hh : t.hlcp = s.hlcp)
    (hs : (t.alc + t.hlc) % 256 = (s.alc + s.hlc) % 256) :
    (baseAlc t + baseHlc t) % 256 = (baseAlc s + baseHlc s) % 256 := by
  by_cases hraised : Raised s
  · rw [baseAlc, baseHlc, baseAlc, baseHlc]
    simp only [if_pos hraised, if_pos (hr.raised.mpr hraised), ha, hh]
  · rw [baseAlc, baseHlc, baseAlc, baseHlc]
    simp only [if_neg hraised, if_neg (mt hr.raised.mp hraised), hs]

lemma tally_keep (ht : BaseTally B s) (hr : SameRungs s t) (ha : t.alcp = s.alcp)
    (hh : t.hlcp = s.hlcp) (hs : (t.alc + t.hlc) % 256 = (s.alc + s.hlc) % 256)
    (hi : ∀ k < B.maxTaskCount, t.state k = .idle ↔ s.state k = .idle) : BaseTally B t := by
  rw [BaseTally, hr.basePrio_eq, hr.baseLevel_eq]
  exact Tally.congr ht hi (base_sum hr ha hh hs)

lemma tally_same (ht : BaseTally B s) (hb : SameBase s t)
    (hi : ∀ k < B.maxTaskCount, t.state k = .idle ↔ s.state k = .idle) : BaseTally B t := by
  rw [BaseTally, funext hb.prio, hb.level]
  apply Tally.congr ht hi
  rw [hb.alc, hb.hlc]

lemma hibernate_sum (s : KernelState) (n a b v : ℕ) :
    ((hibernateState s n a b v).alc + (hibernateState s n a b v).hlc) % 256 =
      (s.alc + s.hlc) % 256 := by
  dsimp only [hibernateState]
  split
  · rw [uint8, uint8]
    omega
  · rfl

lemma wakeSlot_sum (s : KernelState) (k : ℕ) :
    ((wakeSlot s k).alc + (wakeSlot s k).hlc) % 256 = (s.alc + s.hlc) % 256 := by
  dsimp only [wakeSlot]
  split
  · rw [uint8, uint8]
    omega
  · rfl

lemma scheduled_sum {w : KernelState} {c : Selection} (h : Scheduled B s w c) :
    ((leaveScheduler w c).alc + (leaveScheduler w c).hlc) % 256 = (s.alc + s.hlc) % 256 := by
  obtain ⟨n, hn⟩ := h.woken
  have henter : ((enterScheduler s).alc + (enterScheduler s).hlc) % 256 = (s.alc + s.hlc) % 256 := rfl
  have hw : (w.alc + w.hlc) % 256 = (s.alc + s.hlc) % 256 :=
    wake_pass_invariant (I := fun t => (t.alc + t.hlc) % 256 = (s.alc + s.hlc) % 256)
      (fun t k _ ht => (wakeSlot_sum t k).trans ht) henter hn
  exact hw

/-- Promotions as the rungs need them, and no end of a task of the saved level while a task is
promoted. -/
def Orderly (B : Build) (s : KernelState) (e : Event) : Prop :=
  Steady B s e ∧
    match e with
    | .killTask pid => Raised s → s.prioCurrent (slotNumber pid) ≠ s.maxpLevel
    | .endTask => Raised s → s.prioCurrent s.currentTask ≠ s.maxpLevel
    | _ => True

instance (s : KernelState) (e : Event) : Decidable (Orderly B s e) :=
  match e with
  | .killTask _ | .endTask => inferInstanceAs (Decidable (_ ∧ (_ → _)))
  | .createTask .. | .startScheduler | .hibernate .. | .handOver | .invokeBase _ | .releaseBase _
  | .grantPermission .. | .promote _ | .mutexLock _ | .clearMutex _ | .unlockTest _ | .store ..
  | .fillTask .. | .tick | .scheduler | .contextSwitch => inferInstanceAs (Decidable (_ ∧ True))

structure Gated (B : Build) (s : KernelState) : Prop where
  consistent : Consistent B s
  ladder : Ladder B s
  tally : BaseTally B s
  before : s.firstStart = false → s.maxpLevel = 0 ∧ ¬ Raised s

namespace Gated

variable (h : Gated B s)
include h

lemma dropped (h0 : i ≠ 0) (hp : ¬ Promoted s i) (hne : Raised s → s.prioCurrent i ≠ s.maxpLevel)
    (f : Bool) (ptr : ℕ) (stash : ℕ → ℕ) : BaseTally B (dropTask B s i f ptr stash) := by
  have hs := h.consistent
  by_cases hr : Raised s
  · have hb := h.ladder.drop_base f ptr stash hs.base h0 hp hr
    rw [BaseTally, funext hb.prio, hb.level, hb.alc, hb.hlc]
    apply Tally.remove h.tally
    rw [basePrio_of_not hp, baseLevel_raised hr]
    exact hne hr
  · have hflat := mt (h.ladder.drop_raised f ptr stash hs.base h0 hp).mp hr
    rw [BaseTally, baseLevel_flat hflat, baseAlc, baseHlc, if_neg hflat, if_neg hflat]
    have hbase : (dropTask B s i f ptr stash).state 0 ≠ .idle :=
      (CountersExact.update_ne_idle_iff ..).mpr ⟨hs.base.2, h0.symm⟩
    refine Tally.congr_prio (Tally.recounted hbase) fun k hk => ?_
    exact basePrio_of_not (h.ladder.not_promoted hr hk)

lemma tally_step (hok : Orderly B s e) (he : Effect B s e t) : BaseTally B t := by
  have hs := h.consistent
  obtain ⟨hst, hx⟩ := hok
  cases he with
  | @created p arg ptr stash hth hc =>
    have hstate : (fillSlot B s p arg ptr stash).state = update s.state (idleSlot B s) .sleep :=
      Table.newState_eq hst.1.2
    rw [BaseTally, h.ladder.fill_basePrio arg ptr stash hc.slot, hstate]
    exact Tally.insert h.tally hc.slot (Table.idleSlot_idle hc.slot) h.ladder.highest
      (h.ladder.fill_admits arg ptr stash hc.slot hst.1.2 hc.priority hst.2)
  | started hth hf =>
    have hflat := (h.before hf).2
    have hbegin : BaseTally B (startState B { s with currentTask := 0 }) := by
      have hflat' : ¬ Raised (startState B { s with currentTask := 0 }) := hflat
      have htally := h.tally
      rw [BaseTally, baseLevel_flat hflat, baseAlc, baseHlc, if_neg hflat, if_neg hflat] at htally
      rw [BaseTally, baseLevel_flat hflat', baseAlc, baseHlc, if_neg hflat', if_neg hflat']
      exact htally
    exact tally_keep hbegin (handOver_rungs _) rfl rfl rfl fun k _ => handOver_idle_iff hs.base k
  | @killed pid ptr stash hth hk => exact h.dropped hst.1.2.1 hst.2 hx s.selfKill ptr stash
  | @ended ptr stash hth hk =>
    obtain ⟨⟨h0, hnum⟩, hp⟩ := hst
    rw [hnum]
    exact tally_keep (h.dropped h0 hp hx true ptr stash) (handOver_rungs _) rfl rfl rfl
      fun _ _ => Iff.rfl
  | hibernated hth =>
    refine tally_keep h.tally ⟨rfl, rfl, rfl, rfl, rfl⟩ rfl rfl (hibernate_sum ..) fun k _ => ?_
    refine update_idle_iff (hs.in_thread hth).2.1.2 ?_ k
    split <;> decide
  | handedOver hth =>
    exact tally_keep h.tally (handOver_rungs s) rfl rfl rfl
      fun k _ => handOver_idle_iff (hs.in_thread hth).2.1 k
  | promoted hth =>
    obtain ⟨hm, hlive, hp, hl⟩ := hst
    have hc := (hs.in_thread hth).2.1
    refine tally_same h.tally (h.ladder.promote hc hm hlive hp hl).2.1 fun k _ => ?_
    exact update_idle_iff hc.2 (by decide) k
  | demoted hth hm =>
    obtain ⟨hne, htop⟩ := hst
    have hc := (hs.in_thread hth).2.1
    have hp : Promoted s s.currentTask := by rwa [Promoted, hm]
    have hc' : Live B (demoteCurrent B s) (demoteCurrent B s).currentTask :=
      ⟨hc.1, mt (Consistent.demote_idle_iff s _).mp hc.2⟩
    have hd : BaseTally B (demoteCurrent B s) :=
      tally_same h.tally (h.ladder.demote hc.1 hp (htop hm)).2 fun k _ =>
        Consistent.demote_idle_iff s k
    exact tally_keep hd (handOver_rungs _) rfl rfl rfl fun k _ => handOver_idle_iff hc' k
  | ticked hth _ hsch =>
    refine tally_keep h.tally (scheduled_rungs hsch) ?_ ?_ (scheduled_sum hsch) fun k hk =>
      scheduled_idle_iff hs hth.2 hsch hk
    all_goals
      obtain ⟨⟨st, a, b, hframe⟩, -⟩ := hsch.wakes
      rw [hframe]
      rfl
  | scheduled _ hq hsch =>
    refine tally_keep h.tally (scheduled_rungs hsch) ?_ ?_ (scheduled_sum hsch) fun k hk =>
      scheduled_idle_iff hs hq hsch hk
    all_goals
      obtain ⟨⟨st, a, b, hframe⟩, -⟩ := hsch.wakes
      rw [hframe]
      rfl
  | invokeRefused | invoked | releaseRefused | released => exact hst.elim
  | _ => exact tally_keep h.tally ⟨rfl, rfl, rfl, rfl, rfl⟩ rfl rfl rfl fun _ _ => Iff.rfl

lemma advance (hok : Orderly B s e) (he : Effect B s e t) : Gated B t := by
  have hreg := hok.1.regular
  have hladder := h.ladder.step h.consistent (fun _ hf => (h.before hf).2) hok.1 he
  refine ⟨h.consistent.step hreg he, hladder, h.tally_step hok he, ?_⟩
  have hs := h.consistent
  have hkeep : SameRungs s t → t.firstStart = s.firstStart →
      (t.firstStart = false → t.maxpLevel = 0 ∧ ¬ Raised t) := by
    intro hr hf hft
    obtain ⟨hz, hn⟩ := h.before (hf ▸ hft)
    exact ⟨hr.saved.trans hz, mt hr.raised.mp hn⟩
  cases he with
  | @created p arg ptr stash hth hc =>
    intro hf
    obtain ⟨hz, hn⟩ := h.before hf
    exact ⟨hz, mt (h.ladder.fill_raised arg ptr stash hc.slot hreg.2 hc.priority).mp hn⟩
  | started => exact fun hf => Bool.noConfusion hf
  | @killed pid ptr stash hth hk =>
    intro hf
    obtain ⟨hz, hn⟩ := h.before hf
    exact ⟨hz, mt (h.ladder.drop_raised s.selfKill ptr stash hs.base hok.1.1.2.1 hok.1.2).mp hn⟩
  | @ended ptr stash hth hk =>
    obtain ⟨⟨⟨h0, hnum⟩, hp⟩, -⟩ := hok
    rw [hnum]
    intro hf
    obtain ⟨hz, hn⟩ := h.before hf
    exact ⟨hz, mt (h.ladder.drop_raised true ptr stash hs.base h0 hp).mp hn⟩
  | promoted hth =>
    intro hf
    obtain ⟨hz, hn⟩ := h.before hf
    exact absurd (hok.1.2.2.2.mpr hn) (by omega)
  | demoted hth hm =>
    intro hf
    have hp : Promoted s s.currentTask := by
      rw [Promoted, hm]
      exact hok.1.1
    exact absurd hp (h.ladder.not_promoted (h.before hf).2 (hs.in_thread hth).2.1.1)
  | ticked hth _ hsch | scheduled _ _ hsch =>
    refine hkeep (scheduled_rungs hsch) ?_
    obtain ⟨⟨st, a, b, hframe⟩, -⟩ := hsch.wakes
    rw [hframe]
    rfl
  | invokeRefused | invoked | releaseRefused | released => exact hok.1.elim
  | _ => exact hkeep ⟨rfl, rfl, rfl, rfl, rfl⟩ rfl

omit h in
lemma chosen_alone {w : KernelState} {c : Selection} (hsch : Scheduled B s w c) (ht : Gated B (leaveScheduler w c))
    (hoff : (leaveScheduler w c).timer = false) (hk : Live B (leaveScheduler w c) k)
    (hle : (leaveScheduler w c).prioCurrent c.next ≤ (leaveScheduler w c).prioCurrent k) :
    k = c.next := by
  have hpick : Live B (leaveScheduler w c) c.next := ht.consistent.next
  have hgate : (w.alc = 1 ∧ w.hlc = 0) ∧ c.level = w.maxLevel := by
    simpa [leaveScheduler] using hoff
  obtain ⟨⟨ha, hh⟩, hlevel⟩ := hgate
  have htop : (leaveScheduler w c).prioCurrent c.next = (leaveScheduler w c).maxLevel :=
    hsch.chosen.level.trans hlevel
  rw [htop] at hle
  by_cases hr : Raised (leaveScheduler w c)
  · obtain ⟨i, hi, -, hmax⟩ := ht.ladder.top hr
    exact (hmax k hk.1 hk.2 hle).trans (hmax _ hpick.1 hpick.2 htop.ge).symm
  · have htally := ht.tally
    rw [BaseTally, baseLevel_flat hr, baseAlc, baseHlc, if_neg hr, if_neg hr] at htally
    have hone : Tally B (basePrio (leaveScheduler w c)) (leaveScheduler w c).state
        (leaveScheduler w c).maxLevel 1 0 := by
      rw [← ha, ← hh]
      exact htally
    have hbase : ∀ j < B.maxTaskCount,
        basePrio (leaveScheduler w c) j = (leaveScheduler w c).prioCurrent j :=
      fun j hj => basePrio_of_not (ht.ladder.not_promoted hr hj)
    apply hone.unique hpick.1 hk.1
    · exact ⟨hpick.2, (hbase _ hpick.1).trans htop⟩
    · exact ⟨hk.2, (hbase k hk.1).trans (le_antisymm (ht.ladder.prio_le hk.1 hk.2) hle)⟩

end Gated

lemma booted_gated (B : Build) (mem : ℕ → ℕ) (objs : ℕ → TaskObject) (stack : ℕ → ℕ) :
    Gated B (booted B mem objs stack) := by
  have hc := CountersExact.booted B mem objs stack
  have hflat : ¬ Raised (booted B mem objs stack) := by
    change ¬ 128 ≤ 0
    decide
  have hnot : ∀ k, ¬ Promoted (booted B mem objs stack) k := fun k hp => hp rfl
  refine ⟨booted_consistent B mem objs stack, ⟨fun k _ hp => (hnot k hp).elim,
    fun k _ hp => (hnot k hp).elim, fun j _ k _ hp => (hnot j hp).elim, ?_, ?_, ?_⟩, ?_, ?_⟩
  · intro v hv hle
    change v ≤ 0 at hle
    omega
  · rw [baseLevel_flat hflat]
    exact Nat.zero_le _
  · intro k hk hs
    rw [basePrio_of_not (hnot k), baseLevel_flat hflat]
    exact hc.highest k hk hs
  · refine ⟨0, B.maxTaskCount_pos, ?_⟩
    rw [baseLevel_flat hflat, baseAlc, baseHlc, if_neg hflat, if_neg hflat]
    have hone := count_insert (n := B.maxTaskCount) (p := fun _ => False)
      (q := AtLevel (basePrio (booted B mem objs stack)) (booted B mem objs stack).state 0)
      B.maxTaskCount_pos id ⟨((booted_live B mem objs stack 0).mpr rfl).2, rfl⟩
      fun k hk hne => iff_of_false id fun hl => hne ((booted_live B mem objs stack k).mp ⟨hk, hl.1⟩)
    rw [count_eq_zero_iff.mpr fun _ _ => id] at hone
    exact hone.symm
  · exact fun _ => ⟨rfl, hflat⟩

variable {mem : ℕ → ℕ} {objs : ℕ → TaskObject} {stack : ℕ → ℕ}

lemma run_gated (h : Run (Guarded B (Orderly B)) (bootState B mem objs stack) es s) : Gated B s := by
  obtain ⟨objs', stack', hb⟩ := bootState_eq B mem objs stack
  rw [hb] at h
  exact h.invariant (fun _ _ _ hs hg => hs.advance hg.1 (step_effect hg.2)) (booted_gated B mem objs' stack')

/-- In every orderly run, whenever `scheduler()` leaves the timer off no other task that could run
has the chosen task's priority or a higher one. -/
theorem tick_gating (h : Run (Guarded B (Orderly B)) (bootState B mem objs stack) es s)
    (he : e = .tick ∨ e = .scheduler) (hstep : Step B s e t) (hoff : t.timer = false) :
    ∀ k, Live B t k → t.state k = .sleep ∨ t.state k = .active →
      t.prioCurrent t.nextTask ≤ t.prioCurrent k → k = t.nextTask := by
  have hs := run_gated h
  have heff := step_effect hstep
  have hok : Orderly B s e := by
    rcases he with rfl | rfl <;> exact ⟨trivial, trivial⟩
  have ht := hs.advance hok heff
  intro k hk _ hle
  rcases he with rfl | rfl
  · cases heff with
    | ticked _ _ hsch => exact Gated.chosen_alone hsch ht hoff hk hle
  · cases heff with
    | scheduled _ _ hsch => exact Gated.chosen_alone hsch ht hoff hk hle

section Instances

def fourSlots : Build := Build.four

def newTask (p priority : ℕ) : List Event :=
  [.fillTask p ⟨0, 0, priority, 0, 0, 0, 0, 0⟩, .createTask p 0]

def dispatch : List Event := [.scheduler, .contextSwitch]

def start : KernelState :=
  bootState fourSlots (fun _ => 0) (fun _ => ⟨0, 0, 1, 0, 0, 0, 0, 0⟩) (fun _ => 0)

/-- The holder (priority 1) locks 200 while the task of priority 5 hibernates; that one wakes,
promotes the holder, and the holder runs. -/
def contention : List Event :=
  newTask 10 1 ++ newTask 11 5 ++ [.startScheduler] ++ dispatch ++ [.hibernate 2 100 101 1] ++
    dispatch ++ [.mutexLock 200, .store 100 1, .tick, .contextSwitch, .mutexLock 200, .promote 200] ++
    dispatch

def release (priority : ℕ) : List Event := newTask 12 priority ++ [.clearMutex 200, .unlockTest 200]

def calm : KernelState := after fourSlots 20 (Orderly fourSlots) start (contention ++ release 2)
def starved : KernelState := after fourSlots 20 (Regular fourSlots) start (contention ++ release 6)

theorem tick_gating_calm : ((step fourSlots 20 calm .scheduler).getD calm).timer = false ∧
    ∀ k, Live fourSlots ((step fourSlots 20 calm .scheduler).getD calm) k →
      ((step fourSlots 20 calm .scheduler).getD calm).state k = .sleep ∨
        ((step fourSlots 20 calm .scheduler).getD calm).state k = .active →
      ((step fourSlots 20 calm .scheduler).getD calm).prioCurrent
          ((step fourSlots 20 calm .scheduler).getD calm).nextTask ≤
        ((step fourSlots 20 calm .scheduler).getD calm).prioCurrent k →
      k = ((step fourSlots 20 calm .scheduler).getD calm).nextTask := by
  have hr : Run (Guarded fourSlots (Orderly fourSlots)) start (contention ++ release 2) calm :=
    run_after (by decide +kernel)
  have hoff : ((step fourSlots 20 calm .scheduler).getD calm).timer = false := by decide +kernel
  exact ⟨hoff, tick_gating hr (Or.inr rfl) (step_getD (by decide +kernel)) hoff⟩

/-- The new task has priority 6, the level that comes back is 5, and the timer stays off. -/
theorem tick_gating_fails : ∃ t,
    Run (Guarded fourSlots (Regular fourSlots)) start (contention ++ release 6) starved ∧
      Step fourSlots starved .scheduler t ∧ t.timer = false ∧ Live fourSlots t 3 ∧
      t.state 3 = .sleep ∧ t.prioCurrent t.nextTask < t.prioCurrent 3 := by
  refine ⟨(step fourSlots 20 starved .scheduler).getD starved, run_after (by decide +kernel),
    step_getD (by decide +kernel), ?_⟩
  decide +kernel

end Instances

end Skibios.Promotion.TickGating

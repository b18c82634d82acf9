import Skibios.Tasks.LevelStash

/-! `max_level`, `alc` and `hlc`: the top level and the tasks counted there. -/

namespace Skibios.Tasks.Counters

open Function Library.Words Library.Loops Library.Counting Library.Runs
open Kernel State TaskServices Services Scheduler SchedulerLoops Events Effects
open Invariants Identity LevelStash

variable {B : Build} {s t : KernelState} {e : Event} {i k : ℕ}
variable {prio prio' : ℕ → ℕ} {state state' : ℕ → TaskState} {level a h : ℕ}

def Hibernating (st : TaskState) : Prop := st = .hibernateG ∨ st = .hibernateL

instance : DecidablePred Hibernating := fun _ => inferInstanceAs (Decidable (_ ∨ _))

/-- What `alc` is meant to count. -/
def Awake (st : TaskState) : Prop := st ≠ .idle ∧ ¬ Hibernating st

instance : DecidablePred Awake := fun _ => inferInstanceAs (Decidable (_ ∧ _))

lemma Hibernating.ne_idle {st : TaskState} (hs : Hibernating st) : st ≠ .idle := by
  rcases hs with rfl | rfl <;> decide

structure Top (B : Build) (prio : ℕ → ℕ) (state : ℕ → TaskState) (level : ℕ) : Prop where
  attained : ∃ k < B.maxTaskCount, state k ≠ .idle ∧ prio k = level
  highest : ∀ k < B.maxTaskCount, state k ≠ .idle → prio k ≤ level

lemma Top.unique {level' : ℕ} (hl : Top B prio state level) (hl' : Top B prio state level') :
    level = level' := by
  obtain ⟨k, hk, hs, rfl⟩ := hl.attained
  obtain ⟨j, hj, hs', rfl⟩ := hl'.attained
  exact le_antisymm (hl'.highest k hk hs) (hl.highest j hj hs')

/-- The top level with the numbers of awake and of hibernating tasks there. -/
structure Exact (B : Build) (prio : ℕ → ℕ) (state : ℕ → TaskState) (level a h : ℕ) : Prop
    extends Top B prio state level where
  awake : a = count B.maxTaskCount (fun k => Awake (state k) ∧ prio k = level)
  hibernating : h = count B.maxTaskCount (fun k => Hibernating (state k) ∧ prio k = level)

def CountersExact (B : Build) (s : KernelState) : Prop :=
  Exact B s.prioCurrent s.state s.maxLevel s.alc s.hlc

namespace Exact

lemma awake_le (he : Exact B prio state level a h) : a ≤ B.maxTaskCount := by
  rw [he.awake]
  exact count_le ..

lemma hibernating_le (he : Exact B prio state level a h) : h ≤ B.maxTaskCount := by
  rw [he.hibernating]
  exact count_le ..

lemma congr (he : Exact B prio state level a h)
    (hi : ∀ k < B.maxTaskCount, state' k = .idle ↔ state k = .idle)
    (hh : ∀ k < B.maxTaskCount, prio k = level → (Hibernating (state' k) ↔ Hibernating (state k)))
    (hp : ∀ k < B.maxTaskCount, state k ≠ .idle → prio' k = prio k) :
    Exact B prio' state' level a h := by
  have hlevel : ∀ k < B.maxTaskCount, state k ≠ .idle → (prio' k = level ↔ prio k = level) :=
    fun k hk hs => by rw [hp k hk hs]
  refine ⟨⟨?_, fun k hk hs => ?_⟩, ?_, ?_⟩
  · obtain ⟨k, hk, hs, rfl⟩ := he.attained
    exact ⟨k, hk, mt (hi k hk).mp hs, hp k hk hs⟩
  · have hs' := mt (hi k hk).mpr hs
    rw [hp k hk hs']
    exact he.highest k hk hs'
  · rw [he.awake]
    refine count_congr fun k hk => ?_
    by_cases hs : state k = .idle
    · simp [Awake, hs, (hi k hk).mpr hs]
    · rw [hlevel k hk hs]
      refine and_congr_left fun hl => ?_
      rw [Awake, Awake, hh k hk hl, Ne, Ne, hi k hk]
  · rw [he.hibernating]
    refine count_congr fun k hk => ?_
    by_cases hs : state k = .idle
    · simp [Hibernating, hs, (hi k hk).mpr hs]
    · rw [hlevel k hk hs]
      exact and_congr_left fun hl => (hh k hk hl).symm

lemma stir (he : Exact B prio state level a h) (hk : Awake (state k)) {v : TaskState}
    (hv : Awake v) : Exact B prio (update state k v) level a h := by
  refine he.congr (fun j _ => update_idle_iff hk.1 hv.1 j) (fun j _ _ => ?_) fun _ _ _ => rfl
  rcases eq_or_ne j k with rfl | hj
  · rw [update_self]
    exact iff_of_false hv.2 hk.2
  · rw [update_of_ne hj]

lemma aside (he : Exact B prio state level a h) (hk : state k ≠ .idle) {v : TaskState}
    (hv : v ≠ .idle) (hp : prio k ≠ level) : Exact B prio (update state k v) level a h := by
  refine he.congr (fun j _ => update_idle_iff hk hv j) (fun j _ hl => ?_) fun _ _ _ => rfl
  rw [update_of_ne]
  rintro rfl
  exact hp hl

lemma top_update (he : Exact B prio state level a h) (hk : state k ≠ .idle) {v : TaskState}
    (hv : v ≠ .idle) : Top B prio (update state k v) level := by
  have hi : ∀ j, update state k v j = .idle ↔ state j = .idle := update_idle_iff hk hv
  obtain ⟨j, hj, hs, hp⟩ := he.attained
  exact ⟨⟨j, hj, mt (hi j).mp hs, hp⟩, fun j hj hs => he.highest j hj (mt (hi j).mpr hs)⟩

lemma hibernate (he : Exact B prio state level a h) (hkN : k < B.maxTaskCount)
    (hk : Awake (state k)) {v : TaskState} (hv : Hibernating v) (hp : prio k = level) :
    Exact B prio (update state k v) level (uint8 (a + 255)) (uint8 (h + 1)) := by
  have ha := he.awake_le
  have hh := he.hibernating_le
  have hN := B.maxTaskCount_le
  have hout := count_insert (p := fun j => Awake (update state k v j) ∧ prio j = level)
    (q := fun j => Awake (state j) ∧ prio j = level) hkN (by simp [Awake, hv]) ⟨hk, hp⟩
    fun j _ hj => by rw [update_of_ne hj]
  have hin := count_insert (p := fun j => Hibernating (state j) ∧ prio j = level)
    (q := fun j => Hibernating (update state k v j) ∧ prio j = level) hkN (by simp [hk.2])
    (by simp [hv, hp]) fun j _ hj => by rw [update_of_ne hj]
  rw [← he.awake] at hout
  rw [← he.hibernating] at hin
  refine ⟨he.top_update hk.1 hv.ne_idle, ?_, ?_⟩
  · rw [uint8]
    omega
  · rw [hin, uint8_eq (by omega)]

lemma wake (he : Exact B prio state level a h) (hkN : k < B.maxTaskCount)
    (hk : Hibernating (state k)) {v : TaskState} (hv : Awake v) (hp : prio k = level) :
    Exact B prio (update state k v) level (uint8 (a + 1)) (uint8 (h + 255)) := by
  have ha := he.awake_le
  have hh := he.hibernating_le
  have hN := B.maxTaskCount_le
  have hin := count_insert (p := fun j => Awake (state j) ∧ prio j = level)
    (q := fun j => Awake (update state k v j) ∧ prio j = level) hkN (by simp [Awake, hk])
    (by simp [hv, hp]) fun j _ hj => by rw [update_of_ne hj]
  have hout := count_insert (p := fun j => Hibernating (update state k v j) ∧ prio j = level)
    (q := fun j => Hibernating (state j) ∧ prio j = level) hkN (by simp [hv.2]) ⟨hk, hp⟩
    fun j _ hj => by rw [update_of_ne hj]
  rw [← he.awake] at hin
  rw [← he.hibernating] at hout
  refine ⟨he.top_update hk.ne_idle hv.1, ?_, ?_⟩
  · rw [hin, uint8_eq (by omega)]
  · rw [uint8]
    omega

end Exact

lemma raiseLevels_spec (hi : i < B.maxTaskCount) (hs : state i ≠ .idle)
    (ho : ∀ j < B.maxTaskCount, j ≠ i → state j ≠ .idle → prio j ≤ s.maxLevel) :
    raiseLevels B s prio state =
      if s.maxLevel < prio i then ⟨prio i, 0, 0, s.firstStart || s.timer⟩
      else ⟨s.maxLevel, s.alc, s.hlc, s.timer⟩ := by
  have hloop := forRange_invariant (f := fun j (l : Levels) =>
      if l.maxLevel < prio j ∧ state j ≠ .idle then ⟨prio j, 0, 0, s.firstStart || l.timer⟩ else l)
    (s := ⟨s.maxLevel, s.alc, s.hlc, s.timer⟩)
    (fun j (l : Levels) => l = if i < j ∧ s.maxLevel < prio i
      then ⟨prio i, 0, 0, s.firstStart || s.timer⟩ else ⟨s.maxLevel, s.alc, s.hlc, s.timer⟩)
    B.maxTaskCount (by simp) ?_
  · rw [raiseLevels, hloop]
    simp [hi]
  · rintro j l hj rfl
    rcases eq_or_ne j i with rfl | hne
    · by_cases hp : s.maxLevel < prio j <;> simp [hp, hs]
    · have hkeep : i < j + 1 ↔ i < j := by omega
      have hle : ∀ l : Levels, s.maxLevel ≤ l.maxLevel → ¬ (l.maxLevel < prio j ∧ state j ≠ .idle) :=
        fun l hl hlt => absurd (ho j hj hne hlt.2) (by omega)
      rw [if_neg]
      · exact (if_congr (and_congr_left' hkeep) rfl rfl).symm
      · apply hle
        split
        · rename_i hlt
          exact hlt.2.le
        · exact le_rfl

lemma highestLevel_top (hl : ∃ k < B.maxTaskCount, state k ≠ .idle) :
    Top B prio state (highestLevel B prio state) := by
  have hloop := forRange_invariant
    (f := fun k m => if m ≤ prio k ∧ state k ≠ .idle then prio k else m) (s := 0)
    (fun j m => (∀ k < j, state k ≠ .idle → prio k ≤ m) ∧
      (m = 0 ∨ ∃ k < j, state k ≠ .idle ∧ prio k = m)) B.maxTaskCount
    ⟨fun k hk => absurd hk (by omega), Or.inl rfl⟩ ?_
  · obtain ⟨hle, h0 | hat⟩ := hloop
    · obtain ⟨k, hk, hs⟩ := hl
      have hz : highestLevel B prio state = 0 := h0
      exact ⟨⟨k, hk, hs, le_antisymm (hle k hk hs) (hz ▸ Nat.zero_le _)⟩, hle⟩
    · exact ⟨hat, hle⟩
  · rintro j m - ⟨hle, hat⟩
    split
    · rename_i hup
      refine ⟨fun k hk hs => ?_, Or.inr ⟨j, by omega, hup.2, rfl⟩⟩
      rcases eq_or_ne k j with rfl | hne
      · exact le_rfl
      · exact (hle k (by omega) hs).trans hup.1
    · rename_i hup
      refine ⟨fun k hk hs => ?_, hat.imp_right fun ⟨k, hk, hs⟩ => ⟨k, by omega, hs⟩⟩
      rcases eq_or_ne k j with rfl | hne
      · by_contra hlt
        exact hup ⟨by omega, hs⟩
      · exact hle k (by omega) hs

/-- No state passes the mask test, so the recount files every slot of the level under `alc`. -/
lemma recount_eq (B : Build) (prio : ℕ → ℕ) (state : ℕ → TaskState) (level : ℕ) :
    recount B prio state level = (count B.maxTaskCount (fun k => prio k = level), 0) := by
  have hN := B.maxTaskCount_le
  refine forRange_invariant (fun j c => c = (count j (fun k => prio k = level), 0)) _
    (by simp [count]) ?_
  rintro j c hj rfl
  have hle := count_le j (fun k => prio k = level)
  rw [count_succ, if_neg (code_and_mask _)]
  split
  · rw [uint8_eq (by omega)]
  · rfl

lemma newLevels_timer (B : Build) (s : KernelState) (p i : ℕ) : ∃ timer, newLevels B s p i =
    { countNew (raiseLevels B s (update s.prioCurrent i (s.objs p).priority) (newState s p i))
        (s.objs p).priority (newState s p i i) with timer := timer } := by
  unfold newLevels
  dsimp only
  split <;> exact ⟨_, rfl⟩

inductive Admits (level a h q : ℕ) : ℕ → ℕ → ℕ → Prop
  | above (hq : level < q) : Admits level a h q q 1 0
  | level (hq : q = level) : Admits level a h q level (uint8 (a + 1)) h
  | below (hq : q < level) : Admits level a h q level a h

lemma Admits.level_eq {q l a' h' : ℕ} (hq : Admits level a h q l a' h') : l = max level q := by
  cases hq with
  | above hq => exact (max_eq_right hq.le).symm
  | level hq => rw [hq, max_self]
  | below hq => exact (max_eq_left hq.le).symm

lemma Top.insert (ht : Top B prio state level) (hi : i < B.maxTaskCount) (hidle : state i = .idle)
    {v : TaskState} (hv : v ≠ .idle) (q : ℕ) :
    Top B (update prio i q) (update state i v) (max level q) := by
  refine ⟨?_, fun j hj hs => ?_⟩
  · rcases le_total q level with hle | hle
    · obtain ⟨k, hk, hs, hp⟩ := ht.attained
      have hne : k ≠ i := by
        rintro rfl
        exact hs hidle
      exact ⟨k, hk, by rwa [update_of_ne hne], by rw [update_of_ne hne, max_eq_left hle, hp]⟩
    · exact ⟨i, hi, by rwa [update_self], by rw [update_self, max_eq_right hle]⟩
  · rcases eq_or_ne j i with rfl | hne
    · rw [update_self]
      exact le_max_right ..
    · rw [update_of_ne hne] at hs ⊢
      exact (ht.highest j hj hs).trans (le_max_left ..)

lemma Exact.insert (he : Exact B prio state level a h) (hi : i < B.maxTaskCount)
    (hidle : state i = .idle) {q l a' h' : ℕ} (hq : Admits level a h q l a' h') :
    Exact B (update prio i q) (update state i .sleep) l a' h' := by
  have hN := B.maxTaskCount_le
  have htop : Top B (update prio i q) (update state i .sleep) l :=
    hq.level_eq ▸ he.toTop.insert hi hidle (by decide) q
  have hnew : Awake (update state i .sleep i) ∧ update prio i q i = q := by
    rw [update_self, update_self]
    exact ⟨by decide, rfl⟩
  have hold : ∀ j, j ≠ i → update state i .sleep j = state j ∧ update prio i q j = prio j :=
    fun j hj => ⟨update_of_ne hj .., update_of_ne hj ..⟩
  have hnone : count B.maxTaskCount (fun j => Hibernating (update state i .sleep j) ∧
      update prio i q j = level) = count B.maxTaskCount (fun j => Hibernating (state j) ∧ prio j = level) := by
    refine count_congr fun j _ => ?_
    rcases eq_or_ne j i with rfl | hne
    · exact iff_of_false (fun hj => hnew.1.2 hj.1) (by simp [hidle, Hibernating])
    · rw [(hold j hne).1, (hold j hne).2]
  cases hq with
  | above hq =>
    have habove : ∀ j < B.maxTaskCount, update state i .sleep j ≠ .idle → update prio i q j = q →
        j = i := by
      intro j hj hs hp
      by_contra hne
      rw [(hold j hne).1] at hs
      rw [(hold j hne).2] at hp
      have hbound := he.highest j hj hs
      omega
    refine ⟨htop, ?_, ?_⟩
    · rw [count_insert (p := fun _ => False) hi id hnew, count_eq_zero_iff.mpr fun _ _ => id]
      exact fun j hj hne => iff_of_false id fun hs => hne (habove j hj hs.1.1 hs.2)
    · refine (count_eq_zero_iff.mpr fun j hj hs => ?_).symm
      rw [habove j hj hs.1.ne_idle hs.2] at hs
      exact hnew.1.2 hs.1
  | level hq =>
    have hone := count_insert (p := fun j => Awake (state j) ∧ prio j = level)
      (q := fun j => Awake (update state i .sleep j) ∧ update prio i q j = level) hi
      (by simp [Awake, hidle]) (hq ▸ hnew) fun j _ hne => by rw [(hold j hne).1, (hold j hne).2]
    have ha := he.awake_le
    rw [← he.awake] at hone
    exact ⟨htop, by rw [hone, uint8_eq (by omega)], hnone ▸ he.hibernating⟩
  | below hq =>
    refine ⟨htop, ?_, hnone ▸ he.hibernating⟩
    rw [he.awake]
    refine count_congr fun j _ => ?_
    rcases eq_or_ne j i with rfl | hne
    · rw [hnew.2]
      exact iff_of_false (by simp [Awake, hidle]) fun hj => hq.ne hj.2
    · rw [(hold j hne).1, (hold j hne).2]

lemma newLevels_spec {p : ℕ} (hi : i < B.maxTaskCount)
    (hib : (s.objs p).hibernate &&& hibernateStateMask ≠ hibernateStateMask)
    (ho : ∀ j < B.maxTaskCount, s.state j ≠ .idle → s.prioCurrent j ≤ s.maxLevel) :
    Admits s.maxLevel s.alc s.hlc (s.objs p).priority (newLevels B s p i).maxLevel
      (newLevels B s p i).alc (newLevels B s p i).hlc := by
  obtain ⟨timer, heq⟩ := newLevels_timer B s p i
  have hnew : newState s p i i ≠ .idle := by
    rw [Table.newState_eq hib]
    simp
  have hold : ∀ j < B.maxTaskCount, j ≠ i → newState s p i j ≠ .idle →
      update s.prioCurrent i (s.objs p).priority j ≤ s.maxLevel := by
    intro j hj hne hs
    rw [Table.newState_eq hib, update_of_ne hne] at hs
    rw [update_of_ne hne]
    exact ho j hj hs
  rw [heq, raiseLevels_spec hi hnew hold, update_self]
  rcases lt_trichotomy (s.objs p).priority s.maxLevel with hlt | he | hgt
  · simp only [countNew, if_neg hlt.not_gt, if_neg hlt.ne]
    exact .below hlt
  · simp only [countNew, if_neg he.not_gt, if_pos he, if_neg (code_and_mask _)]
    exact .level he
  · simp only [countNew, if_pos hgt, if_true, if_neg (code_and_mask _)]
    exact .above hgt

/-- Slot `k` carries the largest priority among the tasks that survive the end of task `i`. -/
def Leading (B : Build) (s : KernelState) (i k : ℕ) : Prop :=
  (∃ j < B.maxTaskCount, (s.state j ≠ .idle ∧ j ≠ i) ∧ s.prioCurrent j = s.prioCurrent k) ∧
    ∀ j < B.maxTaskCount, s.state j ≠ .idle ∧ j ≠ i → s.prioCurrent j ≤ s.prioCurrent k

/-- Only surviving tasks that are awake carry that priority: not the victim, not a hibernating task
and no idle slot that has kept the priority of the task it once held. -/
def Clean (B : Build) (s : KernelState) (i : ℕ) : Prop :=
  ∀ k < B.maxTaskCount, Leading B s i k → k ≠ i ∧ Awake (s.state k)

instance (s : KernelState) (i k : ℕ) : Decidable (Leading B s i k) :=
  inferInstanceAs (Decidable (_ ∧ _))

instance (s : KernelState) (i : ℕ) : Decidable (Clean B s i) :=
  inferInstanceAs (Decidable (∀ k < _, _ → _))

def Recounts (B : Build) (s : KernelState) : Event → Prop
  | .killTask pid => Clean B s (slotNumber pid)
  | .endTask => Clean B s s.currentTask
  | _ => True

instance (s : KernelState) (e : Event) : Decidable (Recounts B s e) :=
  match e with
  | .killTask pid => inferInstanceAs (Decidable (Clean B s (slotNumber pid)))
  | .endTask => inferInstanceAs (Decidable (Clean B s s.currentTask))
  | .createTask .. | .startScheduler | .hibernate .. | .handOver | .invokeBase _ | .releaseBase _
  | .grantPermission .. | .promote _ | .mutexLock _ | .clearMutex _ | .unlockTest _ | .store ..
  | .fillTask .. | .tick | .scheduler | .contextSwitch => isTrue trivial

namespace CountersExact

lemma update_awake_iff (st : ℕ → TaskState) (i k : ℕ) :
    Awake (update st i .idle k) ↔ k ≠ i ∧ Awake (st k) := by
  rcases eq_or_ne k i with rfl | hne
  · simp [Awake]
  · simp [hne]

lemma update_ne_idle_iff (st : ℕ → TaskState) (i k : ℕ) :
    update st i .idle k ≠ .idle ↔ st k ≠ .idle ∧ k ≠ i := by
  rcases eq_or_ne k i with rfl | hne <;> simp [*]

lemma leading_iff {level : ℕ} (ht : Top B s.prioCurrent (update s.state i .idle) level) (k : ℕ) :
    Leading B s i k ↔ s.prioCurrent k = level := by
  have hl := update_ne_idle_iff s.state i
  constructor
  · rintro ⟨⟨j, hj, hs, hp⟩, hle⟩
    refine (Top.unique ht ⟨⟨j, hj, (hl j).mpr hs, hp⟩, fun j hj hs => ?_⟩).symm
    exact hle j hj ((hl j).mp hs)
  · rintro rfl
    obtain ⟨j, hj, hs, hp⟩ := ht.attained
    exact ⟨⟨j, hj, (hl j).mp hs, hp⟩, fun j hj hs => ht.highest j hj ((hl j).mpr hs)⟩

lemma recount_iff (h0 : Live B s 0) (hi : i ≠ 0) {level : ℕ}
    (hl : level = highestLevel B s.prioCurrent (update s.state i .idle)) :
    Exact B s.prioCurrent (update s.state i .idle) level
      (recount B s.prioCurrent (update s.state i .idle) level).1
      (recount B s.prioCurrent (update s.state i .idle) level).2 ↔ Clean B s i := by
  have htop : Top B s.prioCurrent (update s.state i .idle) level :=
    hl ▸ highestLevel_top ⟨0, h0.1, (update_ne_idle_iff ..).mpr ⟨h0.2, hi.symm⟩⟩
  rw [recount_eq]
  constructor
  · intro he k hk hlead
    have hall := count_imp (n := B.maxTaskCount) (q := fun k => s.prioCurrent k = level)
      (fun _ _ hk => hk.2) he.awake.le k hk ((leading_iff htop k).mp hlead)
    exact (update_awake_iff ..).mp hall.1
  · intro hc
    have hall : ∀ k < B.maxTaskCount, s.prioCurrent k = level → Awake (update s.state i .idle k) :=
      fun k hk hp => (update_awake_iff ..).mpr (hc k hk ((leading_iff htop k).mpr hp))
    refine ⟨htop, count_congr fun k hk => ⟨fun hp => ⟨hall k hk hp, hp⟩, fun hp => hp.2⟩, ?_⟩
    exact (count_eq_zero_iff.mpr fun k hk hp => (hall k hk hp.2).2 hp.1).symm

variable (hc : CountersExact B s)
include hc

lemma keep (hs : t.state = s.state) (hp : t.prioCurrent = s.prioCurrent)
    (hm : t.maxLevel = s.maxLevel) (ha : t.alc = s.alc) (hh : t.hlc = s.hlc) :
    CountersExact B t := by
  rw [CountersExact, hs, hp, hm, ha, hh]
  exact hc

lemma stirred (hs : Consistent B s) (hth : InThread s) {v : TaskState} (hv : Awake v)
    (hst : t.state = update s.state s.currentTask v) (hp : t.prioCurrent = s.prioCurrent)
    (hm : t.maxLevel = s.maxLevel) (ha : t.alc = s.alc) (hh : t.hlc = s.hlc) :
    CountersExact B t := by
  rw [CountersExact, hst, hp, hm, ha, hh]
  refine Exact.stir hc ?_ hv
  rcases hs.awake hth with hst | hst <;> rw [hst] <;> decide

lemma handOver (hs : Consistent B s) (hth : InThread s) : CountersExact B (handOverState s) := by
  refine hc.stirred hs hth (v := .sleep) (by decide) ?_ ?_ ?_ ?_ ?_ <;> dsimp only [handOverState]
  rw [hs.selfKill]
  rfl

lemma hibernate (hs : Consistent B s) (hth : InThread s) (n a b v : ℕ) :
    CountersExact B (hibernateState s n a b v) := by
  have hlive := (hs.in_thread hth).2.1
  have hawake : Awake (s.state s.currentTask) := by
    rcases hs.awake hth with hst | hst <;> rw [hst] <;> decide
  have hhib : Hibernating
      (if n &&& hibernateRevMask = hibernateRevMask then .hibernateL else .hibernateG) := by
    split
    · exact Or.inr rfl
    · exact Or.inl rfl
  by_cases hp : s.prioCurrent s.currentTask = s.maxLevel
  · have he := Exact.hibernate hc hlive.1 hawake hhib hp
    simpa only [CountersExact, hibernateState, if_pos hp] using he
  · have he := Exact.aside hc hlive.2 hhib.ne_idle hp
    simpa only [CountersExact, hibernateState, if_neg hp] using he

lemma created {p arg ptr : ℕ} {stash : ℕ → ℕ}
    (hib : (s.objs p).hibernate &&& hibernateStateMask ≠ hibernateStateMask)
    (hi : idleSlot B s < B.maxTaskCount) : CountersExact B (fillSlot B s p arg ptr stash) := by
  have hst : (fillSlot B s p arg ptr stash).state = update s.state (idleSlot B s) .sleep :=
    Table.newState_eq hib
  rw [CountersExact, hst]
  exact Exact.insert hc hi (Table.idleSlot_idle hi) (newLevels_spec hi hib hc.highest)

lemma wakeSlot (hk : k < B.maxTaskCount) : CountersExact B (wakeSlot s k) := by
  by_cases hw : WakeCondition s k
  · have hh : Hibernating (s.state k) := hw.imp And.left And.left
    by_cases hp : s.prioCurrent k = s.maxLevel
    · have he := Exact.wake hc hk hh (v := .sleep) (by decide) hp
      simpa only [CountersExact, Scheduler.wakeSlot, hw, hp, true_and, if_true] using he
    · have he := Exact.aside hc hh.ne_idle (v := .sleep) (by decide) hp
      simpa only [CountersExact, Scheduler.wakeSlot, hw, hp, true_and, if_true, if_false] using he
  · rwa [wakeSlot_skip hw]

lemma entered (hs : Consistent B s) (hq : s.switchPending = false) :
    CountersExact B (enterScheduler s) := by
  cases hn : s.normalSchedule with
  | false => exact hc.keep (by simp [enterScheduler, hn]) rfl rfl rfl rfl
  | true =>
    have hth : InThread s := ⟨by simpa [hn] using hs.flags, hq⟩
    exact hc.stirred hs hth (v := .sleep) (by decide) (by simp [enterScheduler, hn]) rfl rfl rfl rfl

lemma scheduled (hs : Consistent B s) (hq : s.switchPending = false) {w : KernelState}
    {c : Selection} (h : Scheduled B s w c) : CountersExact B (leaveScheduler w c) := by
  obtain ⟨n, hn⟩ := h.woken
  have hw : CountersExact B w :=
    wake_pass_invariant (fun t k hk ht => CountersExact.wakeSlot ht hk) (hc.entered hs hq) hn
  exact Exact.stir hw (by rw [h.chosen.sleeping]; decide) (by decide)

lemma step (hs : Consistent B s) (hok : Unpromoted B s e) (he : Effect B s e t) :
    CountersExact B t ↔ Recounts B s e := by
  cases he with
  | killed hth hk => exact recount_iff hs.base hok.2.1 rfl
  | ended hth hk =>
    obtain ⟨h0, hnum⟩ : _ ∧ slotNumber (s.taskId s.currentTask) = s.currentTask := hok
    rw [hnum]
    exact recount_iff hs.base h0 rfl
  | created hth h => exact iff_of_true (hc.created hok.2 h.slot) trivial
  | started hth =>
    have h0 : s.currentTask = 0 := hok
    refine iff_of_true (hc.stirred hs hth (v := .sleep) (by decide) ?_ rfl rfl rfl rfl) trivial
    rw [h0]
    rfl
  | hibernated hth => exact iff_of_true (hc.hibernate hs hth ..) trivial
  | handedOver hth => exact iff_of_true (hc.handOver hs hth) trivial
  | ticked hth _ h => exact iff_of_true (hc.scheduled hs hth.2 h) trivial
  | scheduled _ hq h => exact iff_of_true (hc.scheduled hs hq h) trivial
  | invokeRefused | invoked | releaseRefused | released | promoted | lockRefused | locked | cleared
  | kept | demoted => exact hok.elim
  | _ => exact iff_of_true (hc.keep rfl rfl rfl rfl rfl) trivial

omit hc in
lemma booted (B : Build) (mem : ℕ → ℕ) (objs : ℕ → TaskObject) (stack : ℕ → ℕ) :
    CountersExact B (booted B mem objs stack) := by
  have hN := B.maxTaskCount_pos
  have hlive := booted_live B mem objs stack
  have hbase : (Events.booted B mem objs stack).state 0 = .sleep := by
    change update (fun _ => TaskState.idle) 0 .sleep 0 = .sleep
    rw [update_self]
  refine ⟨⟨⟨0, hN, ((hlive 0).mpr rfl).2, rfl⟩, fun _ _ _ => le_rfl⟩, ?_, ?_⟩
  · rw [count_insert (p := fun _ => False) hN id ⟨by rw [hbase]; decide, rfl⟩,
      count_eq_zero_iff.mpr fun _ _ => id]
    · rfl
    · exact fun k hk hne => iff_of_false id fun hs => hne ((hlive k).mp ⟨hk, hs.1.1⟩)
  · refine (count_eq_zero_iff.mpr fun k hk hs => ?_).symm
    obtain rfl := (hlive k).mp ⟨hk, hs.1.ne_idle⟩
    rw [hbase] at hs
    exact absurd hs.1 (by decide)

end CountersExact

def Recounted (B : Build) (s : KernelState) (e : Event) : Prop := Unpromoted B s e ∧ Recounts B s e

instance (s : KernelState) (e : Event) : Decidable (Recounted B s e) :=
  inferInstanceAs (Decidable (_ ∧ _))

variable {mem : ℕ → ℕ} {objs : ℕ → TaskObject} {stack : ℕ → ℕ} {es : List Event}

lemma run_counters (h : Run (Guarded B (Recounted B)) (bootState B mem objs stack) es s) :
    Consistent B s ∧ CountersExact B s := by
  obtain ⟨objs', stack', hb⟩ := bootState_eq B mem objs stack
  rw [hb] at h
  refine h.invariant (I := fun s => Consistent B s ∧ CountersExact B s) ?_
    ⟨booted_consistent B mem objs' stack', CountersExact.booted B mem objs' stack'⟩
  rintro s e t ⟨hs, hc⟩ hg
  have he := step_effect hg.2
  exact ⟨hs.step hg.1.1.regular he, (hc.step hs hg.1.1 he).mpr hg.1.2⟩

/-- As long as every kill recounts cleanly the counters are exact in every state, and the first kill
that does not makes them wrong. -/
theorem counters (h : Run (Guarded B (Recounted B)) (bootState B mem objs stack) es s) :
    CountersExact B s ∧
      ∀ e t, Guarded B (Unpromoted B) s e t → (CountersExact B t ↔ Recounts B s e) := by
  obtain ⟨hs, hc⟩ := run_counters h
  exact ⟨hc, fun e t hg => hc.step hs hg.1 (step_effect hg.2)⟩

section Instances

def fiveSlots : Build := Build.five

def objectAt (priority : ℕ) : TaskObject := ⟨0, 0, priority, 0, 0, 0, 0, 0⟩

def start : KernelState := bootState fiveSlots (fun _ => 0) (fun _ => objectAt 1) (fun _ => 0)

def clean : List Event :=
  [.fillTask 10 (objectAt 3), .createTask 10 0, .fillTask 11 (objectAt 3), .createTask 11 0,
    .fillTask 12 (objectAt 5), .createTask 12 0, .startScheduler, .scheduler, .contextSwitch,
    .endTask, .scheduler, .contextSwitch, .hibernate 1 100 101 1, .scheduler, .contextSwitch]

/-- The boot thread kills the only other task, and the recount adds three idle slots that have
priority 0 to the base task. -/
theorem counters_fails : ∃ s, Run (Guarded fiveSlots (Unpromoted fiveSlots)) start
    [.fillTask 10 (objectAt 1), .createTask 10 0, .killTask 65538] s ∧
    s.alc = 4 ∧ ¬ CountersExact fiveSlots s := by
  obtain ⟨s, hr, ha, hone⟩ := run_of_exec fiveSlots 20 (Unpromoted fiveSlots) start
    [.fillTask 10 (objectAt 1), .createTask 10 0, .killTask 65538]
    (fun s => s.alc = 4 ∧ s.taskCount = 1) (by decide +kernel)
  refine ⟨s, hr, ha, fun hc => ?_⟩
  have hs := run_consistent (fun _ _ => Unpromoted.regular) (boot_consistent ..) hr
  have hle : s.alc ≤ s.taskCount := by
    rw [hc.awake, hs.counted]
    exact count_mono fun k _ hk => hk.1.1
  omega

theorem counters_clean : ∃ s, Run (Guarded fiveSlots (Recounted fiveSlots)) start clean s ∧
    CountersExact fiveSlots s ∧ ∀ e t, Guarded fiveSlots (Unpromoted fiveSlots) s e t →
      (CountersExact fiveSlots t ↔ Recounts fiveSlots s e) := by
  obtain ⟨s, hr, -⟩ := run_of_exec fiveSlots 20 (Recounted fiveSlots) start clean (fun _ => True)
    (by decide +kernel)
  exact ⟨s, hr, counters hr⟩

end Instances

end Skibios.Tasks.Counters

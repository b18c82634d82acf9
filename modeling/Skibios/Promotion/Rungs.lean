import Skibios.Tasks.Counters

/-! Promotions: each promoted task stands on a rung of its own above the priorities tasks ask for,
and `maxp_level`, `alcp` and `hlcp` keep what holds below. -/

namespace Skibios.Promotion.Rungs

open Function Library.Words Library.Loops Library.Counting Library.Runs
open Kernel State TaskServices Services Scheduler SchedulerLoops Events Effects
open Tasks Invariants Counters

variable {B : Build} {s t : KernelState} {e : Event} {i k m : ℕ}

def Raised (s : KernelState) : Prop := 128 ≤ s.maxLevel

instance (s : KernelState) : Decidable (Raised s) := inferInstanceAs (Decidable (_ ≤ _))

def Promoted (s : KernelState) (k : ℕ) : Prop := s.mutexStash k ≠ 0

instance (s : KernelState) : DecidablePred (Promoted s) := fun _ => inferInstanceAs (Decidable (_ ≠ _))

def basePrio (s : KernelState) (k : ℕ) : ℕ :=
  if Promoted s k then s.prioStashed k else s.prioCurrent k

def baseLevel (s : KernelState) : ℕ := if Raised s then s.maxpLevel else s.maxLevel
def baseAlc (s : KernelState) : ℕ := if Raised s then s.alcp else s.alc
def baseHlc (s : KernelState) : ℕ := if Raised s then s.hlcp else s.hlc

structure Ladder (B : Build) (s : KernelState) : Prop where
  live : ∀ k < B.maxTaskCount, Promoted s k → s.state k ≠ .idle
  rung : ∀ k < B.maxTaskCount, Promoted s k → 128 ≤ s.prioCurrent k ∧ s.prioCurrent k ≤ s.maxLevel
  alone : ∀ j < B.maxTaskCount, ∀ k < B.maxTaskCount, Promoted s j → Promoted s k →
    s.prioCurrent j = s.prioCurrent k → j = k
  full : ∀ v, 128 ≤ v → v ≤ s.maxLevel → ∃ k < B.maxTaskCount, Promoted s k ∧ s.prioCurrent k = v
  level : baseLevel s ≤ 127
  highest : ∀ k < B.maxTaskCount, s.state k ≠ .idle → basePrio s k ≤ baseLevel s

lemma basePrio_of_not (h : ¬ Promoted s k) : basePrio s k = s.prioCurrent k := if_neg h

lemma basePrio_of (h : Promoted s k) : basePrio s k = s.prioStashed k := if_pos h

lemma baseLevel_raised (h : Raised s) : baseLevel s = s.maxpLevel := if_pos h

lemma baseLevel_flat (h : ¬ Raised s) : baseLevel s = s.maxLevel := if_neg h

structure SameRungs (s t : KernelState) : Prop where
  current : t.prioCurrent = s.prioCurrent
  stashed : t.prioStashed = s.prioStashed
  mutexes : t.mutexStash = s.mutexStash
  level : t.maxLevel = s.maxLevel
  saved : t.maxpLevel = s.maxpLevel

namespace SameRungs

variable (h : SameRungs s t)
include h

lemma promoted : Promoted t k ↔ Promoted s k := by
  rw [Promoted, h.mutexes, Promoted]

lemma raised : Raised t ↔ Raised s := by
  rw [Raised, h.level, Raised]

lemma basePrio_eq : basePrio t = basePrio s := by
  funext k
  rw [basePrio, basePrio, h.stashed, h.current]
  exact if_congr h.promoted rfl rfl

lemma baseLevel_eq : baseLevel t = baseLevel s := by
  rw [baseLevel, baseLevel, h.level, h.saved]
  exact if_congr h.raised rfl rfl

end SameRungs

namespace Ladder

lemma keep (h : Ladder B s) (hr : SameRungs s t)
    (hs : ∀ k < B.maxTaskCount, t.state k = .idle ↔ s.state k = .idle) : Ladder B t := by
  constructor
  · intro k hk hp hi
    exact h.live k hk (hr.promoted.mp hp) ((hs k hk).mp hi)
  · intro k hk hp
    rw [hr.current, hr.level]
    exact h.rung k hk (hr.promoted.mp hp)
  · intro j hj k hk hpj hpk he
    rw [hr.current] at he
    exact h.alone j hj k hk (hr.promoted.mp hpj) (hr.promoted.mp hpk) he
  · intro v hv hle
    rw [hr.level] at hle
    obtain ⟨k, hk, hp, he⟩ := h.full v hv hle
    exact ⟨k, hk, hr.promoted.mpr hp, by rw [hr.current, he]⟩
  · rw [hr.baseLevel_eq]
    exact h.level
  · intro k hk hi
    rw [hr.basePrio_eq, hr.baseLevel_eq]
    exact h.highest k hk (mt (hs k hk).mpr hi)

lemma not_promoted (h : Ladder B s) (hr : ¬ Raised s) (hk : k < B.maxTaskCount) : ¬ Promoted s k :=
  fun hp => hr ((h.rung k hk hp).1.trans (h.rung k hk hp).2)

lemma idle_not_promoted (h : Ladder B s) (hk : k < B.maxTaskCount) (hi : s.state k = .idle) :
    ¬ Promoted s k :=
  fun hp => h.live k hk hp hi

lemma plain_le (h : Ladder B s) (hk : k < B.maxTaskCount) (hs : s.state k ≠ .idle)
    (hp : ¬ Promoted s k) : s.prioCurrent k ≤ baseLevel s := by
  rw [← basePrio_of_not hp]
  exact h.highest k hk hs

lemma prio_le (h : Ladder B s) (hk : k < B.maxTaskCount) (hs : s.state k ≠ .idle) :
    s.prioCurrent k ≤ s.maxLevel := by
  by_cases hp : Promoted s k
  · exact (h.rung k hk hp).2
  · have hle := h.plain_le hk hs hp
    by_cases hr : Raised s
    · exact hle.trans (h.level.trans (by rw [Raised] at hr; omega))
    · rwa [baseLevel_flat hr] at hle

lemma maxLevel_le (h : Ladder B s) : s.maxLevel ≤ 127 + count B.maxTaskCount (Promoted s) := by
  by_contra hlt
  have hcard : (Finset.Icc 128 s.maxLevel).card ≤ count B.maxTaskCount (Promoted s) := by
    apply card_le_count s.prioCurrent
    intro v hv
    obtain ⟨h1, h2⟩ := Finset.mem_Icc.mp hv
    exact h.full v h1 h2
  rw [Nat.card_Icc] at hcard
  omega

lemma maxLevel_lt (h : Ladder B s) : s.maxLevel < 256 := by
  have hle := h.maxLevel_le
  have hcount := count_le B.maxTaskCount (Promoted s)
  have hN := B.maxTaskCount_le
  omega

lemma room (h : Ladder B s) (hk : k < B.maxTaskCount) (hp : ¬ Promoted s k) : s.maxLevel < 255 := by
  have hle := h.maxLevel_le
  have hlt : count B.maxTaskCount (Promoted s) < B.maxTaskCount := by
    apply lt_of_le_of_ne (count_le ..)
    intro he
    refine hp (count_imp (p := Promoted s) (q := fun _ => True) (fun _ _ _ => trivial) ?_ k hk trivial)
    rw [he]
    exact count_le ..
  have hN := B.maxTaskCount_le
  omega

lemma top (h : Ladder B s) (hr : Raised s) : ∃ i < B.maxTaskCount, Promoted s i ∧
    ∀ k < B.maxTaskCount, s.state k ≠ .idle → s.maxLevel ≤ s.prioCurrent k → k = i := by
  obtain ⟨i, hi, hp, he⟩ := h.full s.maxLevel hr le_rfl
  refine ⟨i, hi, hp, fun k hk hs hle => ?_⟩
  by_cases hpk : Promoted s k
  · exact h.alone k hk i hi hpk hp (by have hle' := (h.rung k hk hpk).2; omega)
  · have hlow := (h.plain_le hk hs hpk).trans h.level
    rw [Raised] at hr
    omega

end Ladder

structure SameBase (s t : KernelState) : Prop where
  prio : ∀ k, basePrio t k = basePrio s k
  level : baseLevel t = baseLevel s
  alc : baseAlc t = baseAlc s
  hlc : baseHlc t = baseHlc s

namespace Ladder

lemma promotedLevel_eq (h : Ladder B s) (hi : i < B.maxTaskCount) (hp : ¬ Promoted s i)
    (hl : s.maxpLevel = 127 ↔ ¬ Raised s) :
    promotedLevel s = (if Raised s then s.maxLevel else 127) + 1 := by
  have hroom := h.room hi hp
  by_cases hr : Raised s
  · rw [promotedLevel, if_neg (mt hl.mp (not_not.mpr hr)), if_pos hr, uint8_eq (by omega)]
  · rw [promotedLevel, if_pos (hl.mpr hr), if_neg hr, uint8_eq (by omega)]

lemma promotedLevel_ge (h : Ladder B s) (hi : i < B.maxTaskCount) (hp : ¬ Promoted s i)
    (hl : s.maxpLevel = 127 ↔ ¬ Raised s) : 128 ≤ promotedLevel s := by
  rw [h.promotedLevel_eq hi hp hl]
  split
  · rename_i hr
    rw [Raised] at hr
    omega
  · omega

lemma promoted_promote (hm : m ≠ 0) (k : ℕ) :
    Promoted (promoteSlot s m i) k ↔ k = i ∨ Promoted s k := by
  change update s.mutexStash i m k ≠ 0 ↔ _
  rcases eq_or_ne k i with rfl | hne
  · simp [hm]
  · simp [hne, Promoted]

lemma promote_prio_self : (promoteSlot s m i).prioCurrent i = promotedLevel s := update_self ..

lemma promote_prio (hk : k ≠ i) : (promoteSlot s m i).prioCurrent k = s.prioCurrent k :=
  update_of_ne hk _ _

lemma promote_basePrio (hm : m ≠ 0) (hp : ¬ Promoted s i) (k : ℕ) :
    basePrio (promoteSlot s m i) k = basePrio s k := by
  rcases eq_or_ne k i with rfl | hne
  · rw [basePrio_of ((promoted_promote hm k).mpr (Or.inl rfl)), basePrio_of_not hp]
    dsimp only [promoteSlot]
    rw [update_self]
  · rw [basePrio, basePrio, promote_prio hne]
    refine if_congr ((promoted_promote hm k).trans (or_iff_right hne)) ?_ rfl
    dsimp only [promoteSlot]
    rw [update_of_ne hne]

lemma promote_base (hm : m ≠ 0) (hp : ¬ Promoted s i) (hl : s.maxpLevel = 127 ↔ ¬ Raised s)
    (hraised : Raised (promoteSlot s m i)) : SameBase s (promoteSlot s m i) := by
  refine ⟨promote_basePrio hm hp, ?_, ?_, ?_⟩
  all_goals
    by_cases hr : Raised s
    · have hne : s.maxpLevel ≠ 127 := mt hl.mp (not_not.mpr hr)
      simp only [baseLevel, baseAlc, baseHlc, if_pos hraised, if_pos hr]
      dsimp only [promoteSlot]
      rw [if_neg hne]
    · have he := hl.mpr hr
      simp only [baseLevel, baseAlc, baseHlc, if_pos hraised, if_neg hr]
      dsimp only [promoteSlot]
      rw [if_pos he]

lemma promote (h : Ladder B s) (hc : Live B s s.currentTask) (hm : m ≠ 0) (hi : Live B s i)
    (hp : ¬ Promoted s i) (hl : s.maxpLevel = 127 ↔ ¬ Raised s) :
    Ladder B (promoteSlot s m i) ∧ SameBase s (promoteSlot s m i) ∧ Raised (promoteSlot s m i) := by
  have hlevel := h.promotedLevel_eq hi.1 hp hl
  have hnew := h.promotedLevel_ge hi.1 hp hl
  have habove : ∀ k < B.maxTaskCount, Promoted s k → s.prioCurrent k < promotedLevel s := by
    intro k hk hpk
    have hrung := h.rung k hk hpk
    have hr : Raised s := hrung.1.trans hrung.2
    rw [hlevel, if_pos hr]
    omega
  have hmut := promoted_promote (s := s) (i := i) hm
  have hidle : ∀ k, (promoteSlot s m i).state k = .idle ↔ s.state k = .idle :=
    update_idle_iff hc.2 (by decide)
  have hsaved := promote_base hm hp hl hnew
  refine ⟨⟨?_, ?_, ?_, ?_, ?_, ?_⟩, hsaved, hnew⟩
  · intro k hk hpk
    rw [Ne, hidle]
    rcases (hmut k).mp hpk with rfl | hold
    · exact hi.2
    · exact h.live k hk hold
  · intro k hk hpk
    change 128 ≤ _ ∧ _ ≤ promotedLevel s
    rcases eq_or_ne k i with rfl | hne
    · rw [promote_prio_self]
      exact ⟨hnew, le_rfl⟩
    · have hold := ((hmut k).mp hpk).resolve_left hne
      rw [promote_prio hne]
      exact ⟨(h.rung k hk hold).1, (habove k hk hold).le⟩
  · intro j hj k hk hpj hpk he
    rcases eq_or_ne j i with hji | hji <;> rcases eq_or_ne k i with hki | hki
    · exact hji.trans hki.symm
    · have hlt := habove k hk (((hmut k).mp hpk).resolve_left hki)
      rw [hji, promote_prio_self, promote_prio hki] at he
      omega
    · have hlt := habove j hj (((hmut j).mp hpj).resolve_left hji)
      rw [hki, promote_prio_self, promote_prio hji] at he
      omega
    · rw [promote_prio hji, promote_prio hki] at he
      exact h.alone j hj k hk (((hmut j).mp hpj).resolve_left hji)
        (((hmut k).mp hpk).resolve_left hki) he
  · intro v hv hle
    change v ≤ promotedLevel s at hle
    rcases eq_or_lt_of_le hle with rfl | hlt
    · exact ⟨i, hi.1, (hmut i).mpr (Or.inl rfl), promote_prio_self⟩
    · have hold : v ≤ s.maxLevel := by
        rw [hlevel] at hlt
        split at hlt <;> omega
      obtain ⟨k, hk, hpk, he⟩ := h.full v hv hold
      have hne : k ≠ i := by
        rintro rfl
        exact hp hpk
      exact ⟨k, hk, (hmut k).mpr (Or.inr hpk), by rw [promote_prio hne, he]⟩
  · rw [hsaved.level]
    exact h.level
  · intro k hk hs
    rw [hsaved.prio, hsaved.level]
    exact h.highest k hk (mt (hidle k).mpr hs)

lemma promoted_demote (k : ℕ) :
    Promoted (demoteCurrent B s) k ↔ k ≠ s.currentTask ∧ Promoted s k := by
  change update s.mutexStash s.currentTask 0 k ≠ 0 ↔ _
  rcases eq_or_ne k s.currentTask with rfl | hne
  · simp
  · simp [hne, Promoted]

lemma demote_prio (hk : k ≠ s.currentTask) :
    (demoteCurrent B s).prioCurrent k = s.prioCurrent k := update_of_ne hk _ _

lemma demote_basePrio (hp : Promoted s s.currentTask) (k : ℕ) :
    basePrio (demoteCurrent B s) k = basePrio s k := by
  rcases eq_or_ne k s.currentTask with rfl | hne
  · rw [basePrio_of_not fun hk => ((promoted_demote _).mp hk).1 rfl, basePrio_of hp]
    dsimp only [demoteCurrent]
    rw [update_self]
  · rw [basePrio, basePrio, demote_prio hne]
    refine if_congr ((promoted_demote k).trans (and_iff_right hne)) ?_ rfl
    dsimp only [demoteCurrent]
    rw [update_of_ne hne]

section Lowered

variable (hr : Raised s) (hlt : s.maxLevel < 256)
include hr hlt

lemma level_below : uint8 (s.maxLevel + 255) = s.maxLevel - 1 := by
  rw [Raised] at hr
  rw [uint8]
  omega

lemma demote_maxLevel : (demoteCurrent B s).maxLevel =
    if s.maxLevel = 128 then s.maxpLevel else s.maxLevel - 1 := by
  dsimp only [demoteCurrent]
  rw [level_below hr hlt]
  exact if_congr (by rw [Raised] at hr; omega) rfl rfl

lemma demote_maxpLevel : (demoteCurrent B s).maxpLevel =
    if s.maxLevel = 128 then 127 else s.maxpLevel := by
  dsimp only [demoteCurrent]
  rw [level_below hr hlt]
  exact if_congr (by rw [Raised] at hr; omega) rfl rfl

lemma demote_base (hp : Promoted s s.currentTask) (hsaved : s.maxpLevel ≤ 127) :
    SameBase s (demoteCurrent B s) := by
  have hdown := level_below hr hlt
  have hmax := demote_maxLevel (B := B) hr hlt
  by_cases he : s.maxLevel = 128
  · have hflat : ¬ Raised (demoteCurrent B s) := by
      rw [Raised, hmax, if_pos he]
      omega
    refine ⟨demote_basePrio hp, ?_, ?_, ?_⟩
    all_goals
      simp only [baseLevel, baseAlc, baseHlc, if_neg hflat, if_pos hr]
      dsimp only [demoteCurrent]
      rw [hdown, if_pos (by omega)]
  · have hstill : Raised (demoteCurrent B s) := by
      rw [Raised] at hr
      rw [Raised, hmax, if_neg he]
      omega
    refine ⟨demote_basePrio hp, ?_, ?_, ?_⟩ <;>
      simp only [baseLevel, baseAlc, baseHlc, if_pos hstill, if_pos hr]
    · dsimp only [demoteCurrent]
      rw [hdown, if_neg (by omega)]
    · dsimp only [demoteCurrent]
    · dsimp only [demoteCurrent]

end Lowered

lemma demote (h : Ladder B s) (hc : s.currentTask < B.maxTaskCount) (hp : Promoted s s.currentTask)
    (htop : s.prioCurrent s.currentTask = s.maxLevel) :
    Ladder B (demoteCurrent B s) ∧ SameBase s (demoteCurrent B s) := by
  have hr : Raised s := by
    rw [Raised, ← htop]
    exact (h.rung _ hc hp).1
  have hsaved := h.level
  rw [baseLevel_raised hr] at hsaved
  have hmut := promoted_demote (B := B) (s := s)
  have hbelow : ∀ k < B.maxTaskCount, k ≠ s.currentTask → Promoted s k →
      s.prioCurrent k < s.maxLevel := by
    intro k hk hne hpk
    refine lt_of_le_of_ne (h.rung k hk hpk).2 fun he => hne ?_
    exact h.alone k hk _ hc hpk hp (he.trans htop.symm)
  have hmax := demote_maxLevel (B := B) hr h.maxLevel_lt
  have hsame := demote_base (B := B) hr h.maxLevel_lt hp hsaved
  refine ⟨⟨?_, ?_, ?_, ?_, ?_, ?_⟩, hsame⟩
  · intro k hk hpk
    rw [Ne, Consistent.demote_idle_iff]
    exact h.live k hk ((hmut k).mp hpk).2
  · intro k hk hpk
    obtain ⟨hne, hold⟩ := (hmut k).mp hpk
    have hrung := h.rung k hk hold
    have hlt := hbelow k hk hne hold
    rw [demote_prio hne, hmax, if_neg (by omega)]
    omega
  · intro j hj k hk hpj hpk he
    obtain ⟨hnj, hoj⟩ := (hmut j).mp hpj
    obtain ⟨hnk, hok⟩ := (hmut k).mp hpk
    rw [demote_prio hnj, demote_prio hnk] at he
    exact h.alone j hj k hk hoj hok he
  · intro v hv hle
    rw [hmax] at hle
    have hbound : v < s.maxLevel := by
      rw [Raised] at hr
      split at hle <;> omega
    obtain ⟨k, hk, hpk, he⟩ := h.full v hv hbound.le
    have hne : k ≠ s.currentTask := by
      rintro rfl
      omega
    exact ⟨k, hk, (hmut k).mpr ⟨hne, hpk⟩, by rw [demote_prio hne, he]⟩
  · rw [hsame.level]
    exact h.level
  · intro k hk hs
    rw [hsame.prio, hsame.level]
    exact h.highest k hk (mt (Consistent.demote_idle_iff s k).mpr hs)

section Fill

variable {p : ℕ} (arg ptr : ℕ) (stash : ℕ → ℕ)

lemma fill_basePrio (h : Ladder B s) (hi : idleSlot B s < B.maxTaskCount) :
    basePrio (fillSlot B s p arg ptr stash) =
      update (basePrio s) (idleSlot B s) (s.objs p).priority := by
  have hnot := h.idle_not_promoted hi (Table.idleSlot_idle hi)
  have hprio : (fillSlot B s p arg ptr stash).prioCurrent =
      update s.prioCurrent (idleSlot B s) (s.objs p).priority := by
    dsimp only [fillSlot, placeTask]
  have hmut : ∀ k, Promoted (fillSlot B s p arg ptr stash) k ↔ Promoted s k := fun _ => Iff.rfl
  funext k
  rcases eq_or_ne k (idleSlot B s) with rfl | hne
  · rw [update_self, basePrio_of_not (mt (hmut _).mp hnot), hprio, update_self]
  · rw [update_of_ne hne, basePrio, basePrio, hprio, update_of_ne hne]
    exact if_congr Iff.rfl rfl rfl

variable (h : Ladder B s) (hi : idleSlot B s < B.maxTaskCount)
  (hib : (s.objs p).hibernate &&& hibernateStateMask ≠ hibernateStateMask)
include h hi hib

lemma fill_maxLevel :
    (fillSlot B s p arg ptr stash).maxLevel = max s.maxLevel (s.objs p).priority :=
  (newLevels_spec hi hib fun _ hj hs => h.prio_le hj hs).level_eq

variable (hq : (s.objs p).priority ≤ 127)
include hq

lemma fill_raised : Raised (fillSlot B s p arg ptr stash) ↔ Raised s := by
  rw [Raised, h.fill_maxLevel arg ptr stash hi hib, Raised]
  omega

variable (hr : Raised s → (s.objs p).priority < baseLevel s)
include hr

lemma fill_admits : Admits (baseLevel s) (baseAlc s) (baseHlc s) (s.objs p).priority
    (baseLevel (fillSlot B s p arg ptr stash)) (baseAlc (fillSlot B s p arg ptr stash))
    (baseHlc (fillSlot B s p arg ptr stash)) := by
  have hraised := h.fill_raised arg ptr stash hi hib hq
  by_cases hs : Raised s
  · have ht := hraised.mpr hs
    simp only [baseLevel, baseAlc, baseHlc, if_pos ht, if_pos hs]
    apply Admits.below
    rw [← baseLevel_raised hs]
    exact hr hs
  · have ht := mt hraised.mp hs
    simp only [baseLevel, baseAlc, baseHlc, if_neg ht, if_neg hs]
    exact newLevels_spec hi hib fun _ hj hs => h.prio_le hj hs

lemma fill : Ladder B (fillSlot B s p arg ptr stash) := by
  have hadm := (h.fill_admits arg ptr stash hi hib hq hr).level_eq
  have hmax := h.fill_maxLevel arg ptr stash hi hib
  have hbase := h.fill_basePrio (p := p) arg ptr stash hi
  have hnot := h.idle_not_promoted hi (Table.idleSlot_idle hi)
  have hstate : (fillSlot B s p arg ptr stash).state = update s.state (idleSlot B s) .sleep :=
    Table.newState_eq hib
  have hold : ∀ k, Promoted s k → (fillSlot B s p arg ptr stash).prioCurrent k = s.prioCurrent k := by
    intro k hp
    have hne : k ≠ idleSlot B s := by
      rintro rfl
      exact hnot hp
    exact update_of_ne hne ..
  have hlevel := h.level
  constructor
  · intro k hk hp
    rw [hstate]
    rcases eq_or_ne k (idleSlot B s) with rfl | hne
    · simp
    · rw [update_of_ne hne]
      exact h.live k hk hp
  · intro k hk hp
    have hrung := h.rung k hk hp
    rw [hold k hp, hmax]
    exact ⟨hrung.1, hrung.2.trans (le_max_left ..)⟩
  · intro j hj k hk hpj hpk he
    rw [hold j hpj, hold k hpk] at he
    exact h.alone j hj k hk hpj hpk he
  · intro v hv hle
    rw [hmax] at hle
    obtain ⟨k, hk, hp, he⟩ := h.full v hv (by omega)
    exact ⟨k, hk, hp, by rw [hold k hp, he]⟩
  · rw [hadm]
    exact max_le hlevel hq
  · intro k hk hs
    rw [hbase, hadm]
    rcases eq_or_ne k (idleSlot B s) with rfl | hne
    · rw [update_self]
      exact le_max_right ..
    · rw [hstate, update_of_ne hne] at hs
      rw [update_of_ne hne]
      exact (h.highest k hk hs).trans (le_max_left ..)

end Fill

section Drop

variable (f : Bool) (ptr : ℕ) (stash : ℕ → ℕ)
variable (h0 : Live B s 0) (hi : i ≠ 0)

include h0 hi in
lemma drop_top : Top B s.prioCurrent (update s.state i .idle)
    (dropTask B s i f ptr stash).maxLevel := by
  apply highestLevel_top
  exact ⟨0, h0.1, (CountersExact.update_ne_idle_iff ..).mpr ⟨h0.2, hi.symm⟩⟩

variable (h : Ladder B s) (hp : ¬ Promoted s i)
include h h0 hi hp

lemma drop_maxLevel (hr : Raised s) : (dropTask B s i f ptr stash).maxLevel = s.maxLevel := by
  refine Top.unique (drop_top f ptr stash h0 hi) ⟨?_, fun k hk hs => ?_⟩
  · obtain ⟨k, hk, hpk, he⟩ := h.full s.maxLevel hr le_rfl
    have hne : k ≠ i := by
      rintro rfl
      exact hp hpk
    exact ⟨k, hk, (CountersExact.update_ne_idle_iff ..).mpr ⟨h.live k hk hpk, hne⟩, he⟩
  · exact h.prio_le hk ((CountersExact.update_ne_idle_iff ..).mp hs).1

lemma drop_raised : Raised (dropTask B s i f ptr stash) ↔ Raised s := by
  by_cases hr : Raised s
  · rw [Raised, h.drop_maxLevel f ptr stash h0 hi hp hr, Raised]
  · refine iff_of_false (fun ht => hr ?_) hr
    obtain ⟨k, hk, hs, he⟩ := (drop_top f ptr stash h0 hi).attained
    have hle := h.prio_le hk ((CountersExact.update_ne_idle_iff ..).mp hs).1
    rw [Raised] at ht ⊢
    omega

lemma drop_base (hr : Raised s) : SameBase s (dropTask B s i f ptr stash) := by
  have ht := (h.drop_raised f ptr stash h0 hi hp).mpr hr
  refine ⟨fun _ => rfl, ?_, ?_, ?_⟩ <;> simp only [baseLevel, baseAlc, baseHlc, if_pos ht, if_pos hr]
  all_goals dsimp only [dropTask]

lemma drop : Ladder B (dropTask B s i f ptr stash) := by
  have htop := drop_top f ptr stash h0 hi
  have hraised := h.drop_raised f ptr stash h0 hi hp
  have hlive : ∀ k, (dropTask B s i f ptr stash).state k ≠ .idle ↔ s.state k ≠ .idle ∧ k ≠ i :=
    CountersExact.update_ne_idle_iff s.state i
  have hmax : ∀ k < B.maxTaskCount, Promoted s k → (dropTask B s i f ptr stash).maxLevel = s.maxLevel := by
    intro k hk hpk
    have hrung := h.rung k hk hpk
    exact h.drop_maxLevel f ptr stash h0 hi hp (hrung.1.trans hrung.2)
  constructor
  · intro k hk hpk
    refine (hlive k).mpr ⟨h.live k hk hpk, ?_⟩
    rintro rfl
    exact hp hpk
  · intro k hk hpk
    rw [hmax k hk hpk]
    exact h.rung k hk hpk
  · exact h.alone
  · intro v hv hle
    have hr : Raised s := hraised.mp (hv.trans hle)
    rw [h.drop_maxLevel f ptr stash h0 hi hp hr] at hle
    exact h.full v hv hle
  · by_cases hr : Raised s
    · rw [(h.drop_base f ptr stash h0 hi hp hr).level]
      exact h.level
    · rw [baseLevel_flat (mt hraised.mp hr)]
      have hflat := mt hraised.mp hr
      rw [Raised] at hflat
      omega
  · intro k hk hs
    have hold := ((hlive k).mp hs).1
    by_cases hr : Raised s
    · rw [(h.drop_base f ptr stash h0 hi hp hr).level]
      exact h.highest k hk hold
    · rw [baseLevel_flat (mt hraised.mp hr)]
      have hnot : ¬ Promoted (dropTask B s i f ptr stash) k := h.not_promoted hr hk
      rw [basePrio_of_not hnot]
      exact htop.highest k hk hs

end Drop

end Ladder

/-- Regular calls with promotions and no base invocation. While a task is promoted every creation
stays below the saved level; no promoted task is killed or ends; PRIORITY_PROMOTE names a live task
that is not promoted and finds `maxp_level` at 127 exactly outside any promotion; the promotion that
ends is the one that began last. -/
def Steady (B : Build) (s : KernelState) : Event → Prop
  | .createTask p arg =>
    Regular B s (.createTask p arg) ∧ (Raised s → (s.objs p).priority < baseLevel s)
  | .killTask pid => Regular B s (.killTask pid) ∧ ¬ Promoted s (slotNumber pid)
  | .endTask => Regular B s .endTask ∧ ¬ Promoted s s.currentTask
  | .promote m => m ≠ 0 ∧ Live B s (s.mem m >>> 16) ∧ ¬ Promoted s (s.mem m >>> 16) ∧
      (s.maxpLevel = 127 ↔ ¬ Raised s)
  | .unlockTest m =>
    m ≠ 0 ∧ (s.mutexStash s.currentTask = m → s.prioCurrent s.currentTask = s.maxLevel)
  | .invokeBase _ | .releaseBase _ => False
  | e => Regular B s e

instance (s : KernelState) (e : Event) : Decidable (Steady B s e) :=
  match e with
  | .createTask _ _ | .killTask _ | .endTask | .promote _ | .unlockTest _ =>
    inferInstanceAs (Decidable (_ ∧ _))
  | .startScheduler => inferInstanceAs (Decidable (Regular B s .startScheduler))
  | .invokeBase _ | .releaseBase _ => isFalse id
  | .hibernate .. | .handOver | .grantPermission .. | .mutexLock _ | .clearMutex _ | .store ..
  | .fillTask .. | .tick | .scheduler | .contextSwitch => isTrue trivial

lemma Steady.regular (h : Steady B s e) : Regular B s e := by
  cases e with
  | invokeBase | releaseBase => exact h.elim
  | createTask | killTask | endTask => exact h.1
  | promote | unlockTest => trivial
  | _ => exact h

lemma scheduled_idle_iff (hs : Consistent B s) (hq : s.switchPending = false) {w : KernelState}
    {c : Selection} (h : Scheduled B s w c) (hk : k < B.maxTaskCount) :
    (leaveScheduler w c).state k = .idle ↔ s.state k = .idle := by
  have hw : Live B w k ↔ Live B s k := h.wakes.live.trans (hs.live_enter hq)
  have hpick := hs.pick_live hq h
  refine (update_idle_iff hpick.2 (by decide) k).trans ?_
  simpa [Live, hk] using not_congr hw

lemma scheduled_rungs {w : KernelState} {c : Selection} (h : Scheduled B s w c) :
    SameRungs s (leaveScheduler w c) := by
  obtain ⟨⟨st, a, b, hframe⟩, -⟩ := h.wakes
  rw [hframe]
  exact ⟨rfl, rfl, rfl, rfl, rfl⟩

lemma handOver_rungs (s : KernelState) : SameRungs s (handOverState s) := ⟨rfl, rfl, rfl, rfl, rfl⟩

lemma handOver_idle_iff (hc : Live B s s.currentTask) (k : ℕ) :
    (handOverState s).state k = .idle ↔ s.state k = .idle := by
  dsimp only [handOverState]
  split
  · exact Iff.rfl
  · exact update_idle_iff hc.2 (by decide) k

lemma Ladder.step (h : Ladder B s) (hs : Consistent B s)
    (hstart : e = .startScheduler → s.firstStart = false → ¬ Raised s) (hok : Steady B s e)
    (he : Effect B s e t) : Ladder B t := by
  cases he with
  | created hth hc => exact h.fill _ _ _ hc.slot hok.1.2 hc.priority hok.2
  | started hth hf =>
    have hflat := hstart rfl hf
    have hbegin : Ladder B (startState B { s with currentTask := 0 }) := by
      have hbase : ∀ k, basePrio (startState B { s with currentTask := 0 }) k = basePrio s k :=
        fun _ => rfl
      have hlevel : baseLevel (startState B { s with currentTask := 0 }) = baseLevel s := by
        rw [baseLevel_flat hflat]
        exact baseLevel_flat (s := startState B { s with currentTask := 0 }) hflat
      exact ⟨h.live, h.rung, h.alone, h.full, hlevel ▸ h.level,
        fun k hk hi => hlevel ▸ hbase k ▸ h.highest k hk hi⟩
    exact hbegin.keep (handOver_rungs _) fun k _ => handOver_idle_iff (B := B) hs.base k
  | killed hth => exact h.drop _ _ _ hs.base hok.1.2.1 hok.2
  | ended hth =>
    obtain ⟨⟨h0, hnum⟩, hp⟩ := hok
    rw [hnum]
    refine (h.drop true _ _ hs.base h0 hp).keep (handOver_rungs _) fun k _ => ?_
    exact Iff.rfl
  | hibernated hth =>
    refine h.keep ⟨rfl, rfl, rfl, rfl, rfl⟩ fun k _ => ?_
    refine update_idle_iff (hs.in_thread hth).2.1.2 ?_ k
    split <;> decide
  | handedOver hth =>
    exact h.keep (handOver_rungs _) fun k _ => handOver_idle_iff (hs.in_thread hth).2.1 k
  | promoted hth =>
    obtain ⟨hm, hlive, hp, hl⟩ := hok
    exact (h.promote (hs.in_thread hth).2.1 hm hlive hp hl).1
  | demoted hth hm =>
    obtain ⟨hne, htop⟩ := hok
    have hc := (hs.in_thread hth).2.1
    have hp : Promoted s s.currentTask := by rwa [Promoted, hm]
    have hc' : Live B (demoteCurrent B s) (demoteCurrent B s).currentTask :=
      ⟨hc.1, mt (Consistent.demote_idle_iff s _).mp hc.2⟩
    exact (h.demote hc.1 hp (htop hm)).1.keep (handOver_rungs _) fun k _ => handOver_idle_iff hc' k
  | ticked hth _ hsch =>
    exact h.keep (scheduled_rungs hsch) fun k hk => scheduled_idle_iff hs hth.2 hsch hk
  | scheduled _ hq hsch =>
    exact h.keep (scheduled_rungs hsch) fun k hk => scheduled_idle_iff hs hq hsch hk
  | invokeRefused | invoked | releaseRefused | released => exact hok.elim
  | _ => exact h.keep ⟨rfl, rfl, rfl, rfl, rfl⟩ fun _ _ => Iff.rfl

end Skibios.Promotion.Rungs

import Skibios.Tasks.Identity

/-! The list of levels in use: what the search, the insertion and the removal do to it, and what it
holds in a system without promotions. -/

namespace Skibios.Tasks.LevelStash

open Function Library.Words Library.Loops Library.Runs
open Kernel State TaskServices Services Scheduler SchedulerLoops Events Effects Invariants Identity

variable {B : Build} {s t : KernelState} {e : Event} {stash : ℕ → ℕ} {p L i k : ℕ}

/-- A search stays in `[0, L]`, or has gone left of index 0 and faults at its next turn. -/
def Within (L : ℕ) (c : Search) : Prop :=
  (c.upper ≤ L ∧ c.index ≤ L) ∨ (c.lower = 0 ∧ c.upper = 4294967295)

lemma probe_lt {c : Search} (hL : L < 256) (hc : c.upper ≤ L) (hle : c.lower ≤ c.upper) :
    uint8 (c.lower + (c.upper - c.lower) / 2) ≤ L ∧
      (uint8 (c.lower + (c.upper - c.lower) / 2) = 0 → c.lower = 0) := by
  rw [uint8_eq (by omega)]
  omega

lemma probe_outside (B : Build) {c : Search} (hl : c.lower = 0) (hu : c.upper = 4294967295) :
    B.maxTaskCount ≤ uint8 (c.lower + (c.upper - c.lower) / 2) := by
  have hN := B.maxTaskCount_le
  rw [hl, hu]
  exact hN.trans (by decide)

lemma search_again {c d : Search} (hL : L < 256) (hc : Within L c)
    (h : searchTurn B stash p c = .again d) : Within L d := by
  simp only [searchTurn] at h
  split_ifs at h with h1 h2 h3 h4
  · obtain rfl := Turn.again.inj h
    rcases hc with ⟨hu, -⟩ | ⟨hl, hu⟩
    · exact Or.inl ⟨hu, (probe_lt hL hu h1).1⟩
    · exact absurd (probe_outside B hl hu) h2
  · obtain rfl := Turn.again.inj h
    rcases hc with ⟨hu, -⟩ | ⟨hl, hu⟩
    · obtain ⟨hle, hzero⟩ := probe_lt hL hu h1
      generalize uint8 (c.lower + (c.upper - c.lower) / 2) = x at hle hzero
      rcases Nat.eq_zero_or_pos x with rfl | hx
      · exact Or.inr ⟨hzero rfl, rfl⟩
      · refine Or.inl ⟨?_, hle⟩
        simp only [uint32]
        omega
    · exact absurd (probe_outside B hl hu) h2

lemma search_leave {c : Search} {r : Option ℕ} (hL : L < 256) (hc : Within L c)
    (h : searchTurn B stash p c = .leave r) :
    (r = none → ∃ i ≤ L, stash i = p) ∧ ∀ i, r = some i → i ≤ L := by
  simp only [searchTurn] at h
  split_ifs at h with h1 h2 h3
  · obtain rfl := Turn.leave.inj h
    refine ⟨fun _ => ?_, fun i hi => by cases hi⟩
    rcases hc with ⟨hu, -⟩ | ⟨hl, hu⟩
    · exact ⟨_, (probe_lt hL hu h1).1, h3⟩
    · exact absurd (probe_outside B hl hu) h2
  · obtain rfl := Turn.leave.inj h
    refine ⟨(fun hr => by cases hr), fun i hi => ?_⟩
    rcases hc with ⟨-, hx⟩ | ⟨hl, hu⟩
    · exact (Option.some.inj hi) ▸ hx
    · omega

lemma search_spec {n : ℕ} {r : Option ℕ} (hL : L < 256)
    (h : runLoop (searchTurn B stash p) n ⟨0, L, 0⟩ = some r) :
    (r = none → ∃ i ≤ L, stash i = p) ∧ ∀ i, r = some i → i ≤ L :=
  runLoop_invariant (fun _ _ hc hd => search_again hL hc hd) (fun _ _ hc hr => search_leave hL hc hr)
    (Or.inl ⟨le_rfl, Nat.zero_le _⟩) h

lemma shiftUp_apply {low j : ℕ} (hlow : low ≤ j) (stash : ℕ → ℕ) (i : ℕ) :
    shiftUp stash low j i = if low < i ∧ i ≤ j then stash (i - 1) else stash i := by
  induction j generalizing stash with
  | zero =>
    rw [shiftUp, if_neg]
    omega
  | succ j ih =>
    rw [shiftUp]
    split_ifs with h1 h2 h2
    · rw [ih (by omega)]
      rcases eq_or_ne i (j + 1) with rfl | hne
      · simp
      · rw [if_pos (by omega), update_of_ne (by omega)]
    · rw [ih (by omega), if_neg (by omega), update_of_ne (by omega)]
    · omega
    · rfl

lemma inserted_apply {index : ℕ} (hle : index ≤ L) (stash : ℕ → ℕ) (p i : ℕ) :
    update (shiftUp stash index L) index p i =
      if i < index then stash i else if i = index then p else if i ≤ L then stash (i - 1)
      else stash i := by
  rcases lt_trichotomy i index with hlt | rfl | hgt
  · rw [update_of_ne hlt.ne, shiftUp_apply hle, if_neg (by omega), if_pos hlt]
  · simp
  · rw [update_of_ne hgt.ne', shiftUp_apply hle, if_neg (by omega : ¬ i < index), if_neg hgt.ne']
    simp [hgt]

inductive Inserts (B : Build) (s : KernelState) (p : ℕ) : ℕ → (ℕ → ℕ) → Prop
  | found {i : ℕ} (hi : i ≤ s.lstashPtr) (hp : s.levelStash i = p) :
      Inserts B s p s.lstashPtr s.levelStash
  | inserted {index : ℕ} (hi : index ≤ s.lstashPtr) (hl : s.lstashPtr < B.maxTaskCount) :
      Inserts B s p (s.lstashPtr + 1)
        (update (shiftUp s.levelStash index s.lstashPtr) index p)

lemma insertLevel_spec {ptr : ℕ} (hL : s.lstashPtr < 256)
    (h : insertLevel B s p = some (ptr, stash)) : Inserts B s p ptr stash := by
  have hN := B.maxTaskCount_le
  obtain ⟨r, hr, h⟩ := Option.bind_eq_some_iff.mp h
  obtain ⟨hnone, hsome⟩ := search_spec hL hr
  cases r with
  | none =>
    obtain ⟨rfl, rfl⟩ := Prod.mk.inj (Option.some.inj h)
    obtain ⟨i, hi, hp⟩ := hnone rfl
    exact .found hi hp
  | some index =>
    dsimp only at h
    split_ifs at h with hl
    obtain ⟨rfl, rfl⟩ := Prod.mk.inj (Option.some.inj h)
    rw [uint8_eq (by omega)]
    exact .inserted (hsome index rfl) (not_le.mp hl)

/-- The removal loop after `j` turns: untouched until the level is met, shifted from there on. -/
def DropState (p : ℕ) (stash : ℕ → ℕ) (j : ℕ) (d : Bool × (ℕ → ℕ)) : Prop :=
  (d = (false, stash) ∧ ∀ i < j, stash i ≠ p) ∨
    ∃ f < j, stash f = p ∧ d = (true, fun i => if f ≤ i ∧ i < j then stash (i + 1) else stash i)

lemma dropLevel_spec (p ptr : ℕ) (stash : ℕ → ℕ) :
    DropState p stash ptr (dropLevel p ptr stash) := by
  refine forRange_invariant (DropState p stash) ptr (Or.inl ⟨rfl, nofun⟩) ?_
  rintro j d - (⟨rfl, hne⟩ | ⟨f, hf, hp, rfl⟩)
  · by_cases hp : stash j = p
    · refine Or.inr ⟨j, by omega, hp, ?_⟩
      rw [if_pos (Or.inr hp)]
      refine Prod.ext rfl (funext fun i => ?_)
      dsimp only
      rcases eq_or_ne i j with rfl | hi
      · simp
      · rw [update_of_ne hi, if_neg (by omega)]
    · refine Or.inl ⟨if_neg (by simp [hp]), fun i hi => ?_⟩
      rcases eq_or_ne i j with rfl | hij
      · exact hp
      · exact hne i (by omega)
  · refine Or.inr ⟨f, by omega, hp, ?_⟩
    rw [if_pos (Or.inl rfl)]
    refine Prod.ext rfl (funext fun i => ?_)
    dsimp only
    rcases eq_or_ne i j with rfl | hi
    · rw [update_self, if_neg (by omega), if_pos (by omega)]
    · rw [update_of_ne hi]
      exact if_congr (by omega) rfl rfl

/-- Without promotions the stash lists the level of every live task in front of zeros. -/
structure Stash (B : Build) (s : KernelState) : Prop where
  le : s.lstashPtr ≤ B.maxTaskCount
  tail : ∀ i, s.lstashPtr ≤ i → s.levelStash i = 0
  member : ∀ k, Live B s k → ∃ i < s.lstashPtr, s.levelStash i = s.prioCurrent k
  base : s.prioCurrent 0 = 0

namespace Stash

lemma lt (h : Stash B s) : s.lstashPtr < 256 := by
  have hle := h.le
  have hN := B.maxTaskCount_le
  omega

lemma pos (h : Stash B s) (hs : Consistent B s) : 0 < s.lstashPtr := by
  obtain ⟨i, hi, -⟩ := h.member 0 hs.base
  omega

lemma keep (h : Stash B s) (hl : ∀ k, Live B t k → Live B s k) (hp : t.lstashPtr = s.lstashPtr)
    (hs : t.levelStash = s.levelStash) (hc : t.prioCurrent = s.prioCurrent) : Stash B t := by
  refine ⟨hp ▸ h.le, fun i hi => ?_, fun k hk => ?_, hc ▸ h.base⟩
  · rw [hs]
    exact h.tail i (hp ▸ hi)
  · rw [hp, hs, hc]
    exact h.member k (hl k hk)

lemma inserts (h : Stash B s) (hs : Consistent B s) {ptr : ℕ} (hi : Inserts B s p ptr stash) :
    ptr ≤ B.maxTaskCount ∧ (∀ i, ptr ≤ i → stash i = 0) ∧ (∃ i < ptr, stash i = p) ∧
      ∀ v, (∃ i < s.lstashPtr, s.levelStash i = v) → ∃ i < ptr, stash i = v := by
  cases hi with
  | @found i hi hp =>
    refine ⟨h.le, h.tail, ?_, fun _ hv => hv⟩
    rcases eq_or_lt_of_le hi with rfl | hlt
    · rw [h.tail _ le_rfl] at hp
      have hbase := h.member 0 hs.base
      rwa [h.base, hp] at hbase
    · exact ⟨i, hlt, hp⟩
  | @inserted index hi hl =>
    refine ⟨hl, fun i hi' => ?_, ⟨index, by omega, update_self ..⟩, ?_⟩
    · rw [inserted_apply hi, if_neg (by omega), if_neg (by omega), if_neg (by omega)]
      exact h.tail i (by omega)
    · rintro v ⟨i, hiv, rfl⟩
      by_cases hlt : i < index
      · exact ⟨i, by omega, by rw [inserted_apply hi, if_pos hlt]⟩
      · refine ⟨i + 1, by omega, ?_⟩
        rw [inserted_apply hi, if_neg (by omega), if_neg (by omega), if_pos (by omega)]
        rfl

lemma create (h : Stash B s) (hs : Consistent B s) {arg ptr : ℕ}
    (ht : Consistent B (fillSlot B s p arg ptr stash)) (hc : Creates B s p ptr stash) :
    Stash B (fillSlot B s p arg ptr stash) := by
  obtain ⟨hle, htail, hnew, hold⟩ := h.inserts hs (insertLevel_spec h.lt hc.insert)
  have hprio : (fillSlot B s p arg ptr stash).prioCurrent =
      update s.prioCurrent (idleSlot B s) (s.objs p).priority := by
    dsimp only [fillSlot, placeTask]
  refine ⟨hle, htail, fun k hk => ?_, ?_⟩
  · rw [hprio]
    rcases eq_or_ne k (idleSlot B s) with rfl | hne
    · rw [update_self]
      exact hnew
    · have hid := (ht.ids k hk.1).mpr hk.2
      rw [fillSlot_taskId, update_of_ne hne] at hid
      rw [update_of_ne hne]
      exact hold _ (h.member k ⟨hk.1, (hs.ids k hk.1).mp hid⟩)
  · have h0 : (0 : ℕ) ≠ idleSlot B s := by
      intro heq
      have hidle := Table.idleSlot_idle hc.slot
      rw [← heq] at hidle
      exact hs.base.2 hidle
    rw [hprio, update_of_ne h0]
    exact h.base

lemma removes (h : Stash B s) (hs : Consistent B s) {ptr : ℕ} (hi : Live B s i)
    (hr : removeLevel B s i = some (ptr, stash)) :
    ptr ≤ B.maxTaskCount ∧ (∀ j, ptr ≤ j → stash j = 0) ∧
      ∀ k, Live B s k → k ≠ i → ∃ j < ptr, stash j = s.prioCurrent k := by
  have hpos := h.pos hs
  have hlt := h.lt
  have hle := h.le
  unfold removeLevel at hr
  split at hr
  · obtain ⟨rfl, rfl⟩ := Prod.mk.inj (Option.some.inj hr)
    exact ⟨h.le, h.tail, fun k hk _ => h.member k hk⟩
  rename_i hunique
  obtain ⟨q, hq, hqp⟩ := h.member i hi
  rcases dropLevel_spec (s.prioCurrent i) s.lstashPtr s.levelStash with ⟨-, hnone⟩ | ⟨f, hf, hfp, hd⟩
  · exact absurd hqp (hnone q hq)
  dsimp only at hr
  split at hr
  · cases hr
  rw [hd] at hr
  obtain ⟨rfl, rfl⟩ := Prod.mk.inj (Option.some.inj hr)
  rw [show uint8 (s.lstashPtr + 255) = s.lstashPtr - 1 by simp only [uint8]; omega]
  dsimp only
  refine ⟨by omega, fun j hj => ?_, fun k hk hne => ?_⟩
  · split_ifs with h1
    · exact h.tail _ (by omega)
    · exact h.tail _ (by omega)
  · obtain ⟨j, hj, hjp⟩ := h.member k hk
    have hjf : j ≠ f := by
      rintro rfl
      exact hunique ⟨k, hk.1, hne, hjp.symm.trans hfp⟩
    by_cases hlt' : j < f
    · exact ⟨j, by omega, by rw [if_neg (by omega), hjp]⟩
    · refine ⟨j - 1, by omega, ?_⟩
      rw [if_pos (by omega), ← hjp]
      congr 1
      omega

lemma drop (h : Stash B s) (hs : Consistent B s) {f : Bool} {ptr : ℕ} (hi : Live B s i)
    (hr : removeLevel B s i = some (ptr, stash)) : Stash B (dropTask B s i f ptr stash) := by
  obtain ⟨hle, htail, hmem⟩ := h.removes hs hi hr
  refine ⟨hle, htail, fun k hk => ?_, h.base⟩
  obtain ⟨hkN, hks⟩ := hk
  change update s.state i .idle k ≠ .idle at hks
  rcases eq_or_ne k i with rfl | hne
  · simp at hks
  · rw [update_of_ne hne] at hks
    exact hmem k ⟨hkN, hks⟩ hne

lemma booted (B : Build) (mem : ℕ → ℕ) (objs : ℕ → TaskObject) (stack : ℕ → ℕ) :
    Stash B (booted B mem objs stack) :=
  ⟨B.maxTaskCount_pos, fun _ _ => rfl, fun _ _ => ⟨0, Nat.one_pos, rfl⟩, rfl⟩

end Stash

section Byte

lemma lstashPtr_step (h : s.lstashPtr < 256) (he : Effect B s e t) : t.lstashPtr < 256 := by
  have hdrop : ∀ {i ptr : ℕ} {stash : ℕ → ℕ}, Kills B s i ptr stash → ptr < 256 := by
    intro i ptr stash hk
    have hr := hk.remove
    unfold removeLevel at hr
    split at hr
    · obtain ⟨rfl, -⟩ := Prod.mk.inj (Option.some.inj hr)
      exact h
    · dsimp only at hr
      split at hr
      · cases hr
      · obtain ⟨rfl, -⟩ := Prod.mk.inj (Option.some.inj hr)
        exact uint8_lt _
  cases he with
  | created _ hc =>
    obtain ⟨x, -, hins⟩ := Option.bind_eq_some_iff.mp hc.insert
    cases x with
    | none =>
      obtain ⟨rfl, -⟩ := Prod.mk.inj (Option.some.inj hins)
      exact h
    | some index =>
      dsimp only at hins
      split_ifs at hins
      obtain ⟨rfl, -⟩ := Prod.mk.inj (Option.some.inj hins)
      exact uint8_lt _
  | killed _ hk => exact hdrop hk
  | ended _ hk => exact hdrop hk
  | ticked _ _ hs | scheduled _ _ hs =>
    obtain ⟨⟨st, a, b, hframe⟩, -⟩ := hs.wakes
    rw [hframe]
    exact h
  | _ => exact h

variable {mem : ℕ → ℕ} {objs : ℕ → TaskObject} {stack : ℕ → ℕ}

lemma lstashPtr_run (h : Run (Step B) (bootState B mem objs stack) es s) : s.lstashPtr < 256 := by
  refine h.invariant (I := fun s => s.lstashPtr < 256) (fun _ _ _ hs he => ?_) ?_
  · exact lstashPtr_step hs (step_effect he)
  · obtain ⟨objs', stack', hb⟩ := bootState_eq B mem objs stack
    rw [hb]
    change 1 < 256
    decide

end Byte

def Unpromoted (B : Build) (s : KernelState) : Event → Prop
  | .invokeBase _ | .releaseBase _ | .promote _ | .mutexLock _ | .clearMutex _ | .unlockTest _ => False
  | e => Regular B s e

instance (s : KernelState) (e : Event) : Decidable (Unpromoted B s e) :=
  match e with
  | .invokeBase _ | .releaseBase _ | .promote _ | .mutexLock _ | .clearMutex _ | .unlockTest _ =>
    isFalse id
  | .createTask p a => inferInstanceAs (Decidable (Regular B s (.createTask p a)))
  | .startScheduler => inferInstanceAs (Decidable (Regular B s .startScheduler))
  | .killTask pid => inferInstanceAs (Decidable (Regular B s (.killTask pid)))
  | .endTask => inferInstanceAs (Decidable (Regular B s .endTask))
  | .hibernate .. | .handOver | .grantPermission .. | .store .. | .fillTask .. | .tick | .scheduler
  | .contextSwitch => isTrue trivial

lemma Unpromoted.regular (h : Unpromoted B s e) : Regular B s e := by
  cases e with
  | invokeBase | releaseBase | promote | mutexLock | clearMutex | unlockTest => exact h.elim
  | _ => exact h

lemma Stash.step (h : Stash B s) (hs : Consistent B s) (hok : Unpromoted B s e)
    (he : Effect B s e t) : Stash B t := by
  have ht := hs.step hok.regular he
  have hlive : NoneCreated s e t → ∀ k, Live B t k → Live B s k :=
    fun hn k hk => (live_kept hs ht hn hk).1
  rcases he.taskId with ⟨p, arg, ptr, stash, rfl, hc, rfl⟩ | hnone
  · exact h.create hs ht hc
  · replace hlive := hlive hnone
    cases he with
    | created _ hc => exact h.create hs ht hc
    | killed _ hk => exact h.drop hs hok.1 hk.remove
    | ended hth hk =>
      have hcur := (hs.in_thread hth).2.1
      have hnum : slotNumber (s.taskId s.currentTask) = s.currentTask := hok.2
      have hdrop := h.drop (f := true) hs hcur (hnum ▸ hk.remove)
      rw [hnum]
      exact hdrop.keep (fun _ hk => hk) rfl rfl rfl
    | ticked _ _ hsch | scheduled _ _ hsch =>
      obtain ⟨⟨st, a, c, heq⟩, -⟩ := hsch.wakes
      exact h.keep hlive (by rw [heq]; rfl) (by rw [heq]; rfl) (by rw [heq]; rfl)
    | invokeRefused | invoked | releaseRefused | released | promoted | lockRefused | locked | cleared
    | kept | demoted => exact hok.elim
    | _ => exact h.keep hlive rfl rfl rfl

end Skibios.Tasks.LevelStash

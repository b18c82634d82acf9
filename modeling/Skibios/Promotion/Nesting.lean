import Skibios.Sharing.Waiters

/-! Chains of promotions: a promoted task blocks in its turn, the task it waits for is promoted above
it, and the promotions end in the opposite order. -/

namespace Skibios.Promotion.Nesting

open Function Library.Words Library.Loops Library.Runs
open Kernel State TaskServices Services Scheduler SchedulerLoops Events Effects
open Tasks Invariants Rungs Sharing Waiters

variable {B : Build} {s t u v : KernelState} {e : Event} {k m : ℕ}

/-- One promotion of a chain: `waiter` blocks on the mutex of `holder`, which runs at `level`. -/
structure Link where
  mutex : ℕ
  waiter : ℕ
  holder : ℕ
  level : ℕ

variable {l : Link} {ls rest : List Link}

/-- What happens between the promotions and demotions of a chain. A task that has blocked in it does
not hibernate while the chain lasts. -/
def Between (ls : List Link) (s : KernelState) : Event → Prop
  | .unlockTest m => s.mutexStash s.currentTask ≠ m
  | .hibernate .. => ∀ l ∈ ls, l.waiter ≠ s.currentTask
  | .createTask .. | .startScheduler | .killTask _ | .endTask | .invokeBase _ | .releaseBase _
  | .promote _ => False
  | .handOver | .grantPermission .. | .mutexLock _ | .clearMutex _ | .store .. | .fillTask .. | .tick
  | .scheduler | .contextSwitch => True

instance (s : KernelState) (e : Event) : Decidable (Between ls s e) :=
  match e with
  | .unlockTest _ => inferInstanceAs (Decidable (_ ≠ _))
  | .hibernate .. => inferInstanceAs (Decidable (∀ l ∈ ls, _))
  | .createTask .. | .startScheduler | .killTask _ | .endTask | .invokeBase _ | .releaseBase _
  | .promote _ => isFalse id
  | .handOver | .grantPermission .. | .mutexLock _ | .clearMutex _ | .store .. | .fillTask .. | .tick
  | .scheduler | .contextSwitch => isTrue trivial

/-- The newest promotion first: the running task, which after the first promotion is the one that has
been promoted last, blocks on the mutex of another task that has not been promoted. -/
inductive Climb (B : Build) (s : KernelState) : List Link → KernelState → Prop
  | start : Climb B s [] s
  | wait {ls : List Link} {t u : KernelState} {e : Event} (h : Climb B s ls t)
      (he : Guarded B (Between ls) t e u) : Climb B s ls u
  | promote {ls : List Link} {t u : KernelState} {m i : ℕ} (h : Climb B s ls t)
      (hu : Step B t (.promote m) u) (hi : t.mem m >>> 16 = i) (hlive : Live B t i)
      (hother : i ≠ t.currentTask) (hchain : ∀ l ∈ ls.head?, t.currentTask = l.holder)
      (hnew : ∀ l ∈ ls, l.holder ≠ i ∧ l.mutex ≠ m) :
      Climb B s (⟨m, t.currentTask, i, u.prioCurrent i⟩ :: ls) u

/-- From the top of the chain `ls` in state `s` down to where `rest` is left. -/
inductive Descent (B : Build) (ls : List Link) (s : KernelState) : List Link → KernelState → Prop
  | start : Descent B ls s ls s
  | wait {rest : List Link} {t u : KernelState} {e : Event} (h : Descent B ls s rest t)
      (he : Guarded B (Between ls) t e u) : Descent B ls s rest u
  | demote {l : Link} {rest : List Link} {t u : KernelState} (h : Descent B ls s (l :: rest) t)
      (hc : t.currentTask = l.holder) (hu : Step B t (.unlockTest l.mutex) u) : Descent B ls s rest u

def Unwound (B : Build) (ls : List Link) (s u : KernelState) : Prop :=
  ∃ v l, Descent B ls s [l] v ∧ v.currentTask = l.holder ∧ Step B v (.unlockTest l.mutex) u

structure Calm (B : Build) (s : KernelState) : Prop where
  consistent : Consistent B s
  saved : s.maxpLevel = 127
  level : s.maxLevel ≤ 127
  highest : ∀ k, Live B s k → s.prioCurrent k ≤ s.maxLevel
  attained : ∃ k, Live B s k ∧ s.prioCurrent k = s.maxLevel
  unstashed : ∀ k, Live B s k → s.prioStashed k = 0
  unpromoted : ∀ k, Live B s k → s.mutexStash k = 0
  unblocked : ∀ k < B.maxTaskCount, s.state k ≠ .hold

def Ordered (ls : List Link) : Prop :=
  ls.Pairwise (fun a b => b.level < a.level) ∧ ∀ l ∈ ls, 127 < l.level

structure Restored (B : Build) (s : KernelState) (ls : List Link) (u : KernelState) : Prop where
  live : ∀ k, Live B u k ↔ Live B s k
  current : ∀ k, Live B s k → u.prioCurrent k = s.prioCurrent k
  stashed : ∀ k, Live B s k → u.prioStashed k = 0
  mutexes : ∀ k, Live B s k → u.mutexStash k = 0
  level : u.maxLevel = s.maxLevel
  saved : u.maxpLevel = 127
  waiters : ∀ l ∈ ls, u.state l.waiter = .sleep

/-- A table with what a chain has put in the place of its holders' entries. -/
def overlay (f : Link → ℕ) (base : ℕ → ℕ) : List Link → ℕ → ℕ
  | [] => base
  | l :: ls => update (overlay f base ls) l.holder (f l)

lemma overlay_of_not_mem {f : Link → ℕ} {base : ℕ → ℕ} (h : ∀ l ∈ ls, l.holder ≠ k) :
    overlay f base ls k = base k := by
  induction ls with
  | nil => rfl
  | cons l ls ih =>
    rw [overlay, update_of_ne (h l List.mem_cons_self).symm]
    exact ih fun l' hl' => h l' (List.mem_cons_of_mem l hl')

lemma overlay_push {f : Link → ℕ} {base a : ℕ → ℕ} (h : a k = overlay f base rest k) :
    update a l.holder (f l) k = overlay f base (l :: rest) k := by
  rw [overlay]
  rcases eq_or_ne k l.holder with rfl | hne
  · rw [update_self, update_self]
  · rw [update_of_ne hne, update_of_ne hne, h]

lemma overlay_pop {f : Link → ℕ} {base a : ℕ → ℕ} {v : ℕ} (hv : v = base l.holder)
    (hrest : ∀ l' ∈ rest, l'.holder ≠ l.holder) (h : a k = overlay f base (l :: rest) k) :
    update a l.holder v k = overlay f base rest k := by
  rcases eq_or_ne k l.holder with rfl | hne
  · rw [update_self, hv, overlay_of_not_mem hrest]
  · rw [update_of_ne hne, h, overlay, update_of_ne hne]

def Rising : List Link → Prop
  | [] => True
  | l :: ls => l.level = 128 + ls.length ∧ Rising ls

lemma Rising.bounds (h : Rising ls) : ∀ l ∈ ls, 127 < l.level ∧ l.level < 128 + ls.length := by
  induction ls with
  | nil => exact fun _ hl => absurd hl List.not_mem_nil
  | cons a ls ih =>
    intro l hl
    rw [List.length_cons]
    rcases List.mem_cons.mp hl with rfl | hl
    · have heq := h.1
      omega
    · have hlt := ih h.2 l hl
      omega

lemma Rising.ordered (h : Rising ls) : Ordered ls := by
  refine ⟨?_, fun l hl => (h.bounds l hl).1⟩
  induction ls with
  | nil => exact List.Pairwise.nil
  | cons a ls ih =>
    refine List.pairwise_cons.mpr ⟨fun b hb => ?_, ih h.2⟩
    rw [h.1]
    exact (h.2.bounds b hb).2

structure Standing (B : Build) (s : KernelState) (rest : List Link) (t : KernelState) : Prop where
  consistent : Consistent B t
  live : ∀ k, Live B t k ↔ Live B s k
  holders : (rest.map Link.holder).Nodup
  mutexes : (rest.map Link.mutex).Nodup
  inside : ∀ l ∈ rest, Live B s l.holder
  rising : Rising rest
  current : ∀ k, Live B s k → t.prioCurrent k = overlay Link.level s.prioCurrent rest k
  stashed : ∀ k, Live B s k →
    t.prioStashed k = overlay (fun l => s.prioCurrent l.holder) (fun _ => 0) rest k
  promoted : ∀ k, Live B s k → t.mutexStash k = overlay Link.mutex (fun _ => 0) rest k
  blocked : ∀ k < B.maxTaskCount, t.state k = .hold ↔ ∃ l ∈ rest, l.waiter = k
  waiters : ∀ l ∈ rest, l.waiter < B.maxTaskCount ∧ t.op1 l.waiter = l.mutex
  level : t.maxLevel = if rest = [] then s.maxLevel else 127 + rest.length
  saved : t.maxpLevel = if rest = [] then 127 else s.maxLevel

def Upright (s : KernelState) (k : ℕ) : Prop :=
  s.state k = .hold ∨ s.state k = .sleep ∨ s.state k = .active

lemma upright_update {st : ℕ → TaskState} {i : ℕ} {w : TaskState}
    (hw : w = .hold ∨ w = .sleep ∨ w = .active)
    (h : st k = .hold ∨ st k = .sleep ∨ st k = .active) :
    update st i w k = .hold ∨ update st i w k = .sleep ∨ update st i w k = .active := by
  rcases eq_or_ne k i with rfl | hne
  · rwa [update_self]
  · rwa [update_of_ne hne]

lemma scheduled_upright {w : KernelState} {c : Selection} (h : Scheduled B s w c) (hk : Upright s k) :
    Upright (leaveScheduler w c) k := by
  have henter : Upright (enterScheduler s) k := by
    unfold Upright enterScheduler
    dsimp only
    split
    · exact upright_update (Or.inr (Or.inl rfl)) hk
    · exact hk
  have hwoken : Upright w k := by
    unfold Upright
    rcases h.wakes.slot k with heq | ⟨-, heq⟩
    · rwa [heq]
    · exact Or.inr (Or.inl heq)
  exact upright_update (Or.inr (Or.inr rfl)) hwoken

lemma handOver_upright (hk : Upright s k) : Upright (handOverState s) k := by
  unfold Upright handOverState
  dsimp only
  split
  · exact hk
  · exact upright_update (Or.inr (Or.inl rfl)) hk

structure Unmoved (B : Build) (ls : List Link) (s t : KernelState) : Prop where
  consistent : Consistent B t
  rungs : SameRungs s t
  waiters : SameWaiters B s t
  live : ∀ k, Live B t k ↔ Live B s k
  upright : ∀ l ∈ ls, Upright s l.waiter → Upright t l.waiter

lemma live_iff_of_idle_iff (h : ∀ k < B.maxTaskCount, t.state k = .idle ↔ s.state k = .idle) (k : ℕ) :
    Live B t k ↔ Live B s k :=
  and_congr_right fun hk => not_congr (h k hk)

lemma Between.regular (h : Between ls s e) : Regular B s e := by
  cases e with
  | createTask | startScheduler | killTask | endTask => exact h.elim
  | _ => trivial

lemma Between.plain (h : Between ls s e) (hk : ∀ m, e ≠ .unlockTest m) : Plain e := by
  cases e with
  | unlockTest m => exact absurd rfl (hk m)
  | createTask | startScheduler | killTask | endTask | invokeBase | releaseBase | promote => exact h.elim
  | _ => trivial

lemma Between.unmoved (hok : Between ls s e) (hs : Consistent B s) (he : Effect B s e t) :
    Unmoved B ls s t := by
  have ht := hs.step hok.regular he
  by_cases hk : ∃ m, e = .unlockTest m
  · obtain ⟨m, rfl⟩ := hk
    cases he with
    | kept => exact ⟨ht, ⟨rfl, rfl, rfl, rfl, rfl⟩, ⟨rfl, fun _ _ => Iff.rfl, fun _ _ _ => rfl⟩,
        fun _ => Iff.rfl, fun _ _ h => h⟩
    | demoted _ hm => exact absurd hm hok
  have hwait := effect_waiters hs hok.regular (hok.plain fun m hm => hk ⟨m, hm⟩) he
  cases he with
  | hibernated hth =>
    refine ⟨ht, ⟨rfl, rfl, rfl, rfl, rfl⟩, hwait, ?_, fun l hl h => ?_⟩
    · refine live_iff_of_idle_iff fun k _ => update_idle_iff (hs.in_thread hth).2.1.2 ?_ k
      split <;> decide
    · unfold Upright hibernateState
      dsimp only
      rwa [update_of_ne (hok l hl)]
  | handedOver hth =>
    refine ⟨ht, handOver_rungs s, hwait, ?_, fun l _ => handOver_upright⟩
    exact live_iff_of_idle_iff fun k _ => handOver_idle_iff (hs.in_thread hth).2.1 k
  | ticked hth _ h =>
    refine ⟨ht, scheduled_rungs h, hwait, ?_, fun l _ => scheduled_upright h⟩
    exact live_iff_of_idle_iff fun k hk => scheduled_idle_iff hs hth.2 h hk
  | scheduled _ hq h =>
    refine ⟨ht, scheduled_rungs h, hwait, ?_, fun l _ => scheduled_upright h⟩
    exact live_iff_of_idle_iff fun k hk => scheduled_idle_iff hs hq h hk
  | kept | demoted => exact absurd ⟨_, rfl⟩ hk
  | refused | created | started | alreadyStarted | killed | ended | invokeRefused | invoked
  | releaseRefused | released | promoted => exact hok.elim
  | _ => exact ⟨ht, ⟨rfl, rfl, rfl, rfl, rfl⟩, hwait, fun _ => Iff.rfl, fun _ _ h => h⟩

lemma Standing.keep (h : Standing B s rest t) (hu : Unmoved B ls t u) : Standing B s rest u := by
  refine ⟨hu.consistent, fun k => (hu.live k).trans (h.live k), h.holders, h.mutexes, h.inside, h.rising,
    ?_, ?_, ?_, ?_, ?_, ?_, ?_⟩
  · rw [hu.rungs.current]
    exact h.current
  · rw [hu.rungs.stashed]
    exact h.stashed
  · rw [hu.rungs.mutexes]
    exact h.promoted
  · exact fun k hk => (hu.waiters.holds k hk).trans (h.blocked k hk)
  · intro l hl
    obtain ⟨hlt, hop⟩ := h.waiters l hl
    refine ⟨hlt, ?_⟩
    rw [hu.waiters.words _ hlt ((h.blocked _ hlt).mpr ⟨l, hl, rfl⟩)]
    exact hop
  · rw [hu.rungs.level]
    exact h.level
  · rw [hu.rungs.saved]
    exact h.saved

lemma Calm.standing (h : Calm B s) : Standing B s [] s := by
  refine ⟨h.consistent, fun _ => Iff.rfl, List.nodup_nil, List.nodup_nil, fun _ hl => ?_, trivial,
    fun _ _ => rfl, h.unstashed, h.unpromoted, fun k hk => ?_, fun _ hl => ?_, (if_pos rfl).symm, ?_⟩
  · exact absurd hl List.not_mem_nil
  · refine iff_of_false (h.unblocked k hk) ?_
    rintro ⟨l, hl, -⟩
    exact absurd hl List.not_mem_nil
  · exact absurd hl List.not_mem_nil
  · rw [if_pos rfl]
    exact h.saved

namespace Standing

lemma length_le (h : Standing B s rest t) : rest.length ≤ B.maxTaskCount := by
  have hcard := List.toFinset_card_of_nodup h.holders
  rw [List.length_map] at hcard
  rw [← hcard, ← Finset.card_range B.maxTaskCount]
  apply Finset.card_le_card
  intro k hk
  obtain ⟨l, hl, rfl⟩ := List.mem_map.mp (List.mem_toFinset.mp hk)
  exact Finset.mem_range.mpr (h.inside l hl).1

lemma waiter_unique (h : Standing B s rest t) {l' : Link} (hl : l ∈ rest) (hl' : l' ∈ rest)
    (he : l.waiter = l'.waiter) : l = l' := by
  apply List.inj_on_of_nodup_map h.mutexes hl hl'
  rw [← (h.waiters l hl).2, ← (h.waiters l' hl').2, he]

section Promote

variable {i : ℕ} (h : Standing B s rest t) (hrung : s.maxLevel < 127 ∨ rest = [])
  (hlive : Live B t i) (hnew : ∀ l ∈ rest, l.holder ≠ i ∧ l.mutex ≠ m)
include h hrung hlive hnew

lemma promotedLevel_eq : promotedLevel t = 128 + rest.length := by
  have hN := B.maxTaskCount_le
  have hroom : rest.length < B.maxTaskCount := by
    have hcard := List.toFinset_card_of_nodup (l := i :: rest.map Link.holder)
      (List.nodup_cons.mpr ⟨fun hmem => ?_, h.holders⟩)
    · rw [List.length_cons, List.length_map] at hcard
      have hsub : (i :: rest.map Link.holder).toFinset ⊆ Finset.range B.maxTaskCount := by
        intro k hk
        rcases List.mem_cons.mp (List.mem_toFinset.mp hk) with rfl | hk
        · exact Finset.mem_range.mpr hlive.1
        · obtain ⟨l, hl, rfl⟩ := List.mem_map.mp hk
          exact Finset.mem_range.mpr (h.inside l hl).1
      have hle := Finset.card_le_card hsub
      rw [Finset.card_range] at hle
      omega
    · obtain ⟨l, hl, he⟩ := List.mem_map.mp hmem
      exact (hnew l hl).1 he
  rw [promotedLevel, h.saved, h.level]
  by_cases hnil : rest = []
  · subst hnil
    rfl
  · have hlow := hrung.resolve_right hnil
    rw [if_neg hnil, if_neg hnil, if_neg (by omega), uint8_eq (by omega)]
    omega

lemma promote (hth : InThread t) (ht : Consistent B (promoteSlot t m i)) : Standing B s
    (⟨m, t.currentTask, i, (promoteSlot t m i).prioCurrent i⟩ :: rest) (promoteSlot t m i) := by
  have hlevel := promotedLevel_eq h hrung hlive hnew
  have hself : (promoteSlot t m i).prioCurrent i = promotedLevel t := update_self ..
  rw [hself]
  have hcur := (h.consistent.in_thread hth).2.1
  have hhold : t.state t.currentTask ≠ .hold := current_not_hold h.consistent hth
  have hbase : t.prioCurrent i = s.prioCurrent i := by
    rw [h.current i ((h.live i).mp hlive), overlay_of_not_mem fun l hl => (hnew l hl).1]
  have hidle : ∀ k, Live B (promoteSlot t m i) k ↔ Live B t k :=
    live_iff_of_idle_iff fun k _ => update_idle_iff hcur.2 (by decide) k
  refine ⟨ht, fun k => (hidle k).trans (h.live k), ?_, ?_, ?_, ⟨hlevel, h.rising⟩, ?_, ?_, ?_, ?_, ?_, ?_,
    ?_⟩
  · refine List.nodup_cons.mpr ⟨fun hmem => ?_, h.holders⟩
    obtain ⟨l, hl, he⟩ := List.mem_map.mp hmem
    exact (hnew l hl).1 he
  · refine List.nodup_cons.mpr ⟨fun hmem => ?_, h.mutexes⟩
    obtain ⟨l, hl, he⟩ := List.mem_map.mp hmem
    exact (hnew l hl).2 he
  · intro l hl
    rcases List.mem_cons.mp hl with rfl | hl
    · exact (h.live i).mp hlive
    · exact h.inside l hl
  · exact fun k hk => overlay_push (l := ⟨m, t.currentTask, i, promotedLevel t⟩) (h.current k hk)
  · intro k hk
    dsimp only [promoteSlot]
    rw [hbase]
    exact overlay_push (l := ⟨m, t.currentTask, i, promotedLevel t⟩) (h.stashed k hk)
  · exact fun k hk => overlay_push (l := ⟨m, t.currentTask, i, promotedLevel t⟩) (h.promoted k hk)
  · intro k hk
    dsimp only [promoteSlot]
    rcases eq_or_ne k t.currentTask with rfl | hne
    · rw [update_self]
      exact iff_of_true rfl ⟨_, List.mem_cons_self, rfl⟩
    · rw [update_of_ne hne, h.blocked k hk]
      constructor
      · rintro ⟨l, hl, rfl⟩
        exact ⟨l, List.mem_cons_of_mem _ hl, rfl⟩
      · rintro ⟨l, hl, rfl⟩
        rcases List.mem_cons.mp hl with rfl | hl
        · exact absurd rfl hne
        · exact ⟨l, hl, rfl⟩
  · intro l hl
    rcases List.mem_cons.mp hl with rfl | hl
    · exact ⟨hcur.1, update_self ..⟩
    · obtain ⟨hlt, hop⟩ := h.waiters l hl
      refine ⟨hlt, ?_⟩
      dsimp only [promoteSlot]
      rw [update_of_ne, hop]
      rintro he
      exact hhold (he ▸ (h.blocked _ hlt).mpr ⟨l, hl, rfl⟩)
  · change promotedLevel t = _
    rw [hlevel, if_neg (List.cons_ne_nil _ _), List.length_cons]
    omega
  · rw [if_neg (List.cons_ne_nil _ _)]
    change (if t.maxpLevel = 127 then t.maxLevel else t.maxpLevel) = _
    rw [h.saved, h.level]
    by_cases hnil : rest = []
    · rw [if_pos hnil, if_pos rfl, if_pos hnil]
    · have hlow := hrung.resolve_right hnil
      rw [if_neg hnil, if_neg (by omega)]

end Promote

section Demote

variable (h : Standing B s (l :: rest) t) (hc : t.currentTask = l.holder)
include h hc

lemma stash_current : t.mutexStash t.currentTask = l.mutex := by
  rw [hc, h.promoted _ (h.inside l List.mem_cons_self), overlay, update_self]

lemma waiter_eq : waiter B t (t.mutexStash t.currentTask) = l.waiter := by
  rw [h.stash_current hc]
  obtain ⟨hlt, hop⟩ := h.waiters l List.mem_cons_self
  have hhold := (h.blocked _ hlt).mpr ⟨l, List.mem_cons_self, rfl⟩
  have hle : waiter B t l.mutex ≤ l.waiter := firstIndex_le_of (by simpa using ⟨hhold, hop⟩)
  obtain ⟨hw, hwop⟩ := Consistent.waiter_hold (hle.trans_lt hlt)
  obtain ⟨l', hl', hlw⟩ := (h.blocked _ (hle.trans_lt hlt)).mp hw
  rw [← hlw, (h.waiters l' hl').2] at hwop
  obtain rfl := List.inj_on_of_nodup_map h.mutexes hl' List.mem_cons_self hwop
  exact hlw.symm

lemma demoted_state : (handOverState (demoteCurrent B t)).state =
    update (update t.state l.waiter .sleep) t.currentTask .sleep := by
  have hlt := (h.waiters l List.mem_cons_self).1
  have hkill : (demoteCurrent B t).selfKill = false := h.consistent.selfKill
  have hcur : (demoteCurrent B t).currentTask = t.currentTask := rfl
  have hstate : (demoteCurrent B t).state = update t.state l.waiter .sleep := by
    dsimp only [demoteCurrent]
    rw [h.waiter_eq hc, if_pos hlt]
  dsimp only [handOverState]
  rw [hkill, hstate, hcur]
  rfl

lemma demoted_hold (hth : InThread t) (hk : k < B.maxTaskCount) :
    (handOverState (demoteCurrent B t)).state k = .hold ↔ ∃ l' ∈ rest, l'.waiter = k := by
  have hhold : t.state t.currentTask ≠ .hold := current_not_hold h.consistent hth
  rw [h.demoted_state hc]
  constructor
  · intro hst
    have hne : k ≠ t.currentTask := by
      rintro rfl
      rw [update_self] at hst
      cases hst
    rw [update_of_ne hne] at hst
    have hnw : k ≠ l.waiter := by
      rintro rfl
      rw [update_self] at hst
      cases hst
    rw [update_of_ne hnw, h.blocked k hk] at hst
    obtain ⟨l', hl', rfl⟩ := hst
    rcases List.mem_cons.mp hl' with rfl | hl'
    · exact absurd rfl hnw
    · exact ⟨l', hl', rfl⟩
  · rintro ⟨l', hl', rfl⟩
    have hst := (h.blocked _ hk).mpr ⟨l', List.mem_cons_of_mem l hl', rfl⟩
    have hne : l'.waiter ≠ t.currentTask := fun he => hhold (he ▸ hst)
    have hnw : l'.waiter ≠ l.waiter := by
      intro he
      obtain rfl := h.waiter_unique (List.mem_cons_of_mem l hl') List.mem_cons_self he
      exact (List.nodup_cons.mp h.mutexes).1 (List.mem_map_of_mem hl')
    rwa [update_of_ne hne, update_of_ne hnw]

lemma demote (hth : InThread t) (hu : Consistent B (handOverState (demoteCurrent B t))) :
    Standing B s rest (handOverState (demoteCurrent B t)) := by
  have hcur := (h.consistent.in_thread hth).2.1
  have hlevel : uint8 (t.maxLevel + 255) = 127 + rest.length := by
    have hN := B.maxTaskCount_le
    have hlen := h.length_le
    rw [List.length_cons] at hlen
    rw [h.level, if_neg (List.cons_ne_nil _ _), List.length_cons]
    unfold uint8
    omega
  have hend : uint8 (t.maxLevel + 255) = 127 ↔ rest = [] := by
    rw [hlevel, ← List.length_eq_zero_iff]
    omega
  have hsaved : t.maxpLevel = s.maxLevel := by rw [h.saved, if_neg (List.cons_ne_nil _ _)]
  have hrest : ∀ l' ∈ rest, l'.holder ≠ l.holder := by
    intro l' hl' he
    exact (List.nodup_cons.mp h.holders).1 (List.mem_map.mpr ⟨l', hl', he⟩)
  have hback : t.prioStashed l.holder = s.prioCurrent l.holder := by
    rw [h.stashed _ (h.inside l List.mem_cons_self), overlay, update_self]
  have hidle : ∀ k, Live B (handOverState (demoteCurrent B t)) k ↔ Live B t k := by
    refine live_iff_of_idle_iff fun k _ => ?_
    have hcur' : Live B (demoteCurrent B t) (demoteCurrent B t).currentTask :=
      ⟨hcur.1, mt (Consistent.demote_idle_iff t _).mp hcur.2⟩
    exact (handOver_idle_iff hcur' k).trans (Consistent.demote_idle_iff t k)
  have hsub : ∀ l' ∈ rest, l' ∈ l :: rest := fun l' => List.mem_cons_of_mem l
  refine ⟨hu, fun k => (hidle k).trans (h.live k), (List.nodup_cons.mp h.holders).2,
    (List.nodup_cons.mp h.mutexes).2, fun l' hl' => h.inside l' (hsub l' hl'), h.rising.2, ?_, ?_, ?_, ?_,
    ?_, ?_, ?_⟩
  · intro k hk
    change update t.prioCurrent t.currentTask (t.prioStashed t.currentTask) k = _
    rw [hc]
    exact overlay_pop hback hrest (h.current k hk)
  · intro k hk
    change update t.prioStashed t.currentTask 0 k = _
    rw [hc]
    exact overlay_pop rfl hrest (h.stashed k hk)
  · intro k hk
    change update t.mutexStash t.currentTask 0 k = _
    rw [hc]
    exact overlay_pop rfl hrest (h.promoted k hk)
  · exact fun k hk => h.demoted_hold hc hth hk
  · exact fun l' hl' => h.waiters l' (hsub l' hl')
  · change (if uint8 (t.maxLevel + 255) = 127 then t.maxpLevel else uint8 (t.maxLevel + 255)) = _
    rw [hsaved, if_congr hend rfl hlevel]
  · change (if uint8 (t.maxLevel + 255) = 127 then 127 else t.maxpLevel) = _
    rw [hsaved, if_congr hend rfl rfl]

end Demote

end Standing

lemma Climb.standing (h : Climb B s ls t) (hs : Calm B s) (hrung : s.maxLevel < 127 ∨ ls.length ≤ 1) :
    Standing B s ls t := by
  induction h with
  | start => exact hs.standing
  | wait _ he ih =>
    have hstand := ih hrung
    exact hstand.keep (he.1.unmoved hstand.consistent (step_effect he.2))
  | @promote ls t u m i _ hu hi hlive _ _ hnew ih =>
    rw [List.length_cons] at hrung
    have hstand := ih (hrung.imp_right fun hle => by omega)
    have hregular : Regular B t (.promote m) := trivial
    have hcons := hstand.consistent.step hregular (step_effect hu)
    cases step_effect hu with
    | promoted hth =>
      rw [hi] at hcons ⊢
      refine hstand.promote (hrung.imp_right fun hle => ?_) hlive hnew hth hcons
      exact List.length_eq_zero_iff.mp (by omega)

lemma Climb.consistent (h : Climb B s ls t) (hs : Consistent B s) : Consistent B t := by
  induction h with
  | start => exact hs
  | wait _ he ih => exact ih.step he.1.regular (step_effect he.2)
  | @promote _ _ _ m _ _ hu _ _ _ _ _ ih =>
    exact ih.step (e := .promote m) trivial (step_effect hu)

/-- With a task of level 127 the second promotion starts from 127 again. -/
structure Repeats (ls : List Link) (t : KernelState) : Prop where
  none : ls = [] → t.maxLevel = 127 ∧ t.maxpLevel = 127
  one : ls.length = 1 → (∀ l ∈ ls, l.level = 128) ∧ t.maxpLevel = 127
  more : 2 ≤ ls.length → ¬ Ordered ls

lemma Climb.repeats (h : Climb B s ls t) (hs : Calm B s) (htop : s.maxLevel = 127) : Repeats ls t := by
  induction h with
  | start => exact ⟨fun _ => ⟨htop, hs.saved⟩, (fun h => by cases h), (fun h => by cases h)⟩
  | wait h he ih =>
    have hrungs := (he.1.unmoved (h.consistent hs.consistent) (step_effect he.2)).rungs
    refine ⟨fun hnil => ?_, fun hone => ?_, ih.more⟩
    · rw [hrungs.level, hrungs.saved]
      exact ih.none hnil
    · rw [hrungs.saved]
      exact ih.one hone
  | @promote ls t u m i h hu hi _ _ _ _ ih =>
    cases step_effect hu with
    | promoted hth =>
      rw [hi]
      have hlevel : t.maxpLevel = 127 → (promoteSlot t m i).prioCurrent i = 128 := by
        intro hp
        change update t.prioCurrent i (promotedLevel t) i = 128
        rw [update_self, promotedLevel, if_pos hp]
        rfl
      rcases eq_or_ne ls [] with rfl | hne
      · obtain ⟨hmax, hsaved⟩ := ih.none rfl
        refine ⟨(fun h => by cases h), fun _ => ⟨fun l hl => ?_, ?_⟩, fun hlen => ?_⟩
        · obtain rfl := List.mem_singleton.mp hl
          exact hlevel hsaved
        · change (if t.maxpLevel = 127 then t.maxLevel else t.maxpLevel) = 127
          rw [if_pos hsaved, hmax]
        · exact absurd hlen (by simp)
      · have hpos := List.length_pos_of_ne_nil hne
        refine ⟨(fun h => by cases h), fun hone => ?_, fun _ hord => ?_⟩
        · rw [List.length_cons] at hone
          omega
        · obtain ⟨hpair, hall⟩ := hord
          obtain ⟨hhead, htail⟩ := List.pairwise_cons.mp hpair
          rcases Nat.lt_or_ge ls.length 2 with hlt | hge
          · obtain ⟨hold, hsaved⟩ := ih.one (by omega)
            obtain ⟨l, hl⟩ := List.exists_mem_of_length_pos hpos
            have hless := hhead l hl
            rw [hlevel hsaved, hold l hl] at hless
            exact lt_irrefl _ hless
          · exact ih.more hge ⟨htail, fun l hl => hall l (List.mem_cons_of_mem _ hl)⟩

lemma Descent.standing (h : Descent B ls t rest u) (hs : Standing B s ls t) :
    Standing B s rest u ∧ ∀ l ∈ ls, Upright u l.waiter := by
  induction h with
  | start => exact ⟨hs, fun l hl => Or.inl ((hs.blocked _ (hs.waiters l hl).1).mpr ⟨l, hl, rfl⟩)⟩
  | wait _ he ih =>
    obtain ⟨hstand, hup⟩ := ih
    have hun := he.1.unmoved hstand.consistent (step_effect he.2)
    exact ⟨hstand.keep hun, fun l hl => hun.upright l hl (hup l hl)⟩
  | @demote l rest t u _ hc hu ih =>
    obtain ⟨hstand, hup⟩ := ih
    have hregular : Regular B t (.unlockTest l.mutex) := trivial
    have hcons := hstand.consistent.step hregular (step_effect hu)
    cases step_effect hu with
    | kept _ hne => exact absurd (hstand.stash_current hc) hne
    | demoted hth =>
      refine ⟨hstand.demote hc hth hcons, fun l' hl' => ?_⟩
      unfold Upright
      rw [hstand.demoted_state hc]
      exact upright_update (Or.inr (Or.inl rfl)) (upright_update (Or.inr (Or.inl rfl)) (hup l' hl'))

lemma Unwound.restored (h : Unwound B ls t u) (hs : Standing B s ls t) : Restored B s ls u := by
  obtain ⟨v, l, hd, hc, hu⟩ := h
  obtain ⟨hstand, hup⟩ := hd.standing hs
  obtain ⟨hend, -⟩ := (Descent.demote hd hc hu).standing hs
  refine ⟨hend.live, hend.current, hend.stashed, hend.promoted, hend.level, hend.saved, fun l' hl' => ?_⟩
  cases step_effect hu with
  | kept _ hne => exact absurd (hstand.stash_current hc) hne
  | demoted hth =>
    rw [hstand.demoted_state hc]
    have hlt := (hs.waiters l' hl').1
    rcases eq_or_ne l'.waiter v.currentTask with he | hne
    · rw [he, update_self]
    rw [update_of_ne hne]
    rcases eq_or_ne l'.waiter l.waiter with he | hnw
    · rw [he, update_self]
    rw [update_of_ne hnw]
    rcases hup l' hl' with hst | hst | hst
    · obtain ⟨l'', hl'', he⟩ := (hstand.blocked _ hlt).mp hst
      obtain rfl := List.mem_singleton.mp hl''
      exact absurd he.symm hnw
    · exact hst
    · -- only the running task is ACTIVE
      have hcur := (hstand.consistent.in_thread hth).1
      exact absurd ((hstand.consistent.single _ hlt hst).trans hcur.symm) hne

/-- A chain of promotions rises and leaves no trace if and only if no task has level 127, or the
chain has one link. -/
theorem nested_promotion (hs : Calm B s) (hc : Climb B s ls t) (hne : ls ≠ []) :
    (Ordered ls ∧ ∀ u, Unwound B ls t u → Restored B s ls u) ↔ s.maxLevel < 127 ∨ ls.length = 1 := by
  have hpos := List.length_pos_of_ne_nil hne
  constructor
  · rintro ⟨hord, -⟩
    by_contra hno
    rw [not_or] at hno
    have hlevel := hs.level
    exact (hc.repeats hs (by omega)).more (by omega) hord
  · intro hrung
    have hstand := hc.standing hs (hrung.imp_right fun hone => hone.le)
    exact ⟨hstand.rising.ordered, fun u hu => hu.restored hstand⟩

lemma Climb.waits (h : Climb B s ls t) {es : List Event} (hr : Run (Guarded B (Between ls)) t es u) :
    Climb B s ls u := by
  induction hr with
  | nil => exact h
  | snoc _ he ih => exact ih.wait he

lemma Descent.waits (h : Descent B ls s rest t) {es : List Event}
    (hr : Run (Guarded B (Between ls)) t es u) : Descent B ls s rest u := by
  induction hr with
  | nil => exact h
  | snoc _ he ih => exact ih.wait he

section Instances

def fiveSlots : Build := Build.five

def boot : KernelState :=
  bootState fiveSlots (fun _ => 0) (fun _ => ⟨0, 0, 1, 0, 0, 0, 0, 0⟩) (fun _ => 0)

def spawning (p priority : ℕ) : List Event :=
  [.fillTask p ⟨0, 0, priority, 0, 0, 0, 0, 0⟩, .createTask p 0]

def preparation (top : ℕ) : List Event :=
  spawning 10 1 ++ [.startScheduler, .scheduler, .contextSwitch, .mutexLock 200] ++
    spawning 11 3 ++ [.tick, .contextSwitch, .mutexLock 201] ++
    spawning 12 top ++ [.tick, .contextSwitch]

def calm (top : ℕ) : KernelState := after fiveSlots 20 (Regular fiveSlots) boot (preparation top)

def switching : List Event := [.scheduler, .contextSwitch]

def next (s : KernelState) (e : Event) : KernelState := (step fiveSlots 20 s e).getD s

def waiting (ls : List Link) (s : KernelState) (es : List Event) : KernelState :=
  after fiveSlots 20 (Between ls) s es

def promoted₁ (top : ℕ) : KernelState := next (calm top) (.promote 201)
def link₁ (top : ℕ) : Link := ⟨201, (calm top).currentTask, 2, (promoted₁ top).prioCurrent 2⟩
def blocked₁ (top : ℕ) : KernelState := waiting [link₁ top] (promoted₁ top) switching
def promoted₂ (top : ℕ) : KernelState := next (blocked₁ top) (.promote 200)
def link₂ (top : ℕ) : Link := ⟨200, (blocked₁ top).currentTask, 1, (promoted₂ top).prioCurrent 1⟩

def chain (top : ℕ) : List Link := [link₂ top, link₁ top]

def blocked₂ : KernelState := waiting (chain 5) (promoted₂ 5) (switching ++ [.clearMutex 200])
def demoted₂ : KernelState := next blocked₂ (.unlockTest 200)

/-- The woken task gives way once more, as `spin_lock` does, before it gets and leaves the mutex. -/
def resumed₁ : KernelState := waiting (chain 5) demoted₂
  (switching ++ [.handOver] ++ switching ++ [.tick, .contextSwitch, .mutexLock 200, .clearMutex 201])

def demoted₁ : KernelState := next resumed₁ (.unlockTest 201)

lemma next_step {s : KernelState} {e : Event} (h : (step fiveSlots 20 s e).isSome = true) :
    Step fiveSlots s e (next s e) := step_getD h

lemma calm_of {top : ℕ}
    (hrun : Run (Guarded fiveSlots (Regular fiveSlots)) boot (preparation top) (calm top))
    (hlevel : (calm top).maxpLevel = 127 ∧ (calm top).maxLevel ≤ 127)
    (hprio : ∀ k < 5, Live fiveSlots (calm top) k → (calm top).prioCurrent k ≤ (calm top).maxLevel)
    (htop : ∃ k < 5, Live fiveSlots (calm top) k ∧ (calm top).prioCurrent k = (calm top).maxLevel)
    (hzero : ∀ k < 5, (calm top).prioStashed k = 0 ∧ (calm top).mutexStash k = 0 ∧
      (calm top).state k ≠ .hold) : Calm fiveSlots (calm top) := by
  obtain ⟨k, -, hk⟩ := htop
  exact ⟨run_consistent (fun _ _ hr => hr) (boot_consistent fiveSlots _ _ _) hrun, hlevel.1, hlevel.2,
    fun k hk => hprio k hk.1 hk, ⟨k, hk⟩, fun k hk => (hzero k hk.1).1, fun k hk => (hzero k hk.1).2.1,
    fun k hk => (hzero k hk).2.2⟩

lemma waiting_run {ls : List Link} {s : KernelState} {es : List Event}
    (h : (exec (guardedStep fiveSlots 20 fun s e => decide (Between ls s e)) s es).isSome = true) :
    Run (Guarded fiveSlots (Between ls)) s es (waiting ls s es) := run_after h

lemma climb_of {top : ℕ} (hstep : (step fiveSlots 20 (calm top) (.promote 201)).isSome = true)
    (hfirst : (calm top).mem 201 >>> 16 = 2 ∧ Live fiveSlots (calm top) 2 ∧ 2 ≠ (calm top).currentTask)
    (hwait : (exec (guardedStep fiveSlots 20 fun s e => decide (Between [link₁ top] s e))
      (promoted₁ top) switching).isSome = true)
    (hstep' : (step fiveSlots 20 (blocked₁ top) (.promote 200)).isSome = true)
    (hsecond : (blocked₁ top).mem 200 >>> 16 = 1 ∧ Live fiveSlots (blocked₁ top) 1 ∧
      (blocked₁ top).currentTask = 2) :
    Climb fiveSlots (calm top) (chain top) (promoted₂ top) := by
  have hone : Step fiveSlots (calm top) (.promote 201) (promoted₁ top) := next_step hstep
  have hup : Climb fiveSlots (calm top) [link₁ top] (promoted₁ top) :=
    Climb.start.promote hone hfirst.1 hfirst.2.1 hfirst.2.2 (by simp) (by simp)
  have hrun : Run (Guarded fiveSlots (Between [link₁ top])) (promoted₁ top) switching (blocked₁ top) :=
    waiting_run hwait
  have htwo : Step fiveSlots (blocked₁ top) (.promote 200) (promoted₂ top) := next_step hstep'
  refine (hup.waits hrun).promote htwo hsecond.1 hsecond.2.1 ?_ ?_ ?_
  · rw [hsecond.2.2]
    decide
  · intro l hl
    obtain rfl := Option.some.inj hl
    exact hsecond.2.2
  · intro l hl
    obtain rfl := List.mem_singleton.mp hl
    have hne : 2 ≠ 1 ∧ 201 ≠ 200 := by decide
    exact hne

lemma calm_five : Calm fiveSlots (calm 5) :=
  calm_of (run_after (by decide +kernel)) (by decide +kernel) (by decide +kernel) (by decide +kernel)
    (by decide +kernel)

lemma climb_five : Climb fiveSlots (calm 5) (chain 5) (promoted₂ 5) :=
  climb_of (by decide +kernel) (by decide +kernel) (by decide +kernel) (by decide +kernel)
    (by decide +kernel)

lemma unwound_five : Unwound fiveSlots (chain 5) (promoted₂ 5) demoted₁ := by
  have hdown : Run (Guarded fiveSlots (Between (chain 5))) (promoted₂ 5) _ blocked₂ :=
    waiting_run (by decide +kernel)
  have hdemote : Step fiveSlots blocked₂ (.unlockTest 200) demoted₂ := next_step (by decide +kernel)
  have hrest : Run (Guarded fiveSlots (Between (chain 5))) demoted₂ _ resumed₁ :=
    waiting_run (by decide +kernel)
  have hlast : Step fiveSlots resumed₁ (.unlockTest 201) demoted₁ := next_step (by decide +kernel)
  have hone : Descent fiveSlots (chain 5) (promoted₂ 5) [link₁ 5] demoted₂ :=
    (Descent.start.waits hdown).demote (by decide +kernel) hdemote
  exact ⟨resumed₁, link₁ 5, hone.waits hrest, by decide +kernel, hlast⟩

theorem nested_promotion_five : Unwound fiveSlots (chain 5) (promoted₂ 5) demoted₁ ∧
    ((Ordered (chain 5) ∧ ∀ u, Unwound fiveSlots (chain 5) (promoted₂ 5) u →
      Restored fiveSlots (calm 5) (chain 5) u) ↔ (calm 5).maxLevel < 127 ∨ (chain 5).length = 1) :=
  ⟨unwound_five, nested_promotion calm_five climb_five (List.cons_ne_nil _ _)⟩

/-- With a waiter of priority 127 both holders run at 128. -/
theorem nested_promotion_fails : Calm fiveSlots (calm 127) ∧
    Climb fiveSlots (calm 127) (chain 127) (promoted₂ 127) ∧ ¬ Ordered (chain 127) := by
  refine ⟨calm_of (run_after (by decide +kernel)) (by decide +kernel) (by decide +kernel)
    (by decide +kernel) (by decide +kernel), climb_of (by decide +kernel) (by decide +kernel)
    (by decide +kernel) (by decide +kernel) (by decide +kernel), fun hord => ?_⟩
  have hless := (List.pairwise_cons.mp hord.1).1 (link₁ 127) List.mem_cons_self
  have hequal : (link₁ 127).level = (link₂ 127).level := by decide +kernel
  exact hless.ne hequal

end Instances

end Skibios.Promotion.Nesting

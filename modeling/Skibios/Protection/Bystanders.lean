import Skibios.Protection.Invocation
import Skibios.Protection.Permissions

/-! What the other tasks leave alone while no request is pending. -/

namespace Skibios.Protection.Bystanders

open Function Library.Words
open Kernel State TaskServices Services Scheduler SchedulerLoops Events Effects
open Tasks Invariants Identity
open Sharing Waiters Threads WakeUp
open Invocation

variable {B : Build} {mutexes : List ℕ} {s t : KernelState} {e : Event} {k m : ℕ}

/-- A step of the boot thread or of another task than base, on the words it may write. -/
def Foreign (B : Build) (mutexes : List ℕ) (s : KernelState) (e : Event) : Prop :=
  Regular B s e ∧ KillsNobody e ∧
    match e with
    | .invokeBase _ | .releaseBase _ => False
    | .hibernate .. | .unlockTest _ => s.currentTask ≠ 0
    | .grantPermission .. => s.currentTask ≠ 0 ∨ s.firstStart = false
    | .mutexLock m | .clearMutex m => s.currentTask ≠ 0 ∧ m ∈ mutexes
    | .promote m => s.currentTask ≠ 0 ∧ m ∈ mutexes ∧ s.mem m >>> 16 ≠ 0
    | .store a _ => a ∉ mutexes ∧ a ≠ B.baseMutex
    | _ => True

def Upright (s : KernelState) : Prop := s.state 0 = .sleep ∨ s.state 0 = .active

lemma Upright.congr (h : Upright s) (hs : t.state 0 = s.state 0) : Upright t := by
  rw [Upright, hs]
  exact h

lemma Upright.scheduled (h : Upright s) {w : KernelState} {c : Selection} (hsch : Scheduled B s w c) :
    Upright (leaveScheduler w c) := by
  have henter : Upright (enterScheduler s) := by
    rw [Upright]
    dsimp only [enterScheduler]
    split
    · rcases eq_or_ne s.currentTask 0 with h0 | h0
      · rw [h0, update_self]
        exact Or.inl rfl
      · rw [update_of_ne h0.symm]
        exact h
    · exact h
  have hw : Upright w := by
    rcases hsch.wakes.slot 0 with h0 | ⟨-, h0⟩
    · exact henter.congr h0
    · exact Or.inl h0
  rw [Upright]
  dsimp only [leaveScheduler]
  rcases eq_or_ne c.next 0 with h0 | h0
  · rw [h0, update_self]
    exact Or.inr rfl
  · rw [update_of_ne h0.symm]
    exact hw

lemma Upright.handOver (h : Upright s) : Upright (handOverState s) := by
  rw [Upright]
  dsimp only [handOverState]
  split
  · exact h
  · rcases eq_or_ne s.currentTask 0 with h0 | h0
    · rw [h0, update_self]
      exact Or.inl rfl
    · rw [update_of_ne h0.symm]
      exact h

lemma Upright.demote (h : Upright s) : Upright (demoteCurrent B s) := by
  rw [Upright]
  dsimp only [demoteCurrent]
  split
  · rcases eq_or_ne (waiter B s (s.mutexStash s.currentTask)) 0 with h0 | h0
    · rw [h0, update_self]
      exact Or.inl rfl
    · rw [update_of_ne h0.symm]
      exact h
  · exact h

lemma Upright.promote (h : Upright s) (h0 : s.currentTask ≠ 0) (m i : ℕ) :
    Upright (promoteSlot s m i) :=
  h.congr (update_of_ne h0.symm ..)

lemma Upright.step (h : Upright s) (hs : Consistent B s) (hok : Foreign B mutexes s e)
    (he : Effect B s e t) : Upright t := by
  obtain ⟨hreg, hkills, hok⟩ := hok
  cases he with
  | created _ hc =>
    apply h.congr
    have hstate := Table.newState_eq (i := idleSlot B s) hreg.2
    have hne : (0 : ℕ) ≠ idleSlot B s := by
      intro h0
      have hidle := Table.idleSlot_idle hc.slot
      rw [← h0] at hidle
      exact hs.base.2 hidle
    exact (congrFun hstate 0).trans (update_of_ne hne ..)
  | started => exact Upright.handOver h
  | killed | ended => exact hkills.elim
  | hibernated => exact h.congr (update_of_ne hok.symm ..)
  | handedOver => exact h.handOver
  | promoted => exact h.promote hok.1 _ _
  | demoted => exact h.demote.handOver
  | ticked _ _ hsch | scheduled _ _ hsch => exact h.scheduled hsch
  | invoked | released => exact hok.elim
  | _ => exact h

lemma Foreign.prio (hok : Foreign B mutexes s e) (hs : Consistent B s) (he : Effect B s e t) :
    t.prioCurrent 0 = s.prioCurrent 0 := by
  obtain ⟨-, hkills, hok⟩ := hok
  cases he with
  | created _ hc =>
    apply update_of_ne
    intro h0
    have hidle := Table.idleSlot_idle hc.slot
    rw [← h0] at hidle
    exact hs.base.2 hidle
  | killed | ended => exact hkills.elim
  | promoted => exact update_of_ne hok.2.2.symm ..
  | demoted => exact update_of_ne hok.symm ..
  | ticked _ _ h | scheduled _ _ h =>
    obtain ⟨⟨st, a, c, hframe⟩, -⟩ := h.wakes
    rw [hframe]
    rfl
  | invoked | released => exact hok.elim
  | _ => rfl

lemma Foreign.invocation (hok : Foreign B mutexes s e) (he : Effect B s e t) :
    t.invocatedTask = s.invocatedTask ∧ t.invocatedArgs = s.invocatedArgs := by
  obtain ⟨-, hkills, hok⟩ := hok
  cases he with
  | killed | ended => exact hkills.elim
  | demoted => exact ⟨by dsimp only [handOverState, demoteCurrent],
      by dsimp only [handOverState, demoteCurrent]⟩
  | ticked _ _ h | scheduled _ _ h =>
    obtain ⟨⟨st, a, c, hframe⟩, -⟩ := h.wakes
    exact ⟨by rw [hframe]; rfl, by rw [hframe]; rfl⟩
  | invoked | released => exact hok.elim
  | _ => exact ⟨rfl, rfl⟩

lemma Foreign.hibValue (hok : Foreign B mutexes s e) (he : Effect B s e t)
    (hk : isException e = true ∨ k ≠ s.currentTask) : t.hibValue k = s.hibValue k := by
  obtain ⟨-, hkills, hok⟩ := hok
  cases he with
  | killed | ended => exact hkills.elim
  | hibernated =>
    apply update_of_ne
    rcases hk with hk | hk
    · cases hk
    · exact hk
  | demoted => dsimp only [handOverState, demoteCurrent]
  | ticked _ _ h | scheduled _ _ h =>
    obtain ⟨⟨st, a, c, hframe⟩, -⟩ := h.wakes
    rw [hframe]
    rfl
  | invoked | released => exact hok.elim
  | _ => rfl

lemma Foreign.permissions (hok : Foreign B mutexes s e) (he : Effect B s e t)
    (hf : s.firstStart = true) : t.permissions = s.permissions := by
  rcases Permissions.effect_permissions he hf with h | ⟨pid, permission, rfl, h0, -, -⟩
  · exact h
  · rcases hok.2.2 with hne | hfirst
    · exact (hne h0).elim
    · rw [hf] at hfirst
      cases hfirst

lemma Foreign.waiters (hok : Foreign B mutexes s e) (hB : B.baseMutex ∉ mutexes)
    (hs : Consistent B s) (he : Effect B s e t) (hk : k < B.maxTaskCount)
    (hw : WaitsOn t B.baseMutex k) : WaitsOn s B.baseMutex k := by
  by_cases hp : Plain e
  · exact ((effect_waiters hs hok.1 hp he).waitsOn hk).mp hw
  · obtain ⟨-, hkills, hok⟩ := hok
    cases he with
    | killed | ended => exact hkills.elim
    | @promoted m _ _ =>
      rw [WaitsOn] at hw ⊢
      dsimp only [promoteSlot] at hw
      rcases eq_or_ne k s.currentTask with rfl | hne
      · rw [update_self, update_self] at hw
        rw [← hw.2] at hB
        exact (hB hok.2.1).elim
      · rwa [update_of_ne hne, update_of_ne hne] at hw
    | kept => exact hw
    | demoted hth =>
      have hcur := current_not_hold (hs.demote hth) hth
      have hsame : SameWaiters B (demoteCurrent B s) _ := handOver_waiters hcur
      exact (demote_waitsOn hk ((hsame.waitsOn hk).mp hw)).1
    | invokeRefused | invoked | releaseRefused | released => exact hok.elim
    | _ => exact (hp trivial).elim

/-- A mutex word without a slot is that of a mutex nobody has taken yet. -/
def Named (s : KernelState) (m : ℕ) : Prop := s.mem m = 0 ∨ s.mem m >>> 16 ≠ 0

lemma Foreign.words (hok : Foreign B mutexes s e) (hk : Kept B s) (he : Effect B s e t)
    (hm : m ∈ mutexes) :
    (Named s m → Named t m) ∧ (s.mem m >>> 16 ≠ 0 → t.mem m >>> 16 ≠ 0) := by
  have hkeep : t.mem m = s.mem m →
      (Named s m → Named t m) ∧ (s.mem m >>> 16 ≠ 0 → t.mem m >>> 16 ≠ 0) := by
    intro h
    rw [Named, Named, h]
    exact ⟨id, id⟩
  by_cases hl : e = .mutexLock m
  · subst hl
    cases he with
    | lockRefused => exact ⟨id, id⟩
    | locked hth =>
      have hlive := (hk.consistent.in_thread hth).2.1
      have hword : update s.mem m (s.taskId s.currentTask) m >>> 16 ≠ 0 := by
        rw [update_self, hk.numbered _ hlive]
        exact hok.2.2.1
      exact ⟨fun _ => Or.inr hword, fun _ => hword⟩
  by_cases hc : e = .clearMutex m
  · subst hc
    cases he with
    | cleared =>
      have hshift : (s.mem m / 256 * 256) >>> 16 = s.mem m >>> 16 := by
        rw [Nat.shiftRight_eq_div_pow, Nat.shiftRight_eq_div_pow]
        omega
      have hclear : (clearMutex s m).mem m = s.mem m / 256 * 256 := update_self ..
      rw [Named, Named, hclear, hshift]
      exact ⟨fun h => h.imp (fun h0 => by rw [h0]) id, id⟩
  · apply hkeep
    apply he.mem_eq hl hc
    rintro v rfl
    exact hok.2.2.1 hm

lemma Foreign.baseMutex (hok : Foreign B mutexes s e) (hB : B.baseMutex ∉ mutexes)
    (he : Effect B s e t) : t.mem B.baseMutex = s.mem B.baseMutex := by
  apply he.mem_eq
  · rintro rfl
    exact hB hok.2.2.2
  · rintro rfl
    exact hB hok.2.2.2
  · rintro v rfl
    exact hok.2.2.2 rfl

end Skibios.Protection.Bystanders

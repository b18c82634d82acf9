import Skibios.Tasks.Invariants

/-! The ids the kernel gives out. -/

namespace Skibios.Tasks.Identity

open Function Library.Words Library.Loops
open Kernel State TaskServices Services Scheduler SchedulerLoops Events Effects Invariants

variable {B : Build} {s t : KernelState} {e : Event} {i k n : ℕ}

/-- The id of the task created in slot `i` after `n` earlier creations. -/
def idOf (i n : ℕ) : ℕ := uint32 (i <<< 16 ||| (n % 65536 + 1))

lemma idOf_eq (hi : i < 65536) (hn : n % 65536 ≠ 65535) :
    idOf i n = i * 65536 + (n % 65536 + 1) := by
  have hlt := Nat.mod_lt n (show 0 < 65536 by decide)
  rw [idOf, shift_or_eq (by omega), uint32_eq (by omega)]

lemma idOf_last (hn : n % 65536 = 65535) : idOf i n % 65536 = 0 := by
  have hor : (i <<< 16 ||| 65535 + 1) % 2 ^ 16 = 0 := by
    rw [Nat.or_mod_two_pow, Nat.shiftLeft_eq]
    simp
  rw [idOf, hn, uint32]
  omega

lemma idOf_slot (hi : i < 65536) (hn : n % 65536 ≠ 65535) : idOf i n >>> 16 = i := by
  rw [idOf_eq hi hn]
  exact packed_slot (by omega)

lemma idOf_mod (hi : i < 65536) : idOf i n % 65536 = (n % 65536 + 1) % 65536 := by
  by_cases hn : n % 65536 = 65535
  · rw [idOf_last hn, hn]
  · rw [idOf_eq hi hn]
    omega

lemma idOf_inj (hi : i < 65536) {m : ℕ} (hmn : m < n) (hn : n < m + 65536) :
    idOf i m ≠ idOf i n := by
  intro he
  have hmod := congrArg (· % 65536) he
  simp only [idOf_mod hi] at hmod
  omega

lemma newTaskId_eq (hs : s.totalTaskCount = n % 65536) : newTaskId s i = idOf i n := by
  rw [newTaskId, hs, idOf]

def Numbered (B : Build) (s : KernelState) : Prop := ∀ k, Live B s k → s.taskId k >>> 16 = k

lemma Numbered.slotNumber (h : Numbered B s) (hk : Live B s k) : slotNumber (s.taskId k) = k := by
  have hN := B.maxTaskCount_le
  have hlt := hk.1
  rw [Effects.slotNumber, h k hk, uint8_eq (by omega)]

lemma fillSlot_taskId {p arg ptr : ℕ} {stash : ℕ → ℕ} : (fillSlot B s p arg ptr stash).taskId =
    update s.taskId (idleSlot B s) (newTaskId s (idleSlot B s)) := rfl

lemma live_kept (hs : Consistent B s) (ht : Consistent B t)
    (h : NoneCreated s e t) (hk : Live B t k) : Live B s k ∧ t.taskId k = s.taskId k := by
  have hid := (ht.ids k hk.1).mpr hk.2
  have heq : t.taskId k = s.taskId k := by
    rcases h.ids with h | ⟨i, h⟩
    · rw [h]
    · rw [h] at hid ⊢
      rcases eq_or_ne k i with rfl | hne
      · simp at hid
      · rw [update_of_ne hne]
  exact ⟨⟨hk.1, (hs.ids k hk.1).mp (heq ▸ hid)⟩, heq⟩

lemma live_before (hs : Consistent B s) (ht : Consistent B t) (he : Effect B s e t)
    (hk : Live B t k) : Live B s k ∨ ∃ p arg, e = .createTask p arg ∧ k = idleSlot B s := by
  rcases he.taskId with ⟨p, arg, ptr, stash, rfl, hc, rfl⟩ | hframe
  · rcases eq_or_ne k (idleSlot B s) with rfl | hne
    · exact Or.inr ⟨p, arg, rfl, rfl⟩
    · have hid := (ht.ids k hk.1).mpr hk.2
      rw [fillSlot_taskId, update_of_ne hne] at hid
      exact Or.inl ⟨hk.1, (hs.ids k hk.1).mp hid⟩
  · exact Or.inl (live_kept hs ht hframe hk).1

lemma Numbered.step (h : Numbered B s) (hs : Consistent B s) (ht : Consistent B t)
    (hok : ∀ p arg, e = .createTask p arg → s.totalTaskCount < 65535) (he : Effect B s e t) :
    Numbered B t := by
  intro k hk
  rcases he.taskId with ⟨p, arg, ptr, stash, rfl, hc, rfl⟩ | hframe
  · rw [fillSlot_taskId]
    have hN := B.maxTaskCount_le
    have hi := hc.slot
    have htotal := hok p arg rfl
    rcases eq_or_ne k (idleSlot B s) with rfl | hne
    · rw [update_self, newTaskId_eq (n := s.totalTaskCount) (by omega)]
      exact idOf_slot (by omega) (by omega)
    · rw [update_of_ne hne]
      refine h k ⟨hk.1, fun hidle => ?_⟩
      have hid := (ht.ids k hk.1).mpr hk.2
      rw [fillSlot_taskId, update_of_ne hne] at hid
      exact (hs.ids k hk.1).mp hid hidle
  · obtain ⟨hlive, heq⟩ := live_kept hs ht hframe hk
    rw [heq]
    exact h k hlive

end Skibios.Tasks.Identity

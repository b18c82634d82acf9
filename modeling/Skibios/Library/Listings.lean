import Mathlib.Data.Set.Insert
import Mathlib.Order.Basic
import Mathlib.Tactic.Common

/-! Tables whose first entries list a set in increasing order. -/

namespace Skibios.Library.Listings

variable {α : Type*} [LinearOrder α] {n f : ℕ} {a : ℕ → α} {S T : Set α} {v : α}

def Increasing (n : ℕ) (a : ℕ → α) : Prop := ∀ i j, i < j → j < n → a i < a j

structure Lists (n : ℕ) (a : ℕ → α) (S : Set α) : Prop where
  increasing : Increasing n a
  mem_iff : ∀ v, (∃ i < n, a i = v) ↔ v ∈ S

lemma Increasing.inj (h : Increasing n a) {i j : ℕ} (hi : i < n) (hj : j < n) (he : a i = a j) :
    i = j := by
  rcases lt_trichotomy i j with hlt | heq | hgt
  · exact absurd he (h i j hlt hj).ne
  · exact heq
  · exact absurd he.symm (h j i hgt hi).ne

namespace Lists

lemma entry_mem (h : Lists n a S) (hf : f < n) : a f ∈ S := (h.mem_iff _).mp ⟨f, hf, rfl⟩

lemma unique (h : Lists n a S) (ht : Lists n a T) : S = T :=
  Set.ext fun v => (h.mem_iff v).symm.trans (ht.mem_iff v)

lemma pos (h : Lists n a S) (hv : v ∈ S) : 0 < n := by
  obtain ⟨i, hi, -⟩ := (h.mem_iff v).mpr hv
  exact Nat.zero_lt_of_lt hi

lemma le_last (h : Lists n a S) (hv : v ∈ S) : v ≤ a (n - 1) := by
  obtain ⟨i, hi, rfl⟩ := (h.mem_iff v).mpr hv
  rcases eq_or_lt_of_le (Nat.le_sub_one_of_lt hi) with rfl | hlt
  · exact le_rfl
  · exact (h.increasing i (n - 1) hlt (by omega)).le

lemma erase (h : Lists n a S) (hf : f < n) :
    Lists (n - 1) (fun i => if f ≤ i ∧ i < n then a (i + 1) else a i) (S \ {a f}) := by
  have hlow : ∀ i < f, (if f ≤ i ∧ i < n then a (i + 1) else a i) = a i :=
    fun i hi => if_neg fun hc => absurd hc.1 (not_le.mpr hi)
  have hhigh : ∀ i, f ≤ i → i < n → (if f ≤ i ∧ i < n then a (i + 1) else a i) = a (i + 1) :=
    fun i hi hn => if_pos ⟨hi, hn⟩
  constructor
  · intro i j hij hj
    dsimp only
    rcases lt_or_ge j f with hjf | hjf
    · rw [hlow i (hij.trans hjf), hlow j hjf]
      exact h.increasing i j hij (by omega)
    · rw [hhigh j hjf (by omega)]
      rcases lt_or_ge i f with hif | hif
      · rw [hlow i hif]
        exact h.increasing i (j + 1) (by omega) (by omega)
      · rw [hhigh i hif (by omega)]
        exact h.increasing (i + 1) (j + 1) (by omega) (by omega)
  · intro v
    rw [Set.mem_sdiff, Set.mem_singleton_iff, ← h.mem_iff]
    constructor
    · rintro ⟨i, hi, rfl⟩
      rcases lt_or_ge i f with hif | hif
      · rw [hlow i hif]
        exact ⟨⟨i, by omega, rfl⟩, fun he => hif.ne (h.increasing.inj (by omega) hf he)⟩
      · rw [hhigh i hif (by omega)]
        refine ⟨⟨i + 1, by omega, rfl⟩, fun he => ?_⟩
        have heq := h.increasing.inj (by omega) hf he
        omega
    · rintro ⟨⟨i, hi, rfl⟩, hne⟩
      have hif : i ≠ f := by
        rintro rfl
        exact hne rfl
      rcases lt_or_gt_of_ne hif with hlt | hgt
      · exact ⟨i, by omega, hlow i hlt⟩
      · obtain ⟨j, rfl⟩ : ∃ j, i = j + 1 := ⟨i - 1, by omega⟩
        exact ⟨j, by omega, hhigh j (by omega) (by omega)⟩

lemma init (h : Lists n a S) (hn : 0 < n) : Lists (n - 1) a (S \ {a (n - 1)}) := by
  constructor
  · intro i j hij hj
    exact h.increasing i j hij (by omega)
  · intro v
    rw [Set.mem_sdiff, Set.mem_singleton_iff, ← h.mem_iff]
    constructor
    · rintro ⟨i, hi, rfl⟩
      exact ⟨⟨i, by omega, rfl⟩, (h.increasing i (n - 1) hi (by omega)).ne⟩
    · rintro ⟨⟨i, hi, rfl⟩, hne⟩
      have hin : i ≠ n - 1 := by
        rintro rfl
        exact hne rfl
      exact ⟨i, by omega, rfl⟩

end Lists

end Skibios.Library.Listings

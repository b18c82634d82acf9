import Mathlib.Data.Finset.Card
import Mathlib.Order.Interval.Finset.Nat

/-! Counting the indices of a table that satisfy a predicate. -/

namespace Skibios.Library.Counting

variable {n : ℕ} {p q : ℕ → Prop} [DecidablePred p] [DecidablePred q]

def count (n : ℕ) (p : ℕ → Prop) [DecidablePred p] : ℕ := ((Finset.range n).filter p).card

lemma count_le (n : ℕ) (p : ℕ → Prop) [DecidablePred p] : count n p ≤ n := by
  simpa [count] using Finset.card_filter_le (Finset.range n) p

lemma count_congr (h : ∀ k < n, p k ↔ q k) : count n p = count n q := by
  unfold count
  congr 1
  exact Finset.filter_congr fun k hk => h k (Finset.mem_range.mp hk)

lemma count_mono (h : ∀ k < n, p k → q k) : count n p ≤ count n q := by
  apply Finset.card_le_card
  intro k hk
  simp only [Finset.mem_filter, Finset.mem_range] at hk ⊢
  exact ⟨hk.1, h k hk.1 hk.2⟩

lemma count_insert {i : ℕ} (hi : i < n) (hp : ¬ p i) (hq : q i)
    (h : ∀ k < n, k ≠ i → (p k ↔ q k)) : count n q = count n p + 1 := by
  have he : (Finset.range n).filter q = insert i ((Finset.range n).filter p) := by
    ext k
    simp only [Finset.mem_filter, Finset.mem_range, Finset.mem_insert]
    rcases eq_or_ne k i with rfl | hk
    · simp [hi, hq]
    · simp only [hk, false_or]
      exact and_congr_right fun hkn => (h k hkn hk).symm
  rw [count, he, Finset.card_insert_of_notMem (by simp [hp]), count]

lemma count_pos_iff : 0 < count n p ↔ ∃ k < n, p k := by
  simp [count, Finset.card_pos, Finset.Nonempty]

lemma count_eq_zero_iff : count n p = 0 ↔ ∀ k < n, ¬ p k := by
  simp [count, Finset.card_eq_zero, Finset.filter_eq_empty_iff]

lemma count_le_one (h : count n p ≤ 1) {i j : ℕ} (hi : i < n) (hj : j < n) (hpi : p i)
    (hpj : p j) : i = j := by
  apply Finset.card_le_one.mp h <;> simp [*]

lemma count_add (h : ∀ k < n, ¬ (p k ∧ q k)) :
    count n p + count n q = count n (fun k => p k ∨ q k) := by
  rw [count, count, count, Finset.filter_or, Finset.card_union_of_disjoint]
  rw [Finset.disjoint_filter]
  intro k hk hp hq
  exact h k (Finset.mem_range.mp hk) ⟨hp, hq⟩

lemma count_imp (h : ∀ k < n, p k → q k) (hc : count n q ≤ count n p) : ∀ k < n, q k → p k := by
  intro k hk hq
  have hsub : (Finset.range n).filter p ⊆ (Finset.range n).filter q := by
    intro j hj
    simp only [Finset.mem_filter, Finset.mem_range] at hj ⊢
    exact ⟨hj.1, h j hj.1 hj.2⟩
  have hmem : k ∈ (Finset.range n).filter p := by
    rw [Finset.eq_of_subset_of_card_le hsub hc]
    simp [hk, hq]
  exact (Finset.mem_filter.mp hmem).2

lemma count_succ (n : ℕ) (p : ℕ → Prop) [DecidablePred p] :
    count (n + 1) p = count n p + if p n then 1 else 0 := by
  rw [count, Finset.range_add_one, Finset.filter_insert]
  split
  · rw [Finset.card_insert_of_notMem (by simp), count]
  · rfl

lemma lt_count_iff (h : ∀ i j, i < j → j < n → p j → p i) {i : ℕ} (hi : i < n) :
    i < count n p ↔ p i := by
  induction n generalizing i with
  | zero => omega
  | succ n ih =>
    rw [count_succ]
    have hih : ∀ {i}, i < n → (i < count n p ↔ p i) := ih fun i j hij hj => h i j hij (by omega)
    have hle := count_le n p
    by_cases hn : p n
    · have hall : ∀ k < n, p k := fun k hk => h k n hk (by omega) hn
      have hcount : count n p = n := by
        rcases Nat.eq_zero_or_pos n with rfl | hpos
        · simp [count]
        · have hlast := (hih (by omega : n - 1 < n)).mpr (hall _ (by omega))
          omega
      rw [if_pos hn, hcount]
      refine iff_of_true hi ?_
      rcases eq_or_lt_of_le (Nat.le_of_lt_succ hi) with rfl | hlt
      · exact hn
      · exact hall i hlt
    · rw [if_neg hn, Nat.add_zero]
      rcases eq_or_lt_of_le (Nat.le_of_lt_succ hi) with rfl | hlt
      · exact iff_of_false (by omega) hn
      · exact hih hlt

lemma card_le_count {s : Finset ℕ} (f : ℕ → ℕ) (h : ∀ v ∈ s, ∃ k < n, p k ∧ f k = v) :
    s.card ≤ count n p := by
  have hsub : s ⊆ ((Finset.range n).filter p).image f := by
    intro v hv
    obtain ⟨k, hk, hp, rfl⟩ := h v hv
    exact Finset.mem_image_of_mem f (by simp [hk, hp])
  exact (Finset.card_le_card hsub).trans Finset.card_image_le

section Lists

variable {α : Type*} {l : List α} {f g : α → Bool}

lemma countP_eq_iff (h : ∀ x ∈ l, f x = true → g x = true) :
    l.countP g = l.countP f ↔ ∀ x ∈ l, g x = true → f x = true := by
  induction l with
  | nil => simp
  | cons x l ih =>
    obtain ⟨hx, hl⟩ := List.forall_mem_cons.mp h
    have hle := List.countP_mono_left hl
    rw [List.countP_cons, List.countP_cons, List.forall_mem_cons, ← ih hl]
    by_cases hg : g x = true
    · by_cases hf : f x = true
      · simp [hg, hf]
      · rw [if_pos hg, if_neg hf]
        exact iff_of_false (by omega) fun hall => hf (hall.1 hg)
    · have hf : f x ≠ true := fun hf => hg (hx hf)
      simp [hg, hf]

end Lists

end Skibios.Library.Counting

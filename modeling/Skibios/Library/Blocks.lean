import Mathlib.Algebra.Order.Group.Nat
import Mathlib.Tactic.Common

/-! Blocks of words in a memory with byte addresses: a block stored is read back, and the words
outside it stay. -/

namespace Skibios.Library.Blocks

variable {α : Type*} {n : ℕ}

def load (m : ℕ → α) (base n : ℕ) : Fin n → α := fun i => m (base + 4 * i)

def store (m : ℕ → α) (base : ℕ) (f : Fin n → α) : ℕ → α := fun a =>
  if h : base ≤ a ∧ (a - base) % 4 = 0 ∧ (a - base) / 4 < n then f ⟨(a - base) / 4, h.2.2⟩ else m a

variable {m m' : ℕ → α} {a base base' k l : ℕ} {f : Fin n → α}

@[simp] lemma store_word {i : ℕ} (hi : i < n) : store m base f (base + 4 * i) = f ⟨i, hi⟩ := by
  have hword : (base + 4 * i - base) / 4 = i := by omega
  have hin : base ≤ base + 4 * i ∧ (base + 4 * i - base) % 4 = 0 ∧ (base + 4 * i - base) / 4 < n := by
    omega
  rw [store, dif_pos hin]
  congr 1
  exact Fin.ext hword

lemma store_outside (h : a < base ∨ base + 4 * n ≤ a) : store m base f a = m a := by
  refine dif_neg fun hin => ?_
  have := hin.1
  have := hin.2.2
  omega

lemma load_store : load (store m base f) base n = f := by
  funext i
  exact store_word i.isLt

lemma load_store_apart (h : base' + 4 * k ≤ base ∨ base + 4 * n ≤ base') :
    load (store m base f) base' k = load m base' k := by
  funext i
  have := i.isLt
  exact store_outside (by omega)

lemma load_update_apart {v : α} (h : a < base ∨ base + 4 * n ≤ a) :
    load (Function.update m a v) base n = load m base n := by
  funext i
  have := i.isLt
  exact Function.update_of_ne (by omega) _ _

lemma load_congr (h : ∀ a, k ≤ a → a < l → m a = m' a) (hk : k ≤ base) (hl : base + 4 * n ≤ l) :
    load m base n = load m' base n := by
  funext i
  have := i.isLt
  exact h _ (by omega) (by omega)

end Skibios.Library.Blocks

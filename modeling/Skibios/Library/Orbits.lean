import Mathlib.Algebra.BigOperators.Group.Finset.Piecewise
import Mathlib.Algebra.Order.BigOperators.Group.Finset
import Mathlib.Algebra.Order.Group.Nat
import Mathlib.Logic.Function.Iterate
import Mathlib.Tactic.Common

/-! The states a function leads through from a start, the first visit of each, and sums over a set
that they do not leave. -/

namespace Skibios.Library.Orbits

open Function

variable {α β : Type*} {f g : α → α} {s x : α} {n i j k : ℕ}

def FirstVisit (f : α → α) (s : α) (n : ℕ) : Prop := ∀ i < n, f^[i] s ≠ f^[n] s

lemma FirstVisit.zero : FirstVisit f s 0 := fun _ hi => absurd hi (Nat.not_lt_zero _)

lemma FirstVisit.ne (h : FirstVisit f s n) (hij : i < j) (hj : j ≤ n) : f^[i] s ≠ f^[j] s := by
  intro he
  have hshift : ∀ d, f^[d + i] s = f^[d + j] s := by
    intro d
    rw [iterate_add_apply, iterate_add_apply, he]
  have hlast := hshift (n - j)
  rw [Nat.sub_add_cancel hj] at hlast
  exact h (n - j + i) (by omega) hlast

lemma FirstVisit.injOn (h : FirstVisit f s n) :
    Set.InjOn (fun i => f^[i] s) (Finset.range (n + 1)) := by
  intro i hi j hj he
  have hi := Finset.mem_range.mp hi
  have hj := Finset.mem_range.mp hj
  rcases lt_trichotomy i j with hlt | rfl | hlt
  · exact absurd he (h.ne hlt (by omega))
  · rfl
  · exact absurd he.symm (h.ne hlt (by omega))

lemma iterate_keeps {p : α → Prop} (hs : p s) (hf : ∀ z, p z → p (f z)) (n : ℕ) : p (f^[n] s) := by
  induction n with
  | zero => exact hs
  | succ n ih =>
    rw [iterate_succ_apply']
    exact hf _ ih

lemma iterate_stuck (h : f^[k] s = x) (hx : f x = x) (hk : k ≤ n) : f^[n] s = x := by
  obtain ⟨d, rfl⟩ := Nat.exists_eq_add_of_le' hk
  rw [iterate_add_apply, h]
  exact iterate_fixed hx d

/-- `g` does what `f` does, or goes on no further: the way to a state that `g` reaches is that of
`f`. -/
lemma agree_of_stuck (hfg : ∀ z, z ≠ x → g z = f z ∨ g z = z) (hn : g^[n] s = x)
    (hfirst : ∀ k < n, g^[k] s ≠ x) (hk : k ≤ n) : g^[k] s = f^[k] s := by
  induction k with
  | zero => rfl
  | succ k ih =>
    have hne := hfirst k (by omega)
    rcases hfg _ hne with h | h
    · rw [iterate_succ_apply', iterate_succ_apply', h, ih (by omega)]
    · exact absurd ((iterate_stuck rfl h (by omega)).symm.trans hn) hne

/-- `g` does what `f` does, or goes to `x` at once: the way to `x` before the last step is that of
`f`. -/
lemma agree_of_last (hfg : ∀ z, g z = f z ∨ g z = x) (hfirst : ∀ k < n, g^[k] s ≠ x) (hk : k < n) :
    g^[k] s = f^[k] s := by
  induction k with
  | zero => rfl
  | succ k ih =>
    have hne := hfirst (k + 1) hk
    rw [iterate_succ_apply'] at hne
    rw [iterate_succ_apply', iterate_succ_apply', (hfg _).resolve_right hne, ih (by omega)]

section Sums

variable [DecidableEq α] {m : α → β} {v : β} {S T : Finset α} (w : β → ℕ)

lemma sum_update (hx : x ∈ S) :
    ∑ z ∈ S, w (update m x v z) + w (m x) = ∑ z ∈ S, w (m z) + w v := by
  have hcomp : ∀ z, w (update m x v z) = update (fun z => w (m z)) x (w v) z := by
    intro z
    rcases eq_or_ne z x with rfl | hne
    · rw [update_self, update_self]
    · rw [update_of_ne hne, update_of_ne hne]
  simp only [hcomp]
  rw [Finset.sum_update_of_mem hx, ← Finset.sum_sdiff (Finset.singleton_subset_iff.mpr hx),
    Finset.sum_singleton]
  omega

lemma sum_orbit_le (w : α → ℕ) (hs : s ∈ S) (hf : ∀ z ∈ S, f z ∈ S) (hn : FirstVisit f s n) :
    ∑ i ∈ Finset.range (n + 1), w (f^[i] s) ≤ ∑ z ∈ S, w z := by
  rw [← Finset.sum_image (f := w) hn.injOn]
  refine Finset.sum_le_sum_of_subset ?_
  intro z hz
  obtain ⟨i, -, rfl⟩ := Finset.mem_image.mp hz
  exact iterate_keeps (p := fun z => z ∈ S) hs hf i

lemma orbit_closed (h : f (f^[n] s) = f^[n] s) :
    ∀ z ∈ (Finset.range (n + 1)).image fun i => f^[i] s,
      f z ∈ (Finset.range (n + 1)).image fun i => f^[i] s := by
  intro z hz
  obtain ⟨i, hi, rfl⟩ := Finset.mem_image.mp hz
  have hi := Finset.mem_range.mp hi
  rcases Nat.lt_succ_iff_lt_or_eq.mp hi with hi | rfl
  · refine Finset.mem_image.mpr ⟨i + 1, Finset.mem_range.mpr (by omega), ?_⟩
    exact iterate_succ_apply' f i s
  · exact Finset.mem_image.mpr ⟨i, Finset.mem_range.mpr (by omega), h.symm⟩

lemma sum_image_orbit (w : α → ℕ) (hn : FirstVisit f s n) :
    ∑ z ∈ (Finset.range (n + 1)).image (fun i => f^[i] s), w z =
      ∑ i ∈ Finset.range (n + 1), w (f^[i] s) := Finset.sum_image hn.injOn

end Sums

end Skibios.Library.Orbits

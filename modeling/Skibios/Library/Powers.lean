import Mathlib.Data.Nat.Size
import Mathlib.Algebra.Order.Group.Nat
import Mathlib.Data.Nat.Factorization.Basic
import Mathlib.Order.Bounds.Basic
import Mathlib.Tactic.NormNum

/-! The power of two a number rounds up to, and parts of that power that the number covers. -/

namespace Skibios.Library.Powers

variable {a b c d k n q : ℕ}

lemma pow_isLeast (hl : n ≤ 2 ^ k) (hu : 2 ^ k < 2 * n) : IsLeast {p | n ≤ p ∧ ∃ j, p = 2 ^ j} (2 ^ k) := by
  refine ⟨⟨hl, k, rfl⟩, ?_⟩
  rintro p ⟨hn, j, rfl⟩
  by_contra hlt
  have hjk : j + 1 ≤ k := (Nat.pow_lt_pow_iff_right (by norm_num)).mp (not_le.mp hlt)
  have hpow : 2 ^ (j + 1) ≤ 2 ^ k := Nat.pow_le_pow_right (by norm_num) hjk
  rw [pow_succ] at hpow
  omega

lemma pow_dvd_iff (hl : n ≤ 2 ^ k) (hu : 2 ^ k < 2 * n) :
    2 ^ k ∣ 2 ^ d * n ↔ ∃ m ≤ 2 ^ d, ∃ j, n = m * 2 ^ j := by
  constructor
  · intro h
    obtain ⟨j, m, hm, hn⟩ := Nat.exists_eq_two_pow_mul_odd (n := n) (by omega)
    have hcoprime : Nat.Coprime (2 ^ k) m := (Nat.coprime_two_left.mpr hm).pow_left k
    have hdvd : 2 ^ k ∣ 2 ^ (d + j) := by
      refine hcoprime.dvd_of_dvd_mul_right ?_
      rwa [pow_add, mul_assoc, ← hn]
    have hle : 2 ^ k ≤ 2 ^ d * 2 ^ j := by
      rw [← pow_add]
      exact Nat.le_of_dvd (by positivity) hdvd
    refine ⟨m, ?_, j, hn.trans (mul_comm _ _)⟩
    have hmul : m * 2 ^ j ≤ 2 ^ d * 2 ^ j := by
      rw [mul_comm, ← hn]
      exact hl.trans hle
    exact Nat.le_of_mul_le_mul_right hmul (by positivity)
  · rintro ⟨m, hm, j, rfl⟩
    have hk : k ≤ d + j := by
      have hlt : 2 ^ k < 2 ^ (d + j + 1) := by
        calc 2 ^ k < 2 * (m * 2 ^ j) := hu
          _ ≤ 2 * (2 ^ d * 2 ^ j) := Nat.mul_le_mul_left _ (Nat.mul_le_mul_right _ hm)
          _ = 2 ^ (d + j + 1) := by rw [pow_succ, pow_add, mul_comm]
      exact Nat.lt_succ_iff.mp ((Nat.pow_lt_pow_iff_right (by norm_num)).mp hlt)
    calc 2 ^ k ∣ 2 ^ (d + j) := pow_dvd_pow 2 hk
      _ ∣ 2 ^ (d + j) * m := dvd_mul_right _ _
      _ = 2 ^ d * (m * 2 ^ j) := by rw [pow_add, mul_assoc, mul_comm m]

lemma cells_cover_iff (hc : 0 < c) (hq : 0 < q) : (∀ x < c * a, x / (c * q) < a / q) ↔ q ∣ a := by
  have hcell : ∀ x, x / (c * q) < a / q ↔ x < c * (q * (a / q)) := by
    intro x
    rw [Nat.div_lt_iff_lt_mul (Nat.mul_pos hc hq), mul_comm (a / q), mul_assoc]
  constructor
  · intro h
    rcases Nat.eq_zero_or_pos a with rfl | ha
    · exact dvd_zero q
    · have hlast := (hcell (c * a - 1)).mp (h _ (by have := Nat.mul_pos hc ha; omega))
      have hle : c * a ≤ c * (q * (a / q)) := by omega
      have hle' := Nat.le_of_mul_le_mul_left hle hc
      exact ⟨a / q, le_antisymm hle' (Nat.mul_div_le a q)⟩
  · rintro ⟨b, rfl⟩ x hx
    rw [hcell, Nat.mul_div_cancel_left b hq]
    exact hx

lemma aligned_eq (ha : q ∣ a) (hb : q ∣ b) (hl : b ≤ a) (hu : a < b + q) : a = b := by
  obtain ⟨x, rfl⟩ := ha
  obtain ⟨y, rfl⟩ := hb
  have hxy : x < y + 1 := by
    by_contra hge
    have := Nat.mul_le_mul_left q (not_lt.mp hge)
    rw [mul_add, mul_one] at this
    omega
  have hyx : y ≤ x := by
    by_contra hlt
    have := Nat.mul_le_mul_left q (Nat.succ_le_of_lt (not_le.mp hlt))
    rw [Nat.succ_eq_add_one, mul_add, mul_one] at this
    omega
  rw [le_antisymm (Nat.lt_succ_iff.mp hxy) hyx]

end Skibios.Library.Powers

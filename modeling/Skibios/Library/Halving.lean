import Mathlib.Algebra.Order.Group.Nat
import Mathlib.Tactic.Common

/-! Halving a gap between two indices around a position, until no index is left inside. -/

namespace Skibios.Library.Halving

variable {g b : ℕ}

/-- A gap of width `g` has `g - 1` indices inside, `b` of them before the position. The search probes
the one at `g / 2` and goes on in the lower half or in the rest; its last probe falls behind the
position. -/
inductive EndsLeft : ℕ → ℕ → Prop
  | last {g : ℕ} (h : g / 2 = 1) : EndsLeft g 0
  | lower {g b : ℕ} (h : b < g / 2) (hl : EndsLeft (g / 2) b) : EndsLeft g b
  | upper {g b : ℕ} (hu : EndsLeft (g - g / 2) b) : EndsLeft g (g / 2 + b)

lemma EndsLeft.inv (h : EndsLeft g b) : (g / 2 = 1 ∧ b = 0) ∨ (b < g / 2 ∧ EndsLeft (g / 2) b) ∨
    ∃ c, b = g / 2 + c ∧ EndsLeft (g - g / 2) c := by
  cases h with
  | last h => exact Or.inl ⟨h, rfl⟩
  | lower h hl => exact Or.inr (Or.inl ⟨h, hl⟩)
  | upper hu => exact Or.inr (Or.inr ⟨_, rfl, hu⟩)

lemma EndsLeft.two_le (h : EndsLeft g b) : 2 ≤ g := by
  induction h with
  | last h => omega
  | lower _ _ ih => omega
  | upper _ ih => omega

lemma endsLeft_lower (h : b < g / 2) (hg : g / 2 ≠ 1) : EndsLeft g b ↔ EndsLeft (g / 2) b := by
  constructor
  · intro he
    rcases he.inv with ⟨h1, -⟩ | ⟨-, hl⟩ | ⟨c, rfl, -⟩
    · exact absurd h1 hg
    · exact hl
    · omega
  · exact EndsLeft.lower h

lemma endsLeft_upper (hg : 0 < g / 2) : EndsLeft g (g / 2 + b) ↔ EndsLeft (g - g / 2) b := by
  constructor
  · intro he
    rcases he.inv with ⟨-, h0⟩ | ⟨h, -⟩ | ⟨c, hc, hu⟩
    · omega
    · omega
    · rwa [Nat.add_left_cancel hc]
  · exact EndsLeft.upper

end Skibios.Library.Halving

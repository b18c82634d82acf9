import Skibios.Library.Runs

/-! Forward simulation: every run of one system is matched by a run of another over the same
labels; and where in a run a step of some kind is. -/

namespace Skibios.Library.Runs

variable {σ τ ε : Type*} {step : σ → ε → σ → Prop} {astep : τ → ε → τ → Prop} {s t : σ} {a : τ}
  {es : List ε}

theorem Run.simulated {R : σ → τ → Prop}
    (hR : ∀ s a e t, R s a → step s e t → ∃ b, astep a e b ∧ R t b) (ha : R s a)
    (h : Run step s es t) : ∃ b, Run astep a es b ∧ R t b := by
  induction h with
  | nil => exact ⟨a, .nil, ha⟩
  | snoc _ he ih =>
    obtain ⟨b, hb, hrel⟩ := ih
    obtain ⟨c, hc, hrel'⟩ := hR _ _ _ _ hrel he
    exact ⟨c, hb.snoc hc, hrel'⟩

theorem Run.all_or_first (P : σ → ε → σ → Prop) (h : Run step s es t) :
    Run (fun s e t => step s e t ∧ ¬ P s e t) s es t ∨ ∃ es₁ u e v es₂, es = es₁ ++ e :: es₂ ∧
      Run (fun s e t => step s e t ∧ ¬ P s e t) s es₁ u ∧ step u e v ∧ P u e v ∧ Run step v es₂ t := by
  induction h with
  | nil => exact Or.inl .nil
  | @snoc es t u e h he ih =>
    rcases ih with hall | ⟨es₁, x, d, y, es₂, rfl, hx, hd, hP, hy⟩
    · by_cases hP : P t e u
      · exact Or.inr ⟨es, t, e, u, [], rfl, hall, he, hP, .nil⟩
      · exact Or.inl (hall.snoc ⟨he, hP⟩)
    · refine Or.inr ⟨es₁, x, d, y, es₂ ++ [e], ?_, hx, hd, hP, hy.snoc he⟩
      rw [List.append_assoc, List.cons_append]

theorem Run.all_or_split (P : σ → ε → σ → Prop) (h : Run step s es t) :
    Run (fun s e t => step s e t ∧ ¬ P s e t) s es t ∨ ∃ es₁ u e v es₂, es = es₁ ++ e :: es₂ ∧
      Run step s es₁ u ∧ step u e v ∧ P u e v ∧ Run step v es₂ t := by
  refine (h.all_or_first P).imp_right ?_
  rintro ⟨es₁, u, e, v, es₂, hes, hrun, hs⟩
  exact ⟨es₁, u, e, v, es₂, hes, hrun.mono fun _ _ _ h => h.1, hs⟩

end Skibios.Library.Runs

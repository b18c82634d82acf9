import Mathlib.Tactic.Common

/-! Finite runs of a labelled transition system, and what every step keeps. -/

namespace Skibios.Library.Runs

variable {σ ε : Type*}

inductive Run (step : σ → ε → σ → Prop) (s : σ) : List ε → σ → Prop
  | nil : Run step s [] s
  | snoc {es : List ε} {t u : σ} {e : ε} : Run step s es t → step t e u → Run step s (es ++ [e]) u

variable {step : σ → ε → σ → Prop} {s t u : σ} {es fs : List ε}

lemma Run.single {e : ε} (h : step s e t) : Run step s [e] t :=
  (Run.nil : Run step s [] s).snoc h

lemma Run.append (h : Run step s es t) (hu : Run step t fs u) : Run step s (es ++ fs) u := by
  induction hu with
  | nil => simpa using h
  | snoc _ hs ih => simpa only [List.append_assoc] using ih.snoc hs

lemma Run.cons {e : ε} (h : step s e t) (hu : Run step t fs u) : Run step s (e :: fs) u :=
  (Run.single h).append hu

/-- The induction rule: a step lemma gives a run lemma. -/
lemma Run.invariant {I : σ → Prop} (hI : ∀ s e t, I s → step s e t → I t) (hs : I s)
    (h : Run step s es t) : I t := by
  induction h with
  | nil => exact hs
  | snoc _ he ih => exact hI _ _ _ ih he

lemma Run.mono {step' : σ → ε → σ → Prop} (hm : ∀ s e t, step s e t → step' s e t)
    (h : Run step s es t) : Run step' s es t := by
  induction h with
  | nil => exact .nil
  | snoc _ he ih => exact ih.snoc (hm _ _ _ he)

def exec (f : σ → ε → Option σ) : σ → List ε → Option σ
  | s, [] => some s
  | s, e :: es => (f s e).bind fun t => exec f t es

lemma exec_run {f : σ → ε → Option σ} (hf : ∀ s e t, f s e = some t → step s e t)
    (h : exec f s es = some t) : Run step s es t := by
  induction es generalizing s with
  | nil =>
    obtain rfl := Option.some.inj h
    exact .nil
  | cons e es ih =>
    obtain ⟨u, hu, hr⟩ := Option.bind_eq_some_iff.mp h
    exact (ih hr).cons (hf _ _ _ hu)

lemma exec_getD_run {f : σ → ε → Option σ} (hf : ∀ s e t, f s e = some t → step s e t)
    (h : (exec f s es).isSome = true) : Run step s es ((exec f s es).getD s) := by
  obtain ⟨t, ht⟩ := Option.isSome_iff_exists.mp h
  rw [ht]
  exact exec_run hf ht

lemma exec_any_run {f : σ → ε → Option σ} (hf : ∀ s e t, f s e = some t → step s e t) {P : σ → Prop}
    [DecidablePred P] (h : (exec f s es).any (fun t => decide (P t)) = true) :
    ∃ t, Run step s es t ∧ P t := by
  obtain ⟨t, ht, hp⟩ := (Option.any_eq_true _ _).mp h
  exact ⟨t, exec_run hf ht, of_decide_eq_true hp⟩

end Skibios.Library.Runs

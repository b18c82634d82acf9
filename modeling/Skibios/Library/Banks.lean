import Mathlib.Logic.Function.Basic
import Skibios.Library.Runs

/-! Banks with an entry for each process. A process works on its own entry only, and an entry that
nobody holds can be set anew. -/

namespace Skibios.Library.Banks

open Function Library.Runs

variable {ι α σ ε : Type*} [DecidableEq ι] {held : ι → Prop} {act : α → α} {f g : ι → α} {i k : ι}

inductive Launch (held : ι → Prop) (f : ι → α) : (ι → α) → Prop
  | none : Launch held f f
  | fresh {i : ι} {x : α} (free : ¬ held i) : Launch held f (update f i x)

/-- After a launch the process `i`, if there is one, applies `act` to its entry. -/
inductive Turn (held : ι → Prop) (act : α → α) (f : ι → α) : Option ι → (ι → α) → Prop
  | rest {g : ι → α} (launch : Launch held f g) : Turn held act f none g
  | own {g : ι → α} {i : ι} (launch : Launch held f g) :
      Turn held act f (some i) (update g i (act (g i)))

lemma Launch.other (h : Launch held f g) (hk : held k) : g k = f k := by
  cases h with
  | none => rfl
  | fresh free =>
    refine update_of_ne ?_ _ _
    rintro rfl
    exact free hk

lemma Turn.other {o : Option ι} (h : Turn held act f o g) (hk : held k) (ho : o ≠ some k) :
    g k = f k := by
  cases h with
  | rest launch => exact launch.other hk
  | own launch =>
    refine (update_of_ne ?_ _ _).trans (launch.other hk)
    rintro rfl
    exact ho rfl

lemma Turn.acted (h : Turn held act f (some i) g) (hi : held i) : g i = act (f i) := by
  cases h with
  | own launch => rw [update_self, launch.other hi]

/-- A turn in which others act while `k` holds its entry. -/
def Passes (held : ι → Prop) (k : ι) (f g : ι → α) : Prop :=
  ∃ act o, Turn held act f o g ∧ held k ∧ o ≠ some k

lemma Run.entry_kept {step : σ → ε → σ → Prop} {bank : σ → ι → α} {held : σ → ι → Prop} {s t : σ}
    {es : List ε} (hstep : ∀ s e t, step s e t → Passes (held s) k (bank s) (bank t))
    (h : Run step s es t) : bank t k = bank s k := by
  refine h.invariant (I := fun u => bank u k = bank s k) ?_ rfl
  intro u e v hu hs
  obtain ⟨act, o, hturn, hk, ho⟩ := hstep u e v hs
  exact (hturn.other hk ho).trans hu

end Skibios.Library.Banks

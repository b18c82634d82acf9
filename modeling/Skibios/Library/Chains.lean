import Mathlib.Data.List.Chain
import Mathlib.Data.List.Nodup
import Mathlib.Logic.Function.Iterate
import Mathlib.Tactic.Common
import Skibios.Library.Loops

/-! Lists of nodes in which each node's link leads to the one behind it: following the links, and
what insertion and removal of a node do to them. -/

namespace Skibios.Library.Chains

open Loops

variable {α β : Type*} {next next' : α → α} {L pre post : List α} {a b z : α}

abbrev Linked (next : α → α) (L : List α) : Prop := L.IsChain fun a b => next a = b

namespace Linked

lemma congr_init (h : Linked next (pre ++ [a])) (hn : ∀ x ∈ pre, next' x = next x) :
    Linked next' (pre ++ [a]) := by
  rw [Linked, List.isChain_iff_forall_rel_of_append_cons_cons] at h ⊢
  intro x y l₁ l₂ hl
  have hx : x ∈ pre := by
    have hd := congrArg List.dropLast hl
    rw [List.dropLast_concat, List.dropLast_append_of_ne_nil (by simp), List.dropLast_cons_cons] at hd
    rw [hd]
    simp
  rw [hn x hx]
  exact h hl

lemma congr (h : Linked next L) (hn : ∀ x ∈ L, next' x = next x) : Linked next' L :=
  List.IsChain.imp_of_mem_imp (fun x _ hx _ hxy => (hn x hx).trans hxy) h

lemma link (h : Linked next (pre ++ a :: b :: post)) : next a = b :=
  (List.isChain_append_cons_cons.mp h).2.1

lemma insert (h : Linked next (pre ++ a :: b :: post))
    (hn : ∀ x ∈ pre ++ b :: post, next' x = next x) (ha : next' a = z) (hz : next' z = b) :
    Linked next' (pre ++ a :: z :: b :: post) := by
  obtain ⟨hpre, -, hpost⟩ := List.isChain_append_cons_cons.mp h
  apply List.isChain_append_cons_cons.mpr
  refine ⟨congr_init hpre fun x hx => hn x (List.mem_append_left _ hx), ha, ?_⟩
  apply List.isChain_cons_cons.mpr
  exact ⟨hz, congr hpost fun x hx => hn x (List.mem_append_right _ hx)⟩

lemma bypass (h : Linked next (pre ++ a :: z :: b :: post))
    (hn : ∀ x ∈ pre ++ b :: post, next' x = next x) (ha : next' a = b) :
    Linked next' (pre ++ a :: b :: post) := by
  obtain ⟨hpre, -, hrest⟩ := List.isChain_append_cons_cons.mp h
  have hpost := (List.isChain_cons_cons.mp hrest).2
  apply List.isChain_append_cons_cons.mpr
  refine ⟨congr_init hpre fun x hx => hn x (List.mem_append_left _ hx), ha, ?_⟩
  exact congr hpost fun x hx => hn x (List.mem_append_right _ hx)

lemma snoc (h : Linked next (pre ++ [a])) (hn : ∀ x ∈ pre, next' x = next x) (ha : next' a = z) :
    Linked next' (pre ++ [a, z]) := by
  apply List.isChain_append_cons_cons.mpr
  exact ⟨congr_init h hn, ha, List.IsChain.singleton z⟩

lemma init (h : Linked next (pre ++ [a, z])) : Linked next (pre ++ [a]) :=
  (List.isChain_append_cons_cons.mp h).1

lemma head_next (h : Linked next (a :: (pre ++ z :: post))) :
    (pre ++ z :: post).head? = some (next a) := by
  obtain ⟨hhead, -⟩ := List.isChain_cons.mp h
  cases pre <;> simp_all

lemma iterate (h : Linked next (pre ++ z :: post)) (ha : (pre ++ z :: post).head? = some a) :
    next^[pre.length] a = z := by
  induction pre generalizing a with
  | nil =>
    rw [List.nil_append, List.head?_cons, Option.some.injEq] at ha
    exact ha.symm
  | cons p pre ih =>
    rw [List.cons_append, List.head?_cons, Option.some.injEq] at ha
    subst ha
    rw [List.length_cons, Function.iterate_succ_apply]
    exact ih (List.isChain_cons.mp h).2 (head_next h)

lemma unique {pre' : List α} (h : Linked next (pre ++ [z])) (h' : Linked next (pre' ++ [z]))
    (hz : z ∉ pre) (hz' : z ∉ pre') (ha : (pre ++ [z]).head? = (pre' ++ [z]).head?) : pre = pre' := by
  induction pre generalizing pre' with
  | nil =>
    cases pre' with
    | nil => rfl
    | cons b pre' =>
      obtain rfl : z = b := by simpa using ha
      simp at hz'
  | cons a pre ih =>
    cases pre' with
    | nil =>
      obtain rfl : a = z := by simpa using ha
      simp at hz
    | cons b pre' =>
      obtain rfl : a = b := by simpa using ha
      rw [List.mem_cons, not_or] at hz hz'
      have hhead := (head_next h).trans (head_next h').symm
      rw [ih (List.isChain_cons.mp h).2 (List.isChain_cons.mp h').2 hz.2 hz'.2 hhead]

end Linked

/-- `while(x != z) { acc = f(x, acc); x = next(x); }` -/
def seekTurn [DecidableEq α] (next : α → α) (f : α → β → β) (z : α) (c : α × β) : Turn (α × β) β :=
  if c.1 = z then .leave c.2 else .again (next c.1, f c.1 c.2)

lemma Linked.seek [DecidableEq α] (h : Linked next (pre ++ z :: post)) (hz : z ∉ pre)
    (ha : (pre ++ z :: post).head? = some a) (f : α → β → β) (acc : β) :
    runLoop (seekTurn next f z) (pre.length + 1) (a, acc) =
      some (pre.foldl (fun acc x => f x acc) acc) := by
  induction pre generalizing a acc with
  | nil =>
    rw [List.nil_append, List.head?_cons, Option.some.injEq] at ha
    exact runLoop_leave (if_pos ha.symm)
  | cons p pre ih =>
    rw [List.cons_append, List.head?_cons, Option.some.injEq] at ha
    subst ha
    rw [List.mem_cons, not_or] at hz
    have hturn : seekTurn next f z (p, acc) = .again (next p, f p acc) := if_neg (Ne.symm hz.1)
    rw [List.length_cons, runLoop_again hturn, List.foldl_cons]
    exact ih (List.isChain_cons.mp h).2 hz.2 h.head_next (f p acc)

end Skibios.Library.Chains

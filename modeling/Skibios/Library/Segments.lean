import Mathlib.Algebra.GroupWithZero.Nat
import Mathlib.Algebra.Order.BigOperators.Group.List
import Mathlib.Tactic.Common

/-! Segments laid out one after the other: where each starts, and what survives when a part of the
layout is replaced. -/

namespace Skibios.Library.Segments

variable {α : Type*} (len : α → ℕ)

def total (L : List α) : ℕ := (L.map len).sum

def At (L : List α) (p : ℕ) (a : α) : Prop :=
  ∃ pre post, L = pre ++ a :: post ∧ total len pre = p

variable {len} {L L' pre mid mid' post : List α} {a b : α} {p q : ℕ}

@[simp] lemma total_nil : total len [] = 0 := rfl

@[simp] lemma total_cons : total len (a :: L) = len a + total len L := by
  simp [total]

@[simp] lemma total_append : total len (L ++ L') = total len L + total len L' := by
  simp [total]

lemma foldl_total (len : α → ℕ) (L : List α) (b : ℕ) :
    L.foldl (fun acc a => acc + len a) b = b + total len L := by
  induction L generalizing b with
  | nil => rfl
  | cons a L ih => rw [List.foldl_cons, ih, total_cons, add_assoc]

lemma At.intro : At len (pre ++ a :: post) (total len pre) a := ⟨pre, post, rfl, rfl⟩

lemma At.singleton (h : At len [a] p b) : p = 0 := by
  obtain ⟨pre, post, he, rfl⟩ := h
  cases pre with
  | nil => rfl
  | cons x pre => simp at he

lemma At.of_map {β : Type*} {f : β → α} {M : List β} (h : At len (M.map f) p a) :
    ∃ pre b post, M = pre ++ b :: post ∧ f b = a ∧ total len (pre.map f) = p := by
  obtain ⟨front, back, hM, rfl⟩ := h
  obtain ⟨pre, rest, rfl, rfl, hrest⟩ := List.map_eq_append_iff.mp hM
  obtain ⟨b, post, rfl, rfl, rfl⟩ := List.map_eq_cons_iff.mp hrest
  exact ⟨pre, b, post, rfl, rfl, rfl⟩

lemma At.end_le (h : At len L p a) : p + len a ≤ total len L := by
  obtain ⟨pre, post, rfl, rfl⟩ := h
  rw [total_append, total_cons]
  omega

lemma At.apart (ha : At len L p a) (hb : At len L q b) (h : p < q) : p + len a ≤ q := by
  obtain ⟨pre, post, rfl, rfl⟩ := ha
  obtain ⟨pre', post', he, rfl⟩ := hb
  obtain ⟨mid, rfl, hmid⟩ | ⟨mid, rfl, hmid⟩ := List.append_eq_append_iff.mp he
  · cases mid with
    | nil => simp at h
    | cons x mid =>
      obtain ⟨rfl, -⟩ := List.cons.inj (hmid.trans (List.cons_append ..))
      rw [total_append, total_cons]
      omega
  · rw [total_append] at h
    omega

lemma At.unique (ha : At len L p a) (hb : At len L p b) (h : 0 < len a) (h' : 0 < len b) :
    a = b := by
  obtain ⟨pre, post, rfl, rfl⟩ := ha
  obtain ⟨pre', post', he, hp⟩ := hb
  obtain ⟨mid, rfl, hmid⟩ | ⟨mid, rfl, hmid⟩ := List.append_eq_append_iff.mp he
  · cases mid with
    | nil => exact (List.cons.inj hmid).1
    | cons x mid =>
      obtain ⟨rfl, -⟩ := List.cons.inj (hmid.trans (List.cons_append ..))
      rw [total_append, total_cons] at hp
      omega
  · cases mid with
    | nil => exact (List.cons.inj hmid).1.symm
    | cons x mid =>
      obtain ⟨rfl, -⟩ := List.cons.inj (hmid.trans (List.cons_append ..))
      rw [total_append, total_cons] at hp
      omega

lemma at_append : At len (L ++ L') p a ↔
    At len L p a ∨ ∃ q, At len L' q a ∧ p = total len L + q := by
  constructor
  · rintro ⟨pre, post, he, rfl⟩
    obtain ⟨mid, rfl, hmid⟩ | ⟨mid, rfl, hmid⟩ := List.append_eq_append_iff.mp he
    · refine Or.inr ⟨total len mid, ⟨mid, post, hmid, rfl⟩, ?_⟩
      exact total_append
    · cases mid with
      | nil =>
        refine Or.inr ⟨0, ⟨[], post, ?_, rfl⟩, ?_⟩
        · simpa using hmid.symm
        · simp
      | cons x mid =>
        obtain ⟨rfl, -⟩ := List.cons.inj (hmid.trans (List.cons_append ..))
        exact Or.inl ⟨pre, mid, rfl, rfl⟩
  · rintro (⟨pre, post, rfl, rfl⟩ | ⟨q, ⟨pre, post, rfl, rfl⟩, rfl⟩)
    · exact ⟨pre, post ++ L', by simp, rfl⟩
    · exact ⟨L ++ pre, post, by simp, total_append⟩

lemma At.replace (h : At len (pre ++ mid ++ post) p a)
    (hlen : total len mid' = total len mid ∨ post = [])
    (hmid : ∀ q, At len mid q a → p ≠ total len pre + q) :
    At len (pre ++ mid' ++ post) p a := by
  rw [at_append, at_append] at h ⊢
  obtain (hpre | ⟨q, hq, hp⟩) | ⟨q, hq, hp⟩ := h
  · exact Or.inl (Or.inl hpre)
  · exact absurd hp (hmid q hq)
  · rcases hlen with hlen | rfl
    · refine Or.inr ⟨q, hq, ?_⟩
      rw [hp, total_append, total_append, hlen]
    · obtain ⟨front, back, he, -⟩ := hq
      simp at he

end Skibios.Library.Segments

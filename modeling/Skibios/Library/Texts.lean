import Mathlib.Data.List.Infix
import Mathlib.Tactic.NormNum

/-! Texts as lists of characters: words, positional numerals, and searching for a piece of text. -/

namespace Skibios.Library.Texts

abbrev Text := List Char

variable {b c : ℕ} {s piece rest : Text}

/-- The words of `s` between the characters that satisfy `p`. -/
def words (p : Char → Bool) (s : Text) : List Text := (s.splitOnP p).filter fun w => !w.isEmpty

lemma splitOnPPrepend_within {p : Char → Bool} {w acc : Text} (h : w ∈ s.splitOnPPrepend p acc) :
    w <:+: acc.reverse ++ s := by
  induction s generalizing acc with
  | nil =>
    obtain rfl := List.mem_singleton.mp h
    exact (List.prefix_append _ _).isInfix
  | cons a s ih =>
    rw [List.splitOnPPrepend] at h
    split_ifs at h
    · rcases List.mem_cons.mp h with rfl | h
      · exact (List.prefix_append _ _).isInfix
      · have hin : w <:+: s := ih h
        exact hin.trans ((List.suffix_cons a s).trans (List.suffix_append _ _)).isInfix
    · have hin := ih h
      rwa [List.reverse_cons, List.append_assoc] at hin

lemma word_within {p : Char → Bool} {w : Text} (h : w ∈ words p s) : w <:+: s :=
  splitOnPPrepend_within (List.mem_filter.mp h).1

/-- The value of a digit in lower case, 16 for any other character. -/
def digit (d : Char) : ℕ := "0123456789abcdef".toList.idxOf d

def IsNumeral (b : ℕ) (s : Text) : Prop := s ≠ [] ∧ ∀ d ∈ s, digit d < b

-- over the characters of `s`, not over all of the type
instance (b : ℕ) (s : Text) : Decidable (IsNumeral b s) :=
  haveI : Decidable (∀ d ∈ s, digit d < b) := List.decidableBAll _ s
  inferInstanceAs (Decidable (_ ∧ _))

def numeral (b : ℕ) (s : Text) : ℕ := s.foldl (fun x d => b * x + digit d) 0

@[simp] lemma numeral_concat (b : ℕ) (s : Text) (d : Char) :
    numeral b (s ++ [d]) = b * numeral b s + digit d := by
  simp [numeral]

lemma IsNumeral.mono (h : IsNumeral b s) (hbc : b ≤ c) : IsNumeral c s :=
  ⟨h.1, fun d hd => (h.2 d hd).trans_le hbc⟩

lemma numeral_gap (hb : 0 < b) (hbc : b ≤ c) (hs : ∀ d ∈ s, digit d < b) :
    numeral b s = numeral c s ∧ numeral c s < b ∨
      b ≤ numeral c s ∧ numeral b s + (c - b) ≤ numeral c s := by
  induction s using List.reverseRecOn with
  | nil => exact Or.inl ⟨rfl, hb⟩
  | append_singleton s d ih =>
    have hd : digit d < b := hs d (by simp)
    rw [numeral_concat, numeral_concat]
    rcases ih fun e he => hs e (by simp [he]) with ⟨heq, hlt⟩ | ⟨hle, hgap⟩
    · rw [heq]
      rcases Nat.eq_zero_or_pos (numeral c s) with h0 | hpos
      · rw [h0]
        exact Or.inl ⟨by simp, by simpa using hd⟩
      · have hone : c - b ≤ (c - b) * numeral c s := Nat.le_mul_of_pos_right _ hpos
        have hc : c ≤ c * numeral c s := Nat.le_mul_of_pos_right _ hpos
        have hbase := Nat.mul_le_mul_right (numeral c s) hbc
        rw [Nat.sub_mul] at hone
        exact Or.inr ⟨by omega, by omega⟩
    · have hmul : b * (numeral b s + (c - b)) ≤ c * numeral c s := Nat.mul_le_mul hbc hgap
      have hone : c - b ≤ b * (c - b) := Nat.le_mul_of_pos_left _ hb
      have hc : numeral c s ≤ c * numeral c s := Nat.le_mul_of_pos_left _ (hb.trans_le hbc)
      rw [Nat.mul_add] at hmul
      exact Or.inr ⟨by omega, by omega⟩

def after (piece s : Text) : Option Text :=
  (s.tails.find? fun t => decide (piece <+: t)).map fun t => t.drop piece.length

lemma after_infix (h : after piece s = some rest) : piece <:+: s ∧ rest <:+: s := by
  obtain ⟨t, ht, rfl⟩ := Option.map_eq_some_iff.mp h
  have hpiece : piece <+: t := by simpa using List.find?_some ht
  have hsuffix : t <:+ s := (List.mem_tails _ _).mp (List.mem_of_find?_eq_some ht)
  exact ⟨hpiece.isInfix.trans hsuffix.isInfix, (List.drop_suffix _ t).isInfix.trans hsuffix.isInfix⟩

end Skibios.Library.Texts

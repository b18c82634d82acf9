import Mathlib.Data.Nat.Bitwise

/-! Lanes of equal width in a machine word, and words that only gain bits. -/

namespace Skibios.Library.Lanes

variable {w x y z v i j : ℕ} {l : List ℕ}

/-- Lane `i` of `x`, where a lane has `w` bits. -/
def lane (w x i : ℕ) : ℕ := x >>> (w * i) % 2 ^ w

lemma testBit_lane (w x i k : ℕ) :
    (lane w x i).testBit k = (decide (k < w) && x.testBit (w * i + k)) := by
  rw [lane, Nat.testBit_mod_two_pow, Nat.testBit_shiftRight]

lemma lane_or (w x y i : ℕ) : lane w (x ||| y) i = lane w x i ||| lane w y i := by
  apply Nat.eq_of_testBit_eq
  intro k
  simp only [testBit_lane, Nat.testBit_or, Bool.and_or_distrib_left]

lemma lane_shift_self (hv : v < 2 ^ w) (i : ℕ) : lane w (v <<< (w * i)) i = v := by
  rw [lane, Nat.shiftLeft_shiftRight, Nat.mod_eq_of_lt hv]

lemma lane_shift_of_ne (hv : v < 2 ^ w) (hij : i ≠ j) : lane w (v <<< (w * j)) i = 0 := by
  apply Nat.eq_of_testBit_eq
  intro k
  rw [testBit_lane, Nat.testBit_shiftLeft, Nat.zero_testBit, Bool.and_eq_false_iff]
  by_cases hk : k < w
  · right
    rw [Bool.and_eq_false_iff]
    rcases Nat.lt_or_gt_of_ne hij with hlt | hgt
    · have : w * (i + 1) ≤ w * j := Nat.mul_le_mul_left w hlt
      left
      simp only [decide_eq_false_iff_not, mul_add, mul_one] at this ⊢
      omega
    · have : w * (j + 1) ≤ w * i := Nat.mul_le_mul_left w hgt
      right
      apply Nat.testBit_lt_two_pow
      refine hv.trans_le (Nat.pow_le_pow_right (by decide) ?_)
      rw [mul_add, mul_one] at this
      omega
  · exact Or.inl (decide_eq_false hk)

lemma lane_set (hv : v < 2 ^ w) (x i j : ℕ) :
    lane w (x ||| v <<< (w * j)) i = lane w x i ||| if i = j then v else 0 := by
  rw [lane_or]
  split_ifs with h
  · rw [h, lane_shift_self hv]
  · rw [lane_shift_of_ne hv h]

def Submask (x y : ℕ) : Prop := x ||| y = y

instance (x y : ℕ) : Decidable (Submask x y) := inferInstanceAs (Decidable (_ = _))

lemma Submask.refl (x : ℕ) : Submask x x := Nat.or_self x

lemma Submask.antisymm (h : Submask x y) (h' : Submask y x) : x = y := by
  rw [Submask, Nat.or_comm] at h'
  exact h'.symm.trans h

lemma or_submask : Submask (x ||| y) z ↔ Submask x z ∧ Submask y z := by
  constructor
  · intro h
    have hx : x ||| z = z := by rw [← h, ← Nat.or_assoc, ← Nat.or_assoc, Nat.or_self]
    have hy : y ||| z = z := by
      rw [← h, Nat.or_comm x y, Nat.or_assoc, ← Nat.or_assoc y y, Nat.or_self]
    exact ⟨hx, hy⟩
  · rintro ⟨hx, hy⟩
    rw [Submask, Nat.or_assoc, hy, hx]

def gather (x : ℕ) (l : List ℕ) : ℕ := l.foldl (· ||| ·) x

@[simp] lemma gather_nil (x : ℕ) : gather x [] = x := rfl

@[simp] lemma gather_concat (x : ℕ) (l : List ℕ) (v : ℕ) : gather x (l ++ [v]) = gather x l ||| v := by
  simp [gather]

lemma gather_submask : Submask (gather x l) z ↔ Submask x z ∧ ∀ v ∈ l, Submask v z := by
  induction l generalizing x with
  | nil => simp
  | cons v l ih =>
    rw [show gather x (v :: l) = gather (x ||| v) l from rfl, ih, or_submask]
    simp only [List.mem_cons, forall_eq_or_imp, and_assoc]

lemma submask_gather (hv : v ∈ l) : Submask v (gather x l) :=
  (gather_submask.mp (Submask.refl _)).2 v hv

lemma gather_eq_iff (hv : v ∈ l) : gather x l = v ↔ Submask x v ∧ ∀ y ∈ l, Submask y v := by
  rw [← gather_submask]
  constructor
  · intro h
    rw [h]
    exact Submask.refl v
  · intro h
    exact h.antisymm (submask_gather hv)

end Skibios.Library.Lanes

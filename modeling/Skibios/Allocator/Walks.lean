import Skibios.Allocator.Paths

/-! The loops of the three routines: each ends, and what it has found. -/

namespace Skibios.Allocator.Walks

open Function Library.Words Library.Loops Library.Chains Markers Paths

variable {R : Region} {h t : Heap} {L : List ℤ} {a i j k n r5 : ℕ} {y z r1 : ℤ}

def position (h : Heap) (j : ℕ) : ℤ := h.next^[j] h.fsllStart

def addressAt (R : Region) (h : Heap) : ℕ → ℕ
  | 0 => R.hstart
  | j + 1 => addressAt R h j + (h.marks (position h j)).size

def cursorAt (R : Region) (h : Heap) (j : ℕ) : Cursor :=
  ⟨position h j, h.blistSize - j, addressAt R h j⟩

lemma position_succ (h : Heap) (j : ℕ) : position h (j + 1) = h.next (position h j) :=
  iterate_succ_apply' ..

lemma cursorAt_succ : cursorAt R h (j + 1) = ⟨h.next (cursorAt R h j).r1, (cursorAt R h j).left - 1,
    (cursorAt R h j).r5 + (h.marks (cursorAt R h j).r1).size⟩ := by
  rw [cursorAt, position_succ]
  rfl

lemma addressAt_mono (R : Region) (h : Heap) (hij : i ≤ j) : addressAt R h i ≤ addressAt R h j := by
  induction hij with
  | refl => exact le_rfl
  | step _ ih => exact ih.trans (Nat.le_add_right _ _)

lemma hstart_le (R : Region) (h : Heap) (j : ℕ) : R.hstart ≤ addressAt R h j :=
  addressAt_mono R h (Nat.zero_le j)

lemma address_pos (R : Region) (h : Heap) (j : ℕ) : 0 < addressAt R h j := by
  have hpos := R.heapStart_pos
  apply lt_of_lt_of_le _ (hstart_le R h j)
  unfold Region.hstart
  omega

lemma position_mem (hp : Path R h L) (j : ℕ) : position h j ∈ L := by
  induction j with
  | zero => exact hp.start_mem
  | succ j ih =>
    rw [position_succ]
    exact hp.next_mem ih

def Fits (h : Heap) (n : ℕ) (z : ℤ) : Prop := (h.marks z).free = true ∧ n ≤ (h.marks z).size

instance (h : Heap) (n : ℕ) (z : ℤ) : Decidable (Fits h n z) := inferInstanceAs (Decidable (_ ∧ _))

/-- Marker number `j` is the first with room for `n` bytes. -/
structure Chosen (h : Heap) (n j : ℕ) : Prop where
  lt : j < h.blistSize
  fits : Fits h n (position h j)
  first : ∀ i < j, ¬ Fits h n (position h i)

lemma Chosen.unique (hj : Chosen h n j) (hk : Chosen h n k) : j = k := by
  rcases lt_trichotomy j k with hlt | rfl | hlt
  · exact absurd hj.fits (hk.first j hlt)
  · rfl
  · exact absurd hk.fits (hj.first k hlt)

structure Lowest (R : Region) (h : Heap) (z : ℤ) : Prop where
  ge : -1 ≤ z
  lt : z < R.bstart
  empty : h.marks z = .empty
  first : ∀ y, -1 ≤ y → y < z → h.marks y ≠ .empty

/-- Marker number `j` is the first whose block has the address `a`. -/
structure Located (R : Region) (h : Heap) (a j : ℕ) : Prop where
  lt : j < h.blistSize
  here : addressAt R h j = a
  first : ∀ i < j, addressAt R h i ≠ a

lemma Located.unique (hj : Located R h a j) (hk : Located R h a k) : j = k := by
  rcases lt_trichotomy j k with hlt | rfl | hlt
  · exact absurd hj.here (hk.first j hlt)
  · rfl
  · exact absurd hk.here (hj.first k hlt)

lemma search_leaves (R : Region) (h : Heap) (n : ℕ) :
    ∃ k r, runLoop (searchTurn h n) k (.first R h) = some r := by
  apply runLoop_leaves (I := fun _ => True) Cursor.left _ trivial
  intro c _
  unfold searchTurn
  split_ifs with hleft hfits
  · exact Or.inr ⟨_, rfl⟩
  · exact Or.inr ⟨_, rfl⟩
  · exact Or.inl ⟨_, rfl, trivial, Nat.sub_one_lt hleft⟩

lemma search_turn (R : Region) (h : Heap) (n j : ℕ) : searchTurn h n (cursorAt R h j) =
    if h.blistSize ≤ j then .leave none
    else if Fits h n (position h j) then .leave (some (cursorAt R h j))
    else .again (cursorAt R h (j + 1)) := by
  rw [cursorAt_succ]
  exact if_congr Nat.sub_eq_zero_iff_le rfl rfl

lemma search_left {r : Option Cursor} (hrun : runLoop (searchTurn h n) k (.first R h) = some r) :
    ∃ j, searchTurn h n (cursorAt R h j) = .leave r ∧
      ∀ i < j, i < h.blistSize ∧ ¬ Fits h n (position h i) := by
  have hknown : ∀ j t, searchTurn h n (cursorAt R h j) = .again t → t = cursorAt R h (j + 1) := by
    intro j t hturn
    rw [search_turn] at hturn
    split_ifs at hturn
    exact (Turn.again.inj hturn).symm
  obtain ⟨j, hleave, hagain⟩ := runLoop_left hknown hrun
  refine ⟨j, hleave, fun i hi => ?_⟩
  have hturn := hagain i hi
  rw [search_turn] at hturn
  split_ifs at hturn with hend hfits
  exact ⟨not_le.mp hend, hfits⟩

lemma search_some {c : Cursor} (hrun : runLoop (searchTurn h n) k (.first R h) = some (some c)) :
    ∃ j, Chosen h n j ∧ c = cursorAt R h j := by
  obtain ⟨j, hleave, hfirst⟩ := search_left hrun
  rw [search_turn] at hleave
  split_ifs at hleave with hend hfits
  · cases hleave
  · refine ⟨j, ⟨not_le.mp hend, hfits, fun i hi => (hfirst i hi).2⟩, ?_⟩
    exact (Option.some.inj (Turn.leave.inj hleave)).symm

lemma search_none (hrun : runLoop (searchTurn h n) k (.first R h) = some none) :
    ∀ j < h.blistSize, ¬ Fits h n (position h j) := by
  obtain ⟨j, hleave, hfirst⟩ := search_left hrun
  rw [search_turn] at hleave
  split_ifs at hleave with hend
  · exact fun i hi => (hfirst i (hi.trans_le hend)).2
  · cases hleave

lemma split_leaves (R : Region) (h : Heap) : ∃ k r, runLoop (splitTurn R h) k R.words = some r := by
  apply runLoop_leaves (I := fun _ => True) id _ trivial
  intro r6 _
  unfold splitTurn
  split_ifs with hr6 hempty
  · exact Or.inr ⟨_, rfl⟩
  · exact Or.inr ⟨_, rfl⟩
  · exact Or.inl ⟨_, rfl, trivial, Nat.sub_one_lt hr6⟩

lemma split_left {r : Option ℤ} (hrun : runLoop (splitTurn R h) k R.words = some r) :
    ∃ r6 ≤ R.words, splitTurn R h r6 = .leave r ∧
      ∀ y, -1 ≤ y → y < R.bstart - r6 → h.marks y ≠ .empty := by
  have hknown : ∀ j t, splitTurn R h (R.words - j) = .again t → t = R.words - (j + 1) := by
    intro j t hturn
    unfold splitTurn at hturn
    split_ifs at hturn
    exact (Turn.again.inj hturn).symm.trans (Nat.sub_sub ..)
  obtain ⟨j, hleave, hagain⟩ := runLoop_left hknown hrun
  refine ⟨R.words - j, Nat.sub_le _ _, hleave, fun y hy hlt => ?_⟩
  unfold Region.bstart at hlt
  have hturn := hagain (y + 1).toNat (by omega)
  unfold splitTurn at hturn
  split_ifs at hturn with hzero hempty
  have hword : R.bstart - (R.words - (y + 1).toNat : ℕ) = y := by
    unfold Region.bstart
    omega
  rwa [hword] at hempty

lemma split_some (hrun : runLoop (splitTurn R h) k R.words = some (some z)) : Lowest R h z := by
  obtain ⟨r6, hle, hleave, hfirst⟩ := split_left hrun
  unfold splitTurn at hleave
  split_ifs at hleave with hzero hempty
  · cases hleave
  · obtain rfl := Option.some.inj (Turn.leave.inj hleave)
    refine ⟨?_, by omega, hempty, hfirst⟩
    unfold Region.bstart
    omega

lemma split_none (hrun : runLoop (splitTurn R h) k R.words = some none) (z : ℤ) : ¬ Lowest R h z := by
  obtain ⟨r6, -, hleave, hfirst⟩ := split_left hrun
  unfold splitTurn at hleave
  split_ifs at hleave with hzero
  · intro hz
    have hlt := hz.lt
    exact hfirst z hz.ge (by omega) hz.empty
  · cases hleave

lemma words_dvd (R : Region) : 4 ∣ R.words := ⟨R.kilobytes * 64, by unfold Region.words; omega⟩

/-- The count starts at 0 and grows by 4, so it meets the number of words, which is a multiple of
four. -/
lemma add_leaves (R : Region) (h : Heap) : ∃ k r, runLoop (addTurn R h) k (R.bstart, 0) = some r := by
  have hwords := words_dvd R
  apply runLoop_leaves (I := fun c => 4 ∣ c.2 ∧ c.2 ≤ R.words) (fun c => R.words - c.2) _
    ⟨dvd_zero 4, Nat.zero_le _⟩
  rintro ⟨r1, r6⟩ ⟨hdvd, hle⟩
  unfold addTurn
  dsimp only at *
  split_ifs with hend hempty hin
  · exact Or.inr ⟨_, rfl⟩
  · exact Or.inr ⟨_, rfl⟩
  · exact Or.inl ⟨_, rfl, ⟨by omega, by omega⟩, by omega⟩
  · exact Or.inl ⟨_, rfl, ⟨by omega, by omega⟩, by omega⟩

structure Vacant (R : Region) (h : Heap) (z : ℤ) : Prop where
  ge : -1 ≤ z
  le : z ≤ R.bstart
  empty : h.marks z = .empty

/-- One word down for each count of 4: the search comes to a quarter of the region. -/
structure Scanned (R : Region) (h : Heap) (c : ℤ × ℕ) : Prop where
  dvd : 4 ∣ c.2
  le : c.2 ≤ R.words
  passed : ∃ i : ℕ, c.1 = R.bstart - i ∧ 4 * i ≤ c.2 ∧ ∀ j < i, h.marks (R.bstart - j) ≠ .empty

lemma first_scanned : Scanned R h (R.bstart, 0) :=
  ⟨dvd_zero 4, Nat.zero_le _, 0, by simp, le_rfl, by simp⟩

lemma add_scanned (c d : ℤ × ℕ) (hc : Scanned R h c) (hturn : addTurn R h c = .again d) :
    Scanned R h d := by
  obtain ⟨hdvd, hle, i, hi, hcount, hfirst⟩ := hc
  have hwords := words_dvd R
  unfold addTurn at hturn
  split_ifs at hturn with hend hempty hin <;> obtain rfl := Turn.again.inj hturn
  · exact ⟨by dsimp only; omega, by dsimp only; omega, i, hi, by dsimp only; omega, hfirst⟩
  · refine ⟨by dsimp only; omega, by dsimp only; omega, i + 1, ?_, by dsimp only; omega, fun j hj => ?_⟩
    · dsimp only
      push_cast
      omega
    · rcases Nat.lt_succ_iff_lt_or_eq.mp hj with hj | rfl
      · exact hfirst j hj
      · exact hi ▸ hempty

lemma add_found (hrun : runLoop (addTurn R h) k (R.bstart, 0) = some (some z)) :
    ∃ i : ℕ, 4 * i < R.words ∧ z = R.bstart - i ∧ h.marks z = .empty ∧
      ∀ j < i, h.marks (R.bstart - j) ≠ .empty := by
  refine runLoop_invariant
    (Q := fun r => ∀ z, r = some z → ∃ i : ℕ, 4 * i < R.words ∧ z = R.bstart - i ∧
      h.marks z = .empty ∧ ∀ j < i, h.marks (R.bstart - j) ≠ .empty)
    (I := Scanned R h) add_scanned ?_ first_scanned hrun z rfl
  rintro c r ⟨hdvd, hle, i, hi, hcount, hfirst⟩ hturn z rfl
  unfold addTurn at hturn
  split_ifs at hturn with hend hempty hin
  · simp at hturn
  · obtain rfl := Option.some.inj (Turn.leave.inj hturn)
    exact ⟨i, by omega, hi, hempty, hfirst⟩

lemma add_some (hrun : runLoop (addTurn R h) k (R.bstart, 0) = some (some z)) : Vacant R h z := by
  obtain ⟨i, hi, rfl, hempty, -⟩ := add_found hrun
  exact ⟨by unfold Region.bstart; omega, by omega, hempty⟩

lemma find_leaves (R : Region) (h : Heap) (a : ℕ) :
    ∃ k r, runLoop (findTurn h a) k (.first R h) = some r := by
  apply runLoop_leaves (I := fun _ => True) Cursor.left _ trivial
  intro c _
  unfold findTurn
  split_ifs with hhere hleft
  · exact Or.inr ⟨_, rfl⟩
  · exact Or.inr ⟨_, rfl⟩
  · exact Or.inl ⟨_, rfl, trivial, by dsimp only; omega⟩

lemma find_turn (R : Region) (h : Heap) (a j : ℕ) : findTurn h a (cursorAt R h j) =
    if addressAt R h j = a then .leave (some (position h j))
    else if h.blistSize ≤ j + 1 then .leave none
    else .again (cursorAt R h (j + 1)) := by
  have hlast : h.blistSize - j - 1 = 0 ↔ h.blistSize ≤ j + 1 := by omega
  rw [cursorAt_succ]
  exact if_congr Iff.rfl rfl (if_congr hlast rfl rfl)

lemma find_left {r : Option ℤ} (hb : h.blistSize ≠ 0)
    (hrun : runLoop (findTurn h a) k (.first R h) = some r) :
    ∃ j < h.blistSize, findTurn h a (cursorAt R h j) = .leave r ∧ ∀ i < j, addressAt R h i ≠ a := by
  have hknown : ∀ j t, findTurn h a (cursorAt R h j) = .again t → t = cursorAt R h (j + 1) := by
    intro j t hturn
    rw [find_turn] at hturn
    split_ifs at hturn
    exact (Turn.again.inj hturn).symm
  obtain ⟨j, hleave, hagain⟩ := runLoop_left hknown hrun
  have hbefore : ∀ i < j, addressAt R h i ≠ a ∧ i + 1 < h.blistSize := by
    intro i hi
    have hturn := hagain i hi
    rw [find_turn] at hturn
    split_ifs at hturn with hhere hend
    exact ⟨hhere, not_le.mp hend⟩
  refine ⟨j, ?_, hleave, fun i hi => (hbefore i hi).1⟩
  cases j with
  | zero => exact Nat.pos_of_ne_zero hb
  | succ i => exact (hbefore i i.lt_succ_self).2

lemma find_some (hb : h.blistSize ≠ 0)
    (hrun : runLoop (findTurn h a) k (.first R h) = some (some z)) :
    ∃ j, Located R h a j ∧ z = position h j := by
  obtain ⟨j, hlt, hleave, hfirst⟩ := find_left hb hrun
  rw [find_turn] at hleave
  split_ifs at hleave with hhere hend
  · exact ⟨j, ⟨hlt, hhere, hfirst⟩, (Option.some.inj (Turn.leave.inj hleave)).symm⟩
  · cases hleave

lemma find_none (hb : h.blistSize ≠ 0)
    (hrun : runLoop (findTurn h a) k (.first R h) = some none) : ∀ j, ¬ Located R h a j := by
  obtain ⟨j, hlt, hleave, hfirst⟩ := find_left hb hrun
  rw [find_turn] at hleave
  split_ifs at hleave with hhere hend
  · cases hleave
  · intro i hl
    rcases Nat.lt_or_ge i j with hi | hi
    · exact hfirst i hi hl.here
    · have hlt := hl.lt
      obtain rfl : i = j := by omega
      exact hhere hl.here

def Spare (R : Region) (h : Heap) : Prop := ∃ i : ℕ, 4 * i < R.words ∧ h.marks (R.bstart - i) = .empty

lemma add_spare (hrun : runLoop (addTurn R h) k (R.bstart, 0) = some (some z)) : Spare R h := by
  obtain ⟨i, hi, rfl, hempty, -⟩ := add_found hrun
  exact ⟨i, hi, hempty⟩

lemma add_none (hend : -1 ≤ h.fsllEnd ∧ h.fsllEnd ≤ R.bstart)
    (hrun : runLoop (addTurn R h) k (R.bstart, 0) = some none) : ¬ Spare R h := by
  have hwords := words_dvd R
  refine runLoop_invariant (Q := fun r => r = none → ¬ Spare R h)
    (I := fun c => ∃ i : ℕ, c.1 = R.bstart - i ∧ c.2 = 4 * i ∧ 4 * i ≤ R.words ∧
      ∀ j < i, h.marks (R.bstart - j) ≠ .empty) ?_ ?_
    ⟨0, by simp, rfl, Nat.zero_le _, by simp⟩ hrun rfl
  · rintro ⟨r1, r6⟩ t ⟨i, hi, rfl, hle, hfirst⟩ hturn
    unfold addTurn at hturn
    dsimp only at *
    subst hi
    split_ifs at hturn with hstop hempty hin <;> obtain rfl := Turn.again.inj hturn
    · -- no word is out of reach
      exact absurd (in_range ⟨by unfold Region.bstart; omega, by omega⟩ hend) hin
    · refine ⟨i + 1, by push_cast; omega, by omega, by omega, fun j hj => ?_⟩
      rcases Nat.lt_succ_iff_lt_or_eq.mp hj with hj | rfl
      · exact hfirst j hj
      · exact hempty
  · rintro ⟨r1, r6⟩ r ⟨i, hi, rfl, hle, hfirst⟩ hturn rfl ⟨j, hj, hempty⟩
    unfold addTurn at hturn
    dsimp only at *
    split_ifs at hturn with hstop hword hin
    · exact hfirst j (by omega) hempty
    · simp at hturn

lemma walk_turn (R : Region) (h : Heap) (z : ℤ) (j : ℕ) :
    walkTurn h z (position h j, addressAt R h j) =
      if position h j = z then .leave (addressAt R h j)
      else .again (position h (j + 1), addressAt R h (j + 1)) := by
  rw [position_succ]
  rfl

lemma walk_some {p : ℕ} (hrun : runLoop (walkTurn h z) k (h.fsllStart, R.hstart) = some p) :
    ∃ j, position h j = z ∧ p = addressAt R h j ∧ ∀ i < j, position h i ≠ z := by
  have hknown : ∀ j t, walkTurn h z (position h j, addressAt R h j) = .again t →
      t = (position h (j + 1), addressAt R h (j + 1)) := by
    intro j t hturn
    rw [walk_turn] at hturn
    split_ifs at hturn
    exact (Turn.again.inj hturn).symm
  obtain ⟨j, hleave, hagain⟩ := runLoop_left hknown hrun
  rw [walk_turn] at hleave
  split_ifs at hleave with hz
  refine ⟨j, hz, (Turn.leave.inj hleave).symm, fun i hi => ?_⟩
  have hturn := hagain i hi
  rw [walk_turn] at hturn
  split_ifs at hturn with hz'
  exact hz'

def Precedes (h : Heap) (y z : ℤ) : Prop :=
  ∃ i, position h i = y ∧ position h (i + 1) = z ∧ ∀ k ≤ i, position h k ≠ z

lemma Precedes.next (hp : Precedes h y z) : h.next y = z := by
  obtain ⟨i, rfl, hz, -⟩ := hp
  rwa [position_succ] at hz

lemma Precedes.ne (hp : Precedes h y z) : y ≠ z := by
  obtain ⟨i, rfl, -, hfirst⟩ := hp
  exact hfirst i le_rfl

lemma Precedes.unique {x : ℤ} (hy : Precedes h y z) (hx : Precedes h x z) : y = x := by
  obtain ⟨i, rfl, hi, hbefore⟩ := hy
  obtain ⟨j, rfl, hj, hbefore'⟩ := hx
  rcases lt_trichotomy i j with hlt | rfl | hlt
  · exact absurd hi (hbefore' (i + 1) hlt)
  · rfl
  · exact absurd hj (hbefore (j + 1) hlt)

lemma pred_some (hne : h.fsllStart ≠ z) (hrun : runLoop (predTurn h z) k (h.fsllStart, z) = some y) :
    Precedes h y z := by
  refine runLoop_invariant (Q := fun y => Precedes h y z)
    (I := fun c => ∃ j, c.1 = position h j ∧ (∀ i < j, position h i ≠ z) ∧
      ∀ i, j = i + 1 → c.2 = position h i) ?_ ?_ ⟨0, rfl, by simp, by simp⟩ hrun
  · rintro ⟨r4, r2⟩ t ⟨j, rfl, hfirst, hprev⟩ hturn
    unfold predTurn at hturn
    split_ifs at hturn with hz
    obtain rfl := Turn.again.inj hturn
    refine ⟨j + 1, (position_succ h j).symm, fun i hi => ?_, fun i hi => ?_⟩
    · rcases Nat.lt_succ_iff_lt_or_eq.mp hi with hi | rfl
      · exact hfirst i hi
      · exact hz
    · obtain rfl : j = i := by omega
      rfl
  · rintro ⟨r4, r2⟩ r ⟨j, rfl, hfirst, hprev⟩ hturn
    unfold predTurn at hturn
    split_ifs at hturn with hz
    obtain rfl := Turn.leave.inj hturn
    cases j with
    | zero => exact absurd hz hne
    | succ i => exact ⟨i, (hprev i rfl).symm, hz, fun k hk => hfirst k (by omega)⟩

end Skibios.Allocator.Walks

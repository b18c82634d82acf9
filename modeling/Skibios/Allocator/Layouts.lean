import Skibios.Allocator.Paths
import Skibios.Library.Segments

/-! The blocks of the heap memory, one behind the other: sizes, and which of them are free. -/

namespace Skibios.Allocator.Layouts

open Function Library.Words Library.Segments Markers Paths

abbrev Layout := List (ℕ × Bool)

variable {B B' C pre mid mid' post post' : Layout} {k k' l n p q v s : ℕ} {d x y z : ℤ} {f : ℤ → Marker}
  {L L₁ L₂ : List ℤ} {h : Heap} {m : Marker}

def used (B : Layout) : ℕ := B.countP fun b => b ≠ (0, false)

@[simp] lemma used_nil : used [] = 0 := rfl

@[simp] lemma used_append : used (B ++ C) = used B + used C := List.countP_append

@[simp] lemma used_cons_empty : used ((0, false) :: B) = used B := by
  simp [used]

@[simp] lemma used_cons_free : used ((s, true) :: B) = used B + 1 := by
  simp [used]

lemma used_cons_pos (hs : 0 < s) : used ((s, false) :: B) = used B + 1 := by
  simp [used, hs.ne']

/-- Every allocated block of `B` stays where it is, and no more than the markers of `B'` are
counted by `k'` if no more than those of `B` are counted by `k`. -/
structure Follows (B : Layout) (k : ℕ) (B' : Layout) (k' : ℕ) : Prop where
  kept : ∀ p s, 0 < s → At Prod.fst B p (s, false) → At Prod.fst B' p (s, false)
  count : k ≤ used B → k' ≤ used B'

lemma Follows.refl (B : Layout) (k : ℕ) : Follows B k B k := ⟨fun _ _ _ => id, id⟩

lemma used_le_length (B : Layout) : used B ≤ B.length := List.countP_le_length

def Placed (B B' : Layout) (q n : ℕ) : Prop :=
  (∃ s, n ≤ s ∧ At Prod.fst B' q (s, false)) ∧ ∀ s, 0 < s → ¬ At Prod.fst B q (s, false)

lemma Placed.free (hs : 0 < s) (hv : k ≤ v) (hB : B = pre ++ [(s, true)] ++ post)
    (hB' : B' = pre ++ ((v, false) :: C) ++ post') : Placed B B' (total Prod.fst pre) k := by
  subst hB hB'
  refine ⟨⟨v, hv, ?_⟩, fun l hl hat => ?_⟩
  · rw [List.append_assoc]
    exact At.intro
  rw [List.append_assoc, List.singleton_append] at hat
  exact absurd (At.unique hat At.intro hl hs) (by simp)

lemma Placed.last (hB : total Prod.fst B = total Prod.fst pre)
    (hB' : B' = pre ++ [(k, false)]) : Placed B B' (total Prod.fst pre) k := by
  subst hB'
  refine ⟨⟨k, le_rfl, At.intro⟩, fun l hl hat => ?_⟩
  have hle := hat.end_le
  dsimp only at hle
  omega

structure Same (B : Layout) (k : ℕ) (B' : Layout) (k' : ℕ) : Prop where
  held : ∀ p s, 0 < s → (At Prod.fst B' p (s, false) ↔ At Prod.fst B p (s, false))
  le : k ≤ used B → k' ≤ used B'
  eq : k = used B → k' = used B'

lemma Same.refl (B : Layout) (k : ℕ) : Same B k B k := ⟨fun _ _ _ => Iff.rfl, id, id⟩

lemma Same.trans (h : Same B k B' k') (h' : Same B' k' C l) : Same B k C l :=
  ⟨fun p s hs => (h'.held p s hs).trans (h.held p s hs), h'.le ∘ h.le, h'.eq ∘ h.eq⟩

lemma Same.follows (h : Same B k B' k') : Follows B k B' k' :=
  ⟨fun p s hs => (h.held p s hs).mpr, h.le⟩

/-- A part without allocated blocks is replaced by one of the same length, or it is the last part. -/
lemma Same.reshape (hfree : ∀ s, 0 < s → (s, false) ∉ mid) (hfree' : ∀ s, 0 < s → (s, false) ∉ mid')
    (hlen : total Prod.fst mid' = total Prod.fst mid ∨ post = [])
    (hk : k' = k + used mid' - used mid) : Same (pre ++ mid ++ post) k (pre ++ mid' ++ post) k' := by
  refine ⟨fun p s hs => ⟨fun hat => ?_, fun hat => ?_⟩, fun hle => ?_, fun heq => ?_⟩
  · apply hat.replace (hlen.imp_left Eq.symm)
    rintro q ⟨front, back, he, -⟩
    exact absurd (he ▸ by simp) (hfree' s hs)
  · apply hat.replace hlen
    rintro q ⟨front, back, he, -⟩
    exact absurd (he ▸ by simp) (hfree s hs)
  · rw [used_append, used_append] at hle ⊢
    omega
  · rw [used_append, used_append] at heq ⊢
    omega

structure Grown (B : Layout) (k : ℕ) (B' : Layout) (k' q n : ℕ) : Prop where
  placed : Placed B B' q n
  held : ∀ p s, 0 < s → p ≠ q → (At Prod.fst B' p (s, false) ↔ At Prod.fst B p (s, false))
  le : k ≤ used B → k' ≤ used B'
  eq : k = used B → k' = used B'

lemma Grown.follows (h : Grown B k B' k' q n) : Follows B k B' k' := by
  refine ⟨fun p s hs hat => (h.held p s hs ?_).mpr hat, h.le⟩
  rintro rfl
  exact h.placed.2 s hs hat

lemma Grown.reshape (hplaced : Placed (pre ++ mid ++ post) (pre ++ ((v, false) :: C) ++ post)
      (total Prod.fst pre) n) (hfree : ∀ s, 0 < s → (s, false) ∉ mid)
    (hfree' : ∀ s, 0 < s → (s, false) ∉ C)
    (hlen : total Prod.fst ((v, false) :: C) = total Prod.fst mid ∨ post = [])
    (hk : k' = k + used ((v, false) :: C) - used mid) :
    Grown (pre ++ mid ++ post) k (pre ++ ((v, false) :: C) ++ post) k' (total Prod.fst pre) n := by
  refine ⟨hplaced, fun p s hs hne => ⟨fun hat => ?_, fun hat => ?_⟩, fun hle => ?_, fun heq => ?_⟩
  · apply hat.replace (hlen.imp_left Eq.symm)
    rintro i ⟨front, back, he, rfl⟩
    -- the new block is the only allocated one of its part
    cases front with
    | nil => exact hne
    | cons b front =>
      have hmem : (s, false) ∈ C := by
        rw [(List.cons.inj he).2]
        simp
      exact absurd hmem (hfree' s hs)
  · apply hat.replace hlen
    rintro i ⟨front, back, he, -⟩
    exact absurd (he ▸ by simp) (hfree s hs)
  · rw [used_append, used_append] at hle ⊢
    omega
  · rw [used_append, used_append] at heq ⊢
    omega

def block (m : Marker) : ℕ × Bool := (m.size, m.free)

def blocks (f : ℤ → Marker) (L : List ℤ) : Layout := L.map fun z => block (f z)

@[simp] lemma block_empty : block .empty = (0, false) := rfl

lemma block_allocated (hv : v < 32768) : block ⟨uint16 v, d⟩ = (v, false) := by
  have hsize : uint16 v % 32768 = v := by unfold uint16; omega
  have hfree : uint16 v / 32768 % 2 ≠ 1 := by unfold uint16; omega
  simp [block, Marker.size, Marker.free, hsize, hfree]

lemma block_free (hv : v < 32768) : block ⟨uint16 (v + 32768), d⟩ = (v, true) := by
  have hsize : uint16 (v + 32768) % 32768 = v := by unfold uint16; omega
  have hfree : uint16 (v + 32768) / 32768 % 2 = 1 := by unfold uint16; omega
  simp [block, Marker.size, Marker.free, hsize, hfree]

@[simp] lemma blocks_nil : blocks f [] = [] := rfl

@[simp] lemma blocks_cons : blocks f (z :: L) = block (f z) :: blocks f L := rfl

@[simp] lemma blocks_append : blocks f (L₁ ++ L₂) = blocks f L₁ ++ blocks f L₂ := List.map_append

lemma blocks_update (hz : z ∉ L) : blocks (update f z m) L = blocks f L := by
  apply List.map_congr_left
  intro y hy
  have hne : y ≠ z := fun he => hz (he ▸ hy)
  rw [update_of_ne hne]

lemma blocks_offset : blocks (update f z { f z with offset := d }) L = blocks f L := by
  apply List.map_congr_left
  intro y _
  rcases eq_or_ne y z with rfl | hne
  · rw [update_self]
    rfl
  · rw [update_of_ne hne]

lemma at_blocks {b : ℕ × Bool} (hat : At Prod.fst (blocks f L) p b) : ∃ pre z post, L = pre ++ z :: post ∧
    block (f z) = b ∧ total Prod.fst (blocks f pre) = p := hat.of_map

lemma used_blocks (hs : ∀ z ∈ L, 0 < (f z).size) : used (blocks f L) = L.length := by
  induction L with
  | nil => rfl
  | cons z L ih =>
    have hz : (f z).size ≠ 0 := (hs z List.mem_cons_self).ne'
    have hcons : used (block (f z) :: blocks f L) = used (blocks f L) + 1 := by
      simp [used, block, hz]
    rw [blocks_cons, hcons, ih fun y hy => hs y (List.mem_cons_of_mem z hy), List.length_cons]

lemma total_blocks : total Prod.fst (blocks f L) = total (fun z => (f z).size) L := by
  simp [total, blocks, block, Function.comp_def]

end Skibios.Allocator.Layouts

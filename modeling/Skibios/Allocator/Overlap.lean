import Skibios.Allocator.Layouts
import Skibios.Allocator.Pools

/-! Live blocks do not overlap, as long as no split leaves a cycle in the list and no merged size
overflows its marker. -/

namespace Skibios.Allocator.Overlap

open Function Library.Words Library.Loops Library.Chains Library.Segments Library.Runs
open Markers Paths Walks Outcomes Pools Layouts

variable {R : Region} {h t : Heap} {L M pre post : List ℤ} {a j k n p s v : ℕ} {b q x y z d : ℤ}
  {c e : Registers}

lemma pair_notMem (hn : (pre ++ x :: y :: post).Nodup) :
    x ≠ y ∧ (x ∉ pre ∧ y ∉ pre) ∧ x ∉ post ∧ y ∉ post := by
  obtain ⟨hxy, hother⟩ := nodup_pair hn
  refine ⟨hxy, ⟨fun hx => ?_, fun hy => ?_⟩, fun hx => ?_, fun hy => ?_⟩
  · exact (hother x (List.mem_append_left _ hx)).1 rfl
  · exact (hother y (List.mem_append_left _ hy)).2 rfl
  · exact (hother x (List.mem_append_right _ hx)).1 rfl
  · exact (hother y (List.mem_append_right _ hy)).2 rfl

lemma blocks_setHalf (hn : (pre ++ x :: post).Nodup) : blocks (h.setHalf x v).marks (pre ++ x :: post) =
    blocks h.marks pre ++ [block ⟨uint16 v, 0⟩] ++ blocks h.marks post := by
  obtain ⟨hpre, hpost⟩ := nodup_split hn
  change blocks (update h.marks x { h.marks x with half := uint16 v }) _ = _
  rw [blocks_append, blocks_cons, blocks_update hpre, blocks_update hpost, update_self]
  simp
  rfl

lemma blocks_split (h : Heap) (pre : List ℤ) (x : ℤ) (post : List ℤ) : blocks h.marks (pre ++ x :: post) =
    blocks h.marks pre ++ [block (h.marks x)] ++ blocks h.marks post := by
  simp

lemma position_split (hp : Path R h (pre ++ z :: post)) : position h pre.length = z :=
  hp.linked.iterate hp.first

lemma address_split (hp : Path R h (pre ++ post)) :
    addressAt R h pre.length = R.hstart + total Prod.fst (blocks h.marks pre) := by
  induction pre using List.reverseRecOn generalizing post with
  | nil => rfl
  | append_singleton pre z ih =>
    rw [List.append_assoc] at hp
    rw [List.length_append, List.length_singleton, addressAt, ih hp, position_split hp]
    simp [block, add_assoc]

lemma split_list (hj : j < L.length) : ∃ front y back, L = front ++ y :: back ∧ front.length = j := by
  refine ⟨L.take j, L[j], L.drop (j + 1), ?_, List.length_take_of_le hj.le⟩
  rw [← List.drop_eq_getElem_cons, List.take_append_drop]

lemma split_at (hp : Path R h L) (hj : j < L.length) : ∃ pre post,
    L = pre ++ position h j :: post ∧ pre.length = j := by
  obtain ⟨front, y, back, rfl, rfl⟩ := split_list hj
  exact ⟨front, back, by rw [position_split hp], rfl⟩

lemma located_split (hp : Path R h (pre ++ z :: post)) (hlt : pre.length < h.blistSize)
    (hsize : ∀ y ∈ pre, 0 < (h.marks y).size) :
    Located R h (R.hstart + total Prod.fst (blocks h.marks pre)) pre.length := by
  refine ⟨hlt, address_split hp, fun i hi => ?_⟩
  have hmono := addressAt_mono R h (Nat.succ_le_of_lt hi)
  rw [addressAt, address_split hp] at hmono
  obtain ⟨front, y, back, rfl, rfl⟩ := split_list hi
  have hpos := hsize y (by simp)
  have hy : position h front.length = y := position_split (by simpa using hp)
  rw [hy] at hmono
  omega

lemma chosen_split (hp : Path R h L) (hk : h.blistSize ≤ used (blocks h.marks L))
    (hj : j < h.blistSize) : ∃ pre post, L = pre ++ position h j :: post ∧ pre.length = j := by
  apply split_at hp
  have hlen := used_le_length (blocks h.marks L)
  rw [blocks, List.length_map] at hlen
  exact hj.trans_le (hk.trans hlen)

lemma size_lt (m : Marker) : m.size < 32768 := Nat.mod_lt _ (by decide)

structure Taken (R : Region) (h : Heap) (L : List ℤ) (n p : ℕ) (t : Heap) (M : List ℤ) : Prop where
  path : Path R t M
  follows : Follows (blocks h.marks L) h.blistSize (blocks t.marks M) t.blistSize
  placed : p ≠ 0 → ∃ q, p = R.hstart + q ∧ Placed (blocks h.marks L) (blocks t.marks M) q n

lemma blocks_cut (hm : t.marks = update (update h.marks z ⟨uint16 (v + 32768), q⟩) x ⟨uint16 n, d⟩)
    (hn : (pre ++ x :: z :: post).Nodup) (hlt : n < 32768) (hv : v < 32768) :
    blocks t.marks (pre ++ x :: z :: post) =
      blocks h.marks pre ++ [(n, false), (v, true)] ++ blocks h.marks post := by
  obtain ⟨hxz, ⟨hx, hz⟩, hx', hz'⟩ := pair_notMem hn
  rw [hm, blocks_append, blocks_cons, blocks_cons, blocks_update hx, blocks_update hz, update_self,
    update_of_ne hxz.symm, update_self, block_allocated hlt, block_free hv, blocks_update hx',
    blocks_update hz']
  simp

lemma Inserted.grown (hi : Inserted x z L M) (hp : Path R h L) (hx : x ∈ L) (hz : Lowest R h z)
    (hfit : Fits h n x) (hn : 0 < n) :
    ∃ pre, (∃ post, L = pre ++ x :: post) ∧
      Grown (blocks h.marks L) h.blistSize (blocks (cut h x z n).marks M) (h.blistSize + 1)
        (total Prod.fst (blocks h.marks pre)) n := by
  have hs : block (h.marks x) = ((h.marks x).size, true) := by rw [block, hfit.1]
  have hlt := size_lt (h.marks x)
  have hle := hfit.2
  have hM := (hi.path (n := n) hp hx hz).nodup
  have hmarks : (cut h x z n).marks = _ := (congrArg Heap.marks (cut_eq hp hi hx hz)).trans linkSplit_marks
  cases hi with
  | @inside pre post y hmem =>
    have hB' := blocks_cut hmarks hM (by omega) (by omega)
    have hB := blocks_split h pre x (y :: post)
    rw [hs] at hB
    refine ⟨pre, ⟨_, rfl⟩, ?_⟩
    rw [hB, hB']
    apply Grown.reshape (Placed.free (by omega) le_rfl rfl rfl)
    · simp
    · simp
    · left
      simp
      omega
    · simp [used_cons_pos hn]
  | @tail pre =>
    have hB' := blocks_cut hmarks hM (by omega) (by omega)
    have hz0 : block (h.marks z) = (0, false) := by rw [hz.empty, block_empty]
    have hmid : blocks h.marks (pre ++ [x, z]) =
        blocks h.marks pre ++ [((h.marks x).size, true), (0, false)] ++ [] := by
      simp [hs, hz0]
    have hB := blocks_split h pre x [z]
    rw [hs] at hB
    have hplaced := Placed.free (by omega) le_rfl hB hB'
    refine ⟨pre, ⟨_, rfl⟩, ?_⟩
    rw [hmid, hB'] at hplaced ⊢
    apply Grown.reshape hplaced
    · intro s hs
      simp
      omega
    · simp
    · left
      simp
      omega
    · simp [used_cons_pos hn]

lemma whole_grown (hp : Path R h (pre ++ x :: post)) (hfit : Fits h n x) (hn : 0 < n) (k : ℕ) :
    Grown (blocks h.marks (pre ++ x :: post)) k
      (blocks (h.setHalf x (h.marks x).size).marks (pre ++ x :: post)) k
      (total Prod.fst (blocks h.marks pre)) n := by
  have hlt := size_lt (h.marks x)
  have hle := hfit.2
  have hB := blocks_split h pre x post
  have hB' := blocks_setHalf (h := h) (v := (h.marks x).size) hp.nodup
  rw [block_allocated hlt] at hB'
  rw [block, hfit.1] at hB
  rw [hB, hB']
  apply Grown.reshape (Placed.free (by omega) hle rfl rfl)
  · simp
  · simp
  · simp
  · simp [used_cons_pos (hn.trans_le hle)]

lemma blocks_appendMarker (hn : (pre ++ [z]).Nodup) (hlt : n < 32768) :
    blocks (appendMarker h z n).marks pre = blocks h.marks pre ∧
      blocks (appendMarker h z n).marks (pre ++ [z]) = blocks h.marks pre ++ [(n, false)] ++ [] := by
  have hoffset : ∀ M, blocks (appendMarker h z n).marks M = blocks (h.setHalf z n).marks M :=
    fun M => blocks_offset
  rw [hoffset, hoffset, blocks_setHalf hn, block_allocated hlt]
  exact ⟨blocks_update (nodup_split hn).1, rfl⟩

lemma append_grown (hp : Path R h L) (hz : Vacant R h z) (hn : 0 < n) (hlt : n < 32768) (k : ℕ) :
    ∃ pre, Path R (appendMarker h z n) (pre ++ [z]) ∧ (∀ w ∈ pre, w ∈ L) ∧
      Grown (blocks h.marks L) k (blocks (appendMarker h z n).marks (pre ++ [z])) (k + 1)
        (total Prod.fst (blocks (appendMarker h z n).marks pre)) n := by
  obtain ⟨hmem, hp'⟩ | ⟨-, pre, rfl, hp'⟩ := append_path (n := n) hp hz
  · obtain ⟨hpre, hB'⟩ := blocks_appendMarker (h := h) hp'.nodup hlt
    have hB : blocks h.marks L = blocks h.marks L ++ [] ++ [] := by simp
    refine ⟨L, hp', fun _ => id, ?_⟩
    rw [hpre, hB']
    nth_rewrite 1 [hB]
    apply Grown.reshape (Placed.last (by simp) (by simp))
    · simp
    · simp
    · simp
    · simp [used_cons_pos hn]
  · obtain ⟨hpre, hB'⟩ := blocks_appendMarker (h := h) hp'.nodup hlt
    have hB : blocks h.marks (pre ++ [z]) = blocks h.marks pre ++ [(0, false)] ++ [] := by
      simp [hz.empty]
    refine ⟨pre, hp', fun _ => List.mem_append_left _, ?_⟩
    rw [hpre, hB, hB']
    apply Grown.reshape (Placed.last (by simp) (by simp))
    · intro s hs
      simp
      omega
    · simp
    · simp
    · simp [used_cons_pos hn]

lemma Allocated.grown (ha : Allocated R h n p t) (hp : Path R h L) (hs : SplitSafe R h n)
    (hk : h.blistSize ≤ used (blocks h.marks L)) (hn : 0 < n) (hlt : n < 32768) :
    ∃ M, Path R t M ∧ (∀ w ∈ M, w ∈ L ∨ h.marks w = .empty) ∧
      ((p = 0 ∧ t = h ∧ M = L) ∨ ∃ q, p = R.hstart + q ∧
        Grown (blocks h.marks L) h.blistSize (blocks t.marks M) t.blistSize q n) := by
  cases ha with
  | searched hpos hs' =>
    cases hs' with
    | none => exact absurd hpos (lt_irrefl 0)
    | @whole j hc =>
      obtain ⟨pre, post, hL, hlen⟩ := chosen_split hp hk hc.lt
      generalize hx : position h j = x at *
      subst hL
      have hgrown := whole_grown hp (hx ▸ hc.fits) hn h.blistSize
      refine ⟨_, hp.setHalf _ _, fun w hw => Or.inl hw, Or.inr ⟨_, ?_, hgrown⟩⟩
      rw [← hlen, address_split hp]
    | @split j z hc hne hz =>
      obtain ⟨pre, post, hL, hlen⟩ := chosen_split hp hk hc.lt
      obtain ⟨hend, hword⟩ := hs j z hc hne hz
      have hx := position_mem hp j
      obtain ⟨M, hi⟩ := inserted hp hx hz.empty hend hword
      obtain ⟨front, ⟨back, hL'⟩, hgrown⟩ := Inserted.grown hi hp hx hz hc.fits hn
      have hfront : pre = front := by
        rw [hL] at hL'
        have hnot := nodup_split (hL ▸ hp.nodup)
        exact ((List.append_cons_inj_of_notMem hnot.1 hnot.2).mp hL').1
      have hcount : (cut h (position h j) z n).blistSize = h.blistSize + 1 := by
        rw [cut_eq hp hi hx hz]
        rfl
      rw [← hcount] at hgrown
      refine ⟨M, hi.path hp hx hz, fun w hw => ?_, Or.inr ⟨_, ?_, hgrown⟩⟩
      · obtain rfl | hmem := hi.mem hw
        · exact Or.inr hz.empty
        · exact Or.inl hmem
      · rw [← hlen, ← hfront]
        exact address_split (hL ▸ hp)
  | added ha =>
    cases ha with
    | full => exact ⟨L, hp, fun w hw => Or.inl hw, Or.inl ⟨rfl, rfl, rfl⟩⟩
    | appended hz hw =>
      obtain ⟨pre, hp', hmem, hgrown⟩ := append_grown hp hz hn hlt h.blistSize
      refine ⟨_, hp'.congr rfl rfl fun _ _ => rfl, fun w hw => ?_, Or.inr ⟨_, ?_, hgrown⟩⟩
      · rcases List.mem_append.mp hw with hw | hw
        · exact Or.inl (hmem w hw)
        · rw [List.mem_singleton.mp hw]
          exact Or.inr hz.empty
      · rw [runLoop_unique hw (walk_path hp'), total_blocks]

lemma Allocated.taken (ha : Allocated R h n p t) (hp : Path R h L) (hs : SplitSafe R h n)
    (hk : h.blistSize ≤ used (blocks h.marks L)) (hn : 0 < n) (hlt : n < 32768) :
    ∃ M, Taken R h L n p t M := by
  obtain ⟨M, hM, -, ⟨rfl, rfl, rfl⟩ | ⟨q, rfl, hgrown⟩⟩ := Allocated.grown ha hp hs hk hn hlt
  · exact ⟨M, hM, Follows.refl _ _, fun h0 => absurd rfl h0⟩
  · exact ⟨M, hM, hgrown.follows, fun _ => ⟨q, rfl, hgrown.placed⟩⟩

lemma merge_same (hp : Path R h (pre ++ x :: y :: b :: post)) (hx : block (h.marks x) = (s, true))
    (hy : block (h.marks y) = (v, true)) (hlt : s + v < 32768) (k : ℕ) :
    Same (blocks h.marks (pre ++ x :: y :: b :: post)) k
      (blocks (mergeMarkers h x y d (s + v + 32768)).marks (pre ++ x :: b :: post)) (k - 1) := by
  obtain ⟨hxy, ⟨hxpre, hypre⟩, hxpost, hypost⟩ := pair_notMem hp.nodup
  have hB : blocks h.marks (pre ++ x :: y :: b :: post) =
      blocks h.marks pre ++ [(s, true), (v, true)] ++ blocks h.marks (b :: post) := by
    simp [hx, hy]
  have hB' : blocks (mergeMarkers h x y d (s + v + 32768)).marks (pre ++ x :: b :: post) =
      blocks h.marks pre ++ [(s + v, true)] ++ blocks h.marks (b :: post) := by
    rw [mergeMarkers_marks, blocks_append, blocks_cons, blocks_update hypre, blocks_update hxpre,
      blocks_update hypost, blocks_update hxpost, update_of_ne hxy, update_self, block_free hlt,
      List.append_assoc, List.singleton_append]
  rw [hB, hB']
  apply Same.reshape
  · simp
  · simp
  · simp
  · simp

lemma merge_last_same (hp : Path R h (pre ++ [x, y])) (hx : block (h.marks x) = (s, true))
    (hy : block (h.marks y) = (v, true)) (hlt : s + v < 32768) (k : ℕ) :
    Same (blocks h.marks (pre ++ [x, y])) k
      (blocks (mergeMarkers h x y d (s + v + 32768)).marks (pre ++ [x, y])) (k - 1) := by
  obtain ⟨hxy, ⟨hxpre, hypre⟩, -⟩ := pair_notMem hp.nodup
  have hB : blocks h.marks (pre ++ [x, y]) =
      blocks h.marks pre ++ [(s, true), (v, true)] ++ [] := by
    simp [hx, hy]
  have hB' : blocks (mergeMarkers h x y d (s + v + 32768)).marks (pre ++ [x, y]) =
      blocks h.marks pre ++ [(s + v, true), (0, false)] ++ [] := by
    rw [mergeMarkers_marks, blocks_append, blocks_cons, blocks_cons, blocks_update hypre,
      blocks_update hxpre, update_of_ne hxy, update_self, update_self, block_free hlt, block_empty,
      List.append_nil]
    rfl
  rw [hB, hB']
  apply Same.reshape
  · simp
  · intro s hs
    simp
    omega
  · simp
  · simp

lemma NextJoined.same (hj : NextJoined c x L M e) (hp : Path R c.heap L)
    (hx : block (c.heap.marks x) = (s, true)) (hr : c.r3 = s + 32768) :
    Same (blocks c.heap.marks L) c.r6 (blocks e.heap.marks M) e.r6 := by
  have hadd : ∀ y, c.r3 + (c.heap.marks y).size = s + (c.heap.marks y).size + 32768 := by omega
  have hfree : ∀ y, (c.heap.marks y).free = true →
      block (c.heap.marks y) = ((c.heap.marks y).size, true) := fun y hy => by rw [block, hy]
  cases hj with
  | @deleted pre he =>
    have hpre := (nodup_split hp.nodup).1
    have hB : blocks c.heap.marks (pre ++ [x]) = blocks c.heap.marks pre ++ [(s, true)] ++ [] := by
      simp [hx]
    have hB' : blocks (c.heap.clear x).marks (pre ++ [x]) =
        blocks c.heap.marks pre ++ [(0, false)] ++ [] := by
      change blocks (update c.heap.marks x .empty) _ = _
      rw [blocks_append, blocks_update hpre]
      simp
    rw [hB, hB']
    apply Same.reshape
    · simp
    · intro s hs
      simp
      omega
    · simp
    · simp
  | apart | large => exact Same.refl _ _
  | @merged pre post y b hy hs =>
    rw [hadd] at hs ⊢
    exact merge_same hp hx (hfree y hy) (by omega) c.r6
  | @mergedLast pre y hy hs =>
    rw [hadd] at hs ⊢
    exact merge_last_same hp hx (hfree y hy) (by omega) c.r6

lemma PredJoined.same (hj : PredJoined c q x L M e) (hp : Path R c.heap L)
    (hr : c.heap.marks x ≠ .empty → (c.heap.marks q).free = true →
      block (c.heap.marks x) = (s, true) ∧ c.r3 = s + 32768 ∧ (c.heap.marks q).size + s < 32768) :
    Same (blocks c.heap.marks L) c.r6 (blocks e.heap.marks M) e.r6 := by
  have hadd : c.r3 = s + 32768 →
      c.r3 + (c.heap.marks q).size = (c.heap.marks q).size + s + 32768 := by omega
  cases hj with
  | @dropped pre hx =>
    have hB : blocks c.heap.marks (pre ++ [q, x]) =
        blocks c.heap.marks (pre ++ [q]) ++ [(0, false)] ++ [] := by
      simp [hx]
    have hB' : blocks (c.heap.setOffset q 0).marks (pre ++ [q]) =
        blocks c.heap.marks (pre ++ [q]) ++ [] ++ [] := by
      rw [List.append_nil, List.append_nil]
      exact blocks_offset
    rw [hB]
    change Same _ c.r6 (blocks (c.heap.setOffset q 0).marks (pre ++ [q])) c.r6
    rw [hB']
    apply Same.reshape
    · intro s hs
      simp
      omega
    · simp
    · simp
    · simp
  | apart => exact Same.refl _ _
  | @merged pre post b hx hq =>
    obtain ⟨hblock, hr3, hlt⟩ := hr hx hq
    rw [hadd hr3]
    exact merge_same hp (by rw [block, hq]) hblock hlt c.r6
  | @mergedLast pre hx hq =>
    obtain ⟨hblock, hr3, hlt⟩ := hr hx hq
    rw [hadd hr3]
    exact merge_last_same hp (by rw [block, hq]) hblock hlt c.r6

def freeSize (h : Heap) (z : ℤ) : ℕ := if (h.marks z).free = true then (h.marks z).size else 0

/-- The block at `a`, a free block before it and a free block behind it fit into one marker, unless
the block at `a` is the last one. -/
def MergeFits (R : Region) (h : Heap) (a : ℕ) : Prop :=
  ∀ j, Located R h a (j + 1) → position h (j + 1) ≠ h.fsllEnd →
    (h.marks (position h j)).free = true →
    (h.marks (position h j)).size + (h.marks (position h (j + 1))).size +
      freeSize h (position h (j + 2)) < 32767

lemma NextJoined.front (hj : NextJoined c x L M e) (hp : Path R c.heap L) :
    ∃ pre post post', L = pre ++ x :: post ∧ M = pre ++ x :: post' ∧
      ∀ z ∈ pre, e.heap.marks z = c.heap.marks z := by
  have hmerge : ∀ {pre post y d v}, L = pre ++ x :: y :: post →
      ∀ z ∈ pre, (mergeMarkers c.heap x y d v).marks z = c.heap.marks z := by
    rintro pre post y d v rfl z hz
    obtain ⟨-, hother⟩ := nodup_pair hp.nodup
    obtain ⟨hzx, hzy⟩ := hother z (List.mem_append_left _ hz)
    rw [mergeMarkers_marks, update_of_ne hzy, update_of_ne hzx]
  cases hj with
  | deleted he =>
    refine ⟨_, _, _, rfl, rfl, fun z hz => ?_⟩
    have hne : z ≠ x := fun he' => (nodup_split hp.nodup).1 (he' ▸ hz)
    exact update_of_ne hne _ _
  | apart | large => exact ⟨_, _, _, rfl, rfl, fun _ _ => rfl⟩
  | merged | mergedLast => exact ⟨_, _, _, rfl, rfl, hmerge rfl⟩

lemma NextJoined.register (hj : NextJoined c x L M e) (hp : Path R c.heap L)
    (hx : block (c.heap.marks x) = (s, true)) (hr : c.r3 = s + 32768)
    (hroom : x ≠ c.heap.fsllEnd → s + freeSize c.heap (c.heap.next x) < 32767)
    (he : e.heap.marks x ≠ .empty) : x ≠ c.heap.fsllEnd ∧
      block (e.heap.marks x) = (s + freeSize c.heap (c.heap.next x), true) ∧
      e.r3 = s + freeSize c.heap (c.heap.next x) + 32768 := by
  have hnext : ∀ {pre post y}, L = pre ++ x :: y :: post → x ≠ c.heap.fsllEnd ∧ c.heap.next x = y := by
    rintro pre post y rfl
    exact ⟨fun hend => absurd (hp.after_end hend) (by simp), hp.linked.link⟩
  cases hj with
  | deleted => exact absurd (update_self ..) he
  | @apart pre post y hy =>
    obtain ⟨hne, hlink⟩ := hnext rfl
    rw [hlink, freeSize, if_neg (by simp [hy])]
    exact ⟨hne, hx, hr⟩
  | @large pre post y hy hs =>
    obtain ⟨hne, hlink⟩ := hnext rfl
    have hlt := hroom hne
    rw [hlink, freeSize, if_pos hy] at hlt
    omega
  | @merged pre post y b hy hs =>
    obtain ⟨hne, hlink⟩ := hnext rfl
    have hxy := (nodup_pair hp.nodup).1
    have hadd : c.r3 + (c.heap.marks y).size = s + (c.heap.marks y).size + 32768 := by omega
    rw [hlink, freeSize, if_pos hy, mergeMarkers_marks, update_of_ne hxy, update_self, hadd]
    exact ⟨hne, block_free (by omega), rfl⟩
  | @mergedLast pre y hy hs =>
    obtain ⟨hne, hlink⟩ := hnext rfl
    have hxy := (nodup_pair hp.nodup).1
    have hadd : c.r3 + (c.heap.marks y).size = s + (c.heap.marks y).size + 32768 := by omega
    rw [hlink, freeSize, if_pos hy, mergeMarkers_marks, update_of_ne hxy, update_self, hadd]
    exact ⟨hne, block_free (by omega), rfl⟩

lemma free_follows (hp : Path R h (pre ++ x :: post)) :
    blocks (freeMarker h x).heap.marks (pre ++ x :: post) =
        blocks h.marks pre ++ [((h.marks x).size, true)] ++ blocks h.marks post ∧
      used (blocks h.marks (pre ++ x :: post)) ≤
        used (blocks (freeMarker h x).heap.marks (pre ++ x :: post)) ∧
      ∀ p s, 0 < s → At Prod.fst (blocks h.marks (pre ++ x :: post)) p (s, false) →
        p ≠ total Prod.fst (blocks h.marks pre) →
        At Prod.fst (blocks (freeMarker h x).heap.marks (pre ++ x :: post)) p (s, false) := by
  have hB := blocks_split h pre x post
  have hB' : blocks (freeMarker h x).heap.marks (pre ++ x :: post) =
      blocks h.marks pre ++ [((h.marks x).size, true)] ++ blocks h.marks post := by
    have hset := blocks_setHalf (h := h) (v := (h.marks x).size + 32768) hp.nodup
    rwa [block_free (size_lt _)] at hset
  refine ⟨hB', ?_, fun p s hs hat hne => ?_⟩
  · rw [hB, hB']
    have hle : used [block (h.marks x)] ≤ 1 := used_le_length _
    simp only [used_append, used_cons_free, used_nil]
    omega
  · rw [hB] at hat
    rw [hB']
    refine hat.replace (Or.inl ?_) fun q hq => ?_
    · simp [block]
    · rwa [hq.singleton, add_zero]

lemma freeMarker_self (h : Heap) (x : ℤ) :
    block ((freeMarker h x).heap.marks x) = ((h.marks x).size, true) := by
  change block (update h.marks x { h.marks x with half := uint16 _ } x) = _
  rw [update_self, block_free (size_lt _)]

lemma freeMarker_of_ne (hz : z ≠ x) : (freeMarker h x).heap.marks z = h.marks z :=
  update_of_ne hz _ _

lemma freeMarker_next (h : Heap) (x : ℤ) : (freeMarker h x).heap.next x = h.next x := by
  change x + (update h.marks x _ x).offset = _
  rw [update_self]
  rfl

lemma freeMarker_size (hp : Path R h L) (hx : x ∈ L) (hne : x ≠ h.fsllEnd) :
    freeSize (freeMarker h x).heap ((freeMarker h x).heap.next x) = freeSize h (h.next x) := by
  obtain ⟨he, -⟩ | ⟨-, pre, post, hL⟩ := hp.cases_mem hx
  · exact absurd he hne
  · have hn := hp.nodup
    rw [hL] at hn
    rw [freeMarker_next, freeSize, freeSize, freeMarker_of_ne (nodup_pair hn).1.symm]

lemma before_joined (hp : Path R h (pre ++ x :: post)) {front back : List ℤ}
    (hn : NextJoined (freeMarker h x) x (pre ++ x :: post) (front ++ q :: x :: back) e) :
    pre = front ++ [q] ∧ q ≠ x ∧ e.heap.marks q = h.marks q := by
  obtain ⟨pre₁, post₁, post₂, hL, hM, hmarks⟩ := NextJoined.front hn (free_path hp x)
  have hnot := nodup_split hp.nodup
  obtain ⟨rfl, -⟩ := (List.append_cons_inj_of_notMem hnot.1 hnot.2).mp hL
  have hq : front ++ q :: x :: back = (front ++ [q]) ++ x :: back := by simp
  rw [hq] at hM hn
  have hnot' := nodup_split (hn.path (free_path hp x)).nodup
  obtain ⟨rfl, -⟩ := (List.append_cons_inj_of_notMem hnot'.1 hnot'.2).mp hM
  have hne : q ≠ x := by
    rintro rfl
    simp at hnot
  exact ⟨rfl, hne, (hmarks q (by simp)).trans (freeMarker_of_ne hne)⟩

lemma joined_fits (hp : Path R h L) (hm : MergeFits R h a)
    (hk : h.blistSize ≤ used (blocks h.marks L)) (hl : Located R h a j) {front back : List ℤ}
    (hn : NextJoined (freeMarker h (position h j)) (position h j) L
      (front ++ q :: position h j :: back) e)
    (hx : e.heap.marks (position h j) ≠ .empty) (hq : (e.heap.marks q).free = true) :
    block (e.heap.marks (position h j)) =
        ((h.marks (position h j)).size + freeSize h (position h (j + 1)), true) ∧
      e.r3 = (h.marks (position h j)).size + freeSize h (position h (j + 1)) + 32768 ∧
      (e.heap.marks q).size +
        ((h.marks (position h j)).size + freeSize h (position h (j + 1))) < 32768 := by
  obtain ⟨pre, post, rfl, rfl⟩ : ∃ pre post, L = pre ++ position h j :: post ∧ pre.length = j :=
    chosen_split hp hk hl.lt
  obtain ⟨rfl, hne, hmarks⟩ := before_joined hp hn
  have hq' : position h front.length = q := position_split (by simpa using hp)
  rw [hmarks] at hq ⊢
  rw [List.length_append, List.length_singleton] at *
  have hroom : position h (front.length + 1) ≠ h.fsllEnd → (h.marks q).size +
      (h.marks (position h (front.length + 1))).size +
        freeSize h (position h (front.length + 2)) < 32767 := by
    intro hend
    have hfits := hm front.length hl hend
    rw [hq'] at hfits
    exact hfits hq
  have hmem := position_mem hp (front.length + 1)
  rw [position_succ h (front.length + 1)] at hroom ⊢
  generalize position h (front.length + 1) = x at *
  have hsize := freeMarker_size hp hmem
  have hregister := NextJoined.register hn (free_path hp x) (freeMarker_self h x) rfl ?_ hx
  · rw [hsize hregister.1] at hregister
    have hfits := hroom hregister.1
    exact ⟨hregister.2.1, hregister.2.2, by omega⟩
  · intro hend
    have hfits := hroom hend
    rw [hsize hend]
    omega

lemma Removed.same (hr : Removed h (position h j) L M t) (hp : Path R h L) (hm : MergeFits R h a)
    (hk : h.blistSize ≤ used (blocks h.marks L)) (hl : Located R h a j) :
    Same (blocks (freeMarker h (position h j)).heap.marks L) h.blistSize (blocks t.marks M)
      t.blistSize := by
  cases hr with
  | first hn => exact NextJoined.same hn (free_path hp _) (freeMarker_self h _) rfl
  | joined hn hq =>
    have hnext := NextJoined.same hn (free_path hp _) (freeMarker_self h _) rfl
    exact hnext.trans (PredJoined.same hq (hn.path (free_path hp _)) (joined_fits hp hm hk hl hn))

lemma Released.laid (hr : Released R h a L M t) (hp : Path R h L) (hm : MergeFits R h a)
    (hk : h.blistSize ≤ used (blocks h.marks L)) : t.blistSize ≤ used (blocks t.marks M) ∧
      ∀ p s, 0 < s → At Prod.fst (blocks h.marks L) p (s, false) → R.hstart + p ≠ a →
        At Prod.fst (blocks t.marks M) p (s, false) := by
  have hkeep : ∀ {j d k}, Located R h a j →
      Follows (blocks (freeMarker h (position h j)).heap.marks L) h.blistSize (blocks d M) k →
      k ≤ used (blocks d M) ∧ ∀ p s, 0 < s → At Prod.fst (blocks h.marks L) p (s, false) →
        R.hstart + p ≠ a → At Prod.fst (blocks d M) p (s, false) := by
    intro j d k hl hf
    obtain ⟨pre, post, hL, hlen⟩ := chosen_split hp hk hl.lt
    generalize position h j = x at *
    subst hL
    obtain ⟨hfree, hused, hkeep⟩ := free_follows hp
    refine ⟨hf.count (hk.trans hused), fun p s hs hat hne => ?_⟩
    apply hf.kept p s hs (hkeep p s hs hat _)
    rintro rfl
    rw [← hl.here, ← hlen, address_split hp] at hne
    exact hne rfl
  cases hr with
  | missing => exact ⟨hk, fun _ _ _ hat _ => hat⟩
  | first hl hn h0 => exact hkeep hl (Removed.same (.first hn h0) hp hm hk hl).follows
  | joined hl hn hq => exact hkeep hl (Removed.same (.joined hn hq) hp hm hk hl).follows

def Held (R : Region) (B : Layout) (b : ℕ × ℕ) : Prop :=
  0 < b.2 ∧ ∃ q s, b.1 = R.hstart + q ∧ b.2 ≤ s ∧ At Prod.fst B q (s, false)

structure Laid (R : Region) (c : Pool) (L : List ℤ) : Prop where
  path : Path R c.heap L
  count : c.heap.blistSize ≤ used (blocks c.heap.marks L)
  held : ∀ b ∈ c.live, Held R (blocks c.heap.marks L) b
  nodup : (c.live.map Prod.fst).Nodup

def BlocksDisjoint (b b' : ℕ × ℕ) : Prop := b.1 + b.2 ≤ b'.1 ∨ b'.1 + b'.2 ≤ b.1

instance (b b' : ℕ × ℕ) : Decidable (BlocksDisjoint b b') := inferInstanceAs (Decidable (_ ∨ _))

lemma Held.disjoint {B : Layout} {b b' : ℕ × ℕ} (hb : Held R B b) (hb' : Held R B b')
    (hne : b.1 ≠ b'.1) : BlocksDisjoint b b' := by
  obtain ⟨-, q, s, hq, hs, hat⟩ := hb
  obtain ⟨-, q', s', hq', hs', hat'⟩ := hb'
  unfold BlocksDisjoint
  rcases lt_trichotomy q q' with hlt | rfl | hlt
  · have hend := hat.apart hat' hlt
    dsimp only at hend
    omega
  · exact absurd (hq.trans hq'.symm) hne
  · have hend := hat'.apart hat hlt
    dsimp only at hend
    omega

lemma Laid.pairwise {c : Pool} (hl : Laid R c L) : c.live.Pairwise BlocksDisjoint := by
  have hne := List.pairwise_map.mp hl.nodup
  apply hne.imp_of_mem
  exact fun hb hb' => (hl.held _ hb).disjoint (hl.held _ hb')

def Sized : Request → Prop
  | .allocate size => 1 ≤ size ∧ size ≤ 32764
  | .release _ => True

instance (e : Request) : Decidable (Sized e) := by
  cases e <;> unfold Sized <;> infer_instance

def SafelyServed (R : Region) (c : Pool) : Request → Prop
  | .allocate size => Accepted c.heap size → SplitSafe R c.heap (wordAlign size)
  | .release p => MergeFits R c.heap p

lemma initial_laid (R : Region) (words : ℤ → Marker) :
    Laid R ⟨heapInit R words, []⟩ [R.bstart] :=
  ⟨initial_path R words, Nat.zero_le _, by simp, by simp⟩

lemma Held.follows {B B' : Layout} {b : ℕ × ℕ} (hb : Held R B b)
    (hkept : ∀ q s, 0 < s → b.1 = R.hstart + q → At Prod.fst B q (s, false) →
      At Prod.fst B' q (s, false)) : Held R B' b := by
  obtain ⟨hpos, q, s, hq, hs, hat⟩ := hb
  exact ⟨hpos, q, s, hq, hs, hkept q s (hpos.trans_le hs) hq hat⟩

lemma handed_laid {live : List (ℕ × ℕ)} (hl : Laid R ⟨h, live⟩ L) (hn : 0 < n)
    (ht : Taken R h L n p t M) : Laid R ⟨t, handOut live p n⟩ M := by
  have hheld : ∀ b ∈ live, Held R (blocks t.marks M) b := fun b hb =>
    (hl.held b hb).follows fun q s hs _ hat => ht.follows.kept q s hs hat
  unfold handOut
  split_ifs with hp
  · exact ⟨ht.path, ht.follows.count hl.count, hheld, hl.nodup⟩
  · obtain ⟨q, rfl, ⟨s, hs, hat⟩, hnew⟩ := ht.placed hp
    refine ⟨ht.path, ht.follows.count hl.count, ?_, ?_⟩
    · intro b hb
      rcases List.mem_cons.mp hb with rfl | hb
      · exact ⟨hn, q, s, rfl, hs, hat⟩
      · exact hheld b hb
    · apply List.nodup_cons.mpr ⟨_, hl.nodup⟩
      intro hmem
      obtain ⟨b, hb, hbp⟩ := List.mem_map.mp hmem
      obtain ⟨hpos, q', s', hq', hs', hat'⟩ := hl.held b hb
      obtain rfl : q' = q := by omega
      exact hnew s' (hpos.trans_le hs') hat'

lemma released_laid {live : List (ℕ × ℕ)} (hl : Laid R ⟨h, live⟩ L) (hm : MergeFits R h p)
    (hmem : (p, n) ∈ live) (hr : Released R h p L M t) : Laid R ⟨t, live.erase (p, n)⟩ M := by
  obtain ⟨hcount, hkept⟩ := Released.laid hr hl.path hm hl.count
  have hnodup : live.Nodup := hl.nodup.of_map
  refine ⟨hr.path hl.path, hcount, fun b hb => ?_, ?_⟩
  · obtain ⟨hne, hb⟩ := hnodup.mem_erase_iff.mp hb
    have haddr : b.1 ≠ p := fun he => hne (List.inj_on_of_nodup_map hl.nodup hb hmem he)
    refine (hl.held b hb).follows fun q s hs hq hat => hkept q s hs hat ?_
    exact fun he => haddr (hq.trans he)
  · exact hl.nodup.sublist ((List.erase_sublist ..).map _)

lemma serve_laid {c d : Pool} {e : Request} (hd : Serve R c e d) (hsize : Sized e)
    (hs : SafelyServed R c e) (hl : ∃ L, Laid R c L) : ∃ L, Laid R d L := by
  obtain ⟨L, hl⟩ := hl
  cases hd with
  | @allocated h t live size fuel p hc =>
    obtain ⟨rfl, rfl⟩ | ⟨hacc, u, ha, ht⟩ := heapAllocate_cases hc
    · exact ⟨L, hl⟩
    · have hpos : 0 < wordAlign size := by
        obtain ⟨h1, h2⟩ := hsize
        unfold wordAlign uint32
        split_ifs <;> omega
      have hlt := hacc.1
      obtain ⟨M, hM⟩ := Allocated.taken ha hl.path (hs hacc) hl.count hpos (by omega)
      obtain ⟨hpath, hcount, hheld, hnodup⟩ := handed_laid hl hpos hM
      refine ⟨M, ?_⟩
      rw [ht]
      exact ⟨hpath.congr rfl rfl fun _ _ => rfl, hcount, hheld, hnodup⟩
  | @released h t live fuel p n status hmem hc =>
    unfold svcServiceGheapRelease at hc
    split_ifs at hc with hb
    · obtain ⟨-, rfl⟩ := Prod.mk.inj (Option.some.inj hc)
      refine ⟨L, hl.path, hl.count, fun b hb => hl.held b (List.mem_of_mem_erase hb), ?_⟩
      exact hl.nodup.sublist ((List.erase_sublist ..).map _)
    · obtain ⟨⟨status, u⟩, hr, hc⟩ := Option.map_eq_some_iff.mp hc
      obtain ⟨-, rfl⟩ := Prod.mk.inj hc
      obtain ⟨M, hM⟩ := released hl.path hb hr
      exact ⟨M, released_laid hl hs hmem hM⟩

theorem live_blocks_disjoint {c : Pool} {es : List Request} {words : ℤ → Marker}
    (hr : Run (fun c e d => (Sized e ∧ SafelyServed R c e) ∧ Serve R c e d)
      ⟨heapInit R words, []⟩ es c) : c.live.Pairwise BlocksDisjoint := by
  obtain ⟨L, hl⟩ : ∃ L, Laid R c L := by
    refine hr.invariant (I := fun c => ∃ L, Laid R c L) ?_ ⟨_, initial_laid R words⟩
    exact fun c e d hl hd => serve_laid hd.2 hd.1.1 hd.1.2 hl
  exact hl.pairwise

section Instances

def Roomy (h : Heap) : Prop :=
  ∀ j < h.blistSize, (h.marks (position h j)).size + (h.marks (position h (j + 1))).size +
    freeSize h (position h (j + 2)) < 32767

instance (h : Heap) : Decidable (Roomy h) := inferInstanceAs (Decidable (∀ j < _, _))

def roomy (c : Pool) (e : Request) : Bool := Sized e ∧ apart c e = true ∧ Roomy c.heap

lemma roomy_safe (R : Region) (c : Pool) (e : Request) (hc : roomy c e = true) :
    Sized e ∧ SafelyServed R c e := by
  obtain ⟨hsize, hapart, hroom⟩ := of_decide_eq_true hc
  refine ⟨hsize, ?_⟩
  cases e with
  | allocate size => exact apart_safe R c (.allocate size) hapart
  | release p => exact fun j hl _ _ => hroom j (by have := hl.lt; omega)

theorem live_blocks_disjoint_split : ∃ c,
    Run (fun c e d => (Sized e ∧ SafelyServed kilobyte c e) ∧ Serve kilobyte c e d) fresh splitting
      c ∧ c.live.length = 3 ∧ c.live.Pairwise BlocksDisjoint := by
  have hsome : ((exec (guarded roomy kilobyte 300) fresh splitting).any fun c =>
      decide (c.live.length = 3)) = true := by decide +kernel
  obtain ⟨c, hr, hlen⟩ := exec_any_run (guarded_sound (roomy_safe kilobyte)) hsome
  exact ⟨c, hr, hlen, live_blocks_disjoint hr⟩

def sizedOnly (_ : Pool) (e : Request) : Bool := Sized e

/-- The marker appended behind the split one takes the first of its parts out of the list. -/
theorem live_blocks_overlap : ∃ c,
    Run (fun c e d => Sized e ∧ Serve kilobyte c e d) fresh (tangling ++ [.allocate 8]) c ∧
      ¬ c.live.Pairwise BlocksDisjoint := by
  have hsome : ((exec (guarded sizedOnly kilobyte 300) fresh (tangling ++ [.allocate 8])).any fun c =>
      decide (¬ c.live.Pairwise BlocksDisjoint)) = true := by decide +kernel
  exact exec_any_run (guarded_sound fun _ _ h => of_decide_eq_true h) hsome

end Instances

end Skibios.Allocator.Overlap

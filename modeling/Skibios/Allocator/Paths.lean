import Skibios.Allocator.Markers
import Skibios.Library.Chains

/-! The markers of a heap as a list: from `fsll_start` along the offsets to `fsll_end`. -/

namespace Skibios.Allocator.Paths

open Function Library.Words Library.Loops Library.Chains Markers

variable {R : Region} {h t : Heap} {L pre post : List ℤ} {x y z b : ℤ} {v : ℕ} {d : ℤ}

structure Path (R : Region) (h : Heap) (L : List ℤ) : Prop where
  linked : Linked h.next L
  nodup : L.Nodup
  first : L.head? = some h.fsllStart
  last : L.getLast? = some h.fsllEnd
  tail : (h.marks h.fsllEnd).offset = 0
  bounds : ∀ z ∈ L, -1 ≤ z ∧ z ≤ R.bstart

lemma in_range (hx : -1 ≤ x ∧ x ≤ R.bstart) (hy : -1 ≤ y ∧ y ≤ R.bstart) : InRange (x - y) := by
  have hle := R.kilobytes_le
  unfold Region.bstart Region.words at *
  unfold InRange
  omega

lemma next_of_tail (ht : (h.marks z).offset = 0) : h.next z = z := by
  rw [Heap.next, ht, add_zero]

lemma nodup_split (hn : (pre ++ z :: post).Nodup) : z ∉ pre ∧ z ∉ post := by
  rw [List.nodup_middle, List.nodup_cons, List.mem_append, not_or] at hn
  exact hn.1

lemma nodup_pair (hn : (pre ++ x :: y :: post).Nodup) :
    x ≠ y ∧ ∀ z ∈ pre ++ post, z ≠ x ∧ z ≠ y := by
  have hx := nodup_split hn
  have hy := @nodup_split (pre ++ [x]) post y (by simpa using hn)
  refine ⟨fun he => hx.2 (he ▸ List.mem_cons_self ..), fun z hz => ?_⟩
  rcases List.mem_append.mp hz with hz | hz
  · refine ⟨fun he => hx.1 (he ▸ hz), fun he => hy.1 (List.mem_append_left _ (he ▸ hz))⟩
  · refine ⟨fun he => hx.2 (List.mem_cons_of_mem _ (he ▸ hz)), fun he => hy.2 (he ▸ hz)⟩

lemma offset_of_next (hz : h.next z = b) : (h.marks z).offset = b - z := by
  rw [← hz, Heap.next]
  omega

namespace Path

lemma start_mem (hp : Path R h L) : h.fsllStart ∈ L := List.mem_of_mem_head? hp.first

lemma end_mem (hp : Path R h L) : h.fsllEnd ∈ L := List.mem_of_mem_getLast? hp.last

lemma cases_mem (hp : Path R h L) (hz : z ∈ L) :
    (z = h.fsllEnd ∧ ∃ pre, L = pre ++ [z]) ∨
      z ≠ h.fsllEnd ∧ ∃ pre post, L = pre ++ z :: h.next z :: post := by
  obtain ⟨pre, post, rfl⟩ := List.append_of_mem hz
  cases post with
  | nil =>
    have hl := hp.last
    rw [List.getLast?_concat, Option.some.injEq] at hl
    exact Or.inl ⟨hl, pre, rfl⟩
  | cons b post =>
    have hb : h.next z = b := hp.linked.link
    refine Or.inr ⟨?_, pre, post, by rw [hb]⟩
    rintro rfl
    have hl : h.fsllEnd ∈ b :: post := by
      have hl := hp.last
      rw [List.getLast?_append_of_ne_nil _ (List.cons_ne_nil _ _), List.getLast?_cons_cons] at hl
      exact List.mem_of_mem_getLast? hl
    exact (nodup_split hp.nodup).2 hl

lemma next_mem (hp : Path R h L) (hz : z ∈ L) : h.next z ∈ L := by
  rcases hp.cases_mem hz with ⟨rfl, -⟩ | ⟨-, pre, post, hL⟩
  · rwa [next_of_tail hp.tail]
  · rw [hL]
    simp

lemma end_eq (hp : Path R h (pre ++ [x, y])) : y = h.fsllEnd := by
  have hl := hp.last
  rw [List.getLast?_append_of_ne_nil _ (List.cons_ne_nil _ _)] at hl
  simpa using hl

lemma after_end (hp : Path R h (pre ++ z :: post)) (hz : z = h.fsllEnd) : post = [] := by
  have hl := hp.last
  cases post with
  | nil => rfl
  | cons b post =>
    rw [List.getLast?_append_of_ne_nil _ (List.cons_ne_nil _ _), List.getLast?_cons_cons] at hl
    exact absurd (hz ▸ List.mem_of_mem_getLast? hl) (nodup_split hp.nodup).2

lemma empty_mem (hp : Path R h L) (hz : z ∈ L) (he : h.marks z = .empty) : z = h.fsllEnd := by
  rcases hp.cases_mem hz with ⟨hz', -⟩ | ⟨-, pre, post, hL⟩
  · exact hz'
  · have hself : h.next z = z := next_of_tail (by rw [he]; rfl)
    rw [hself] at hL
    have hn := hp.nodup
    rw [hL] at hn
    exact absurd (List.mem_cons_self ..) (nodup_split hn).2

lemma unique {M : List ℤ} (hp : Path R h L) (hp' : Path R h M) : L = M := by
  obtain ⟨-, pre, rfl⟩ | ⟨hne, -⟩ := hp.cases_mem hp.end_mem
  · obtain ⟨-, pre', rfl⟩ | ⟨hne, -⟩ := hp'.cases_mem hp'.end_mem
    · rw [hp.linked.unique hp'.linked (nodup_split hp.nodup).1 (nodup_split hp'.nodup).1
        (hp.first.trans hp'.first.symm)]
    · exact absurd rfl hne
  · exact absurd rfl hne

lemma congr (hp : Path R h L) (hs : t.fsllStart = h.fsllStart) (he : t.fsllEnd = h.fsllEnd)
    (ho : ∀ z ∈ L, (t.marks z).offset = (h.marks z).offset) : Path R t L := by
  refine ⟨hp.linked.congr fun z hz => ?_, hp.nodup, hs ▸ hp.first, he ▸ hp.last, ?_, hp.bounds⟩
  · rw [Heap.next, Heap.next, ho z hz]
  · rw [he, ho _ hp.end_mem]
    exact hp.tail

lemma setHalf (hp : Path R h L) (z : ℤ) (v : ℕ) : Path R (h.setHalf z v) L := by
  refine hp.congr rfl rfl fun y _ => ?_
  change (update h.marks z { h.marks z with half := uint16 v } y).offset = _
  rcases eq_or_ne y z with rfl | hne
  · rw [update_self]
  · rw [update_of_ne hne]

end Path

lemma mergeMarkers_marks : (mergeMarkers h x y d v).marks =
    update (update h.marks x ⟨uint16 v, d⟩) y .empty := by
  simp [mergeMarkers, Heap.setOffset, Heap.setHalf, Heap.clear]

lemma mergeMarkers_next (hzx : z ≠ x) (hzy : z ≠ y) :
    (mergeMarkers h x y d v).next z = h.next z := by
  rw [Heap.next, Heap.next, mergeMarkers_marks, update_of_ne hzy, update_of_ne hzx]

namespace Path

lemma merge (hp : Path R h (pre ++ x :: y :: b :: post)) :
    Path R (mergeMarkers h x y (y - x + (h.marks y).offset) v) (pre ++ x :: b :: post) := by
  have hn := hp.nodup
  have hyb : h.next y = b := by
    have hl := hp.linked
    rw [show pre ++ x :: y :: b :: post = (pre ++ [x]) ++ y :: b :: post by simp] at hl
    exact hl.link
  obtain ⟨hxy, hother⟩ := nodup_pair hn
  have hend : h.fsllEnd ∈ b :: post := by
    have hl := hp.last
    rw [List.getLast?_append_of_ne_nil _ (List.cons_ne_nil _ _), List.getLast?_cons_cons,
      List.getLast?_cons_cons] at hl
    exact List.mem_of_mem_getLast? hl
  have hlast := hother h.fsllEnd (List.mem_append_right _ hend)
  refine ⟨hp.linked.bypass (fun z hz => mergeMarkers_next (hother z hz).1 (hother z hz).2) ?_, ?_,
    ?_, ?_, ?_, ?_⟩
  · rw [Heap.next, mergeMarkers_marks, update_of_ne hxy, update_self]
    rw [offset_of_next hyb]
    dsimp only
    omega
  · refine hn.sublist ?_
    exact List.Sublist.append_left (List.Sublist.cons_cons x (List.sublist_cons_self y _)) pre
  · have hf := hp.first
    cases pre <;> exact hf
  · have hl := hp.last
    rw [List.getLast?_append_of_ne_nil _ (List.cons_ne_nil _ _)] at hl ⊢
    rw [List.getLast?_cons_cons] at hl ⊢
    rwa [List.getLast?_cons_cons] at hl
  · change ((mergeMarkers h x y _ v).marks h.fsllEnd).offset = 0
    rw [mergeMarkers_marks, update_of_ne hlast.2, update_of_ne hlast.1]
    exact hp.tail
  · intro z hz
    apply hp.bounds
    simp only [List.mem_append, List.mem_cons] at hz ⊢
    tauto

lemma merge_last (hp : Path R h (pre ++ [x, y])) :
    Path R (mergeMarkers h x y (y - x + (h.marks y).offset) v) (pre ++ [x, y]) := by
  have hend := hp.end_eq
  have htail : (h.marks y).offset = 0 := hend ▸ hp.tail
  have hlink : (h.marks x).offset = y - x := offset_of_next hp.linked.link
  refine hp.congr rfl rfl fun z hz => ?_
  rw [mergeMarkers_marks]
  rcases eq_or_ne z y with rfl | hzy
  · rw [update_self, htail]
    rfl
  · rw [update_of_ne hzy]
    rcases eq_or_ne z x with rfl | hzx
    · rw [update_self, htail, hlink, add_zero]
    · rw [update_of_ne hzx]

lemma clear_end (hp : Path R h L) : Path R (h.clear h.fsllEnd) L := by
  refine hp.congr rfl rfl fun z _ => ?_
  change (update h.marks h.fsllEnd .empty z).offset = _
  rcases eq_or_ne z h.fsllEnd with rfl | hne
  · rw [update_self, hp.tail]
    rfl
  · rw [update_of_ne hne]

lemma drop_end (hp : Path R h (pre ++ [x, y])) :
    Path R { h.setOffset x 0 with fsllEnd := x } (pre ++ [x]) := by
  obtain ⟨hxy, hother⟩ := nodup_pair hp.nodup
  have hmarks : ∀ z ∈ pre, (h.setOffset x 0).marks z = h.marks z := by
    intro z hz
    exact update_of_ne (hother z (by simpa using hz)).1 _ _
  refine ⟨hp.linked.init.congr_init fun z hz => ?_, ?_, ?_, List.getLast?_concat, ?_, fun z hz => ?_⟩
  · change z + ((h.setOffset x 0).marks z).offset = _
    rw [hmarks z hz]
    rfl
  · exact hp.nodup.sublist (List.Sublist.append_left (List.Sublist.cons_cons x (List.nil_sublist _)) pre)
  · have hf := hp.first
    cases pre <;> exact hf
  · change (update h.marks x _ x).offset = 0
    rw [update_self]
  · apply hp.bounds
    simp only [List.mem_append, List.mem_cons] at hz ⊢
    tauto

end Path

lemma appendMarker_marks (hz : z ≠ h.fsllEnd) : (appendMarker h z v).marks =
    update (update h.marks z { h.marks z with half := uint16 v }) h.fsllEnd
      { h.marks h.fsllEnd with offset := z - h.fsllEnd } := by
  simp [appendMarker, Heap.setOffset, Heap.setHalf, hz.symm]

lemma appendMarker_end : (appendMarker h h.fsllEnd v).marks =
    update h.marks h.fsllEnd ⟨uint16 v, 0⟩ := by
  simp [appendMarker, Heap.setOffset, Heap.setHalf]

def linkSplit (h : Heap) (x z : ℤ) (v : ℕ) : Heap :=
  { h with
    marks := update (update h.marks z ⟨uint16 (v + 32768), h.next x - z⟩) x
      { h.marks x with offset := z - x }
    blistSize := h.blistSize + 1 }

lemma linkSplit_marks {n : ℕ} : ((linkSplit h x z v).setHalf x n).marks =
    update (update h.marks z ⟨uint16 (v + 32768), h.next x - z⟩) x ⟨uint16 n, z - x⟩ := by
  simp [linkSplit, Heap.setHalf]

lemma splitMarker_eq (hx : -1 ≤ x ∧ x ≤ R.bstart) (hz : -1 ≤ z ∧ z ≤ R.bstart)
    (hb : -1 ≤ h.next x ∧ h.next x ≤ R.bstart) (hne : x ≠ z) :
    splitMarker h x z v = (linkSplit h x z v, 0) := by
  have hr4 : x - z + (h.marks x).offset = h.next x - z := by
    rw [Heap.next]
    omega
  have hin := in_range hb hz
  have hin' := in_range hz hx
  simp only [splitMarker, hr4, hin, hin', not_true, if_false, linkSplit, Heap.setOffset]
  rw [update_of_ne hne]

namespace Path

lemma split (hp : Path R h (pre ++ x :: y :: post)) (hz : z ∉ pre ++ x :: y :: post)
    (hb : -1 ≤ z ∧ z ≤ R.bstart) : Path R (linkSplit h x z v) (pre ++ x :: z :: y :: post) := by
  have hn := hp.nodup
  obtain ⟨hpre, hpost⟩ := nodup_split hn
  have hxz : x ≠ z := by
    rintro rfl
    simp at hz
  have hlink : h.next x = y := hp.linked.link
  have hother : ∀ w ∈ pre ++ y :: post, (linkSplit h x z v).marks w = h.marks w := by
    intro w hw
    have hwx : w ≠ x := by
      rintro rfl
      rcases List.mem_append.mp hw with hw | hw
      · exact hpre hw
      · exact hpost hw
    have hwz : w ≠ z := by
      rintro rfl
      simp only [List.mem_append, List.mem_cons] at hw hz
      tauto
    change update (update h.marks z _) x _ w = _
    rw [update_of_ne hwx, update_of_ne hwz]
  have hend : h.fsllEnd ∈ y :: post := by
    have hl := hp.last
    rw [List.getLast?_append_of_ne_nil _ (List.cons_ne_nil _ _), List.getLast?_cons_cons] at hl
    exact List.mem_of_mem_getLast? hl
  refine ⟨hp.linked.insert (fun w hw => ?_) ?_ ?_, ?_, ?_, ?_, ?_, fun w hw => ?_⟩
  · rw [Heap.next, Heap.next, hother w hw]
  · change x + (update (update h.marks z _) x _ x).offset = z
    rw [update_self]
    dsimp only
    omega
  · change z + (update (update h.marks z _) x _ z).offset = y
    rw [update_of_ne hxz.symm, update_self, hlink]
    dsimp only
    omega
  · have hperm : (pre ++ x :: z :: y :: post).Perm (z :: (pre ++ x :: y :: post)) := by
      have hmid := @List.perm_middle _ z (pre ++ [x]) (y :: post)
      simpa using hmid
    rw [hperm.nodup_iff, List.nodup_cons]
    exact ⟨hz, hn⟩
  · have hf := hp.first
    cases pre <;> exact hf
  · have hl := hp.last
    rw [List.getLast?_append_of_ne_nil _ (List.cons_ne_nil _ _)] at hl ⊢
    rw [List.getLast?_cons_cons] at hl ⊢
    rwa [List.getLast?_cons_cons]
  · change ((linkSplit h x z v).marks h.fsllEnd).offset = 0
    rw [hother _ (List.mem_append_right _ hend)]
    exact hp.tail
  · rcases eq_or_ne w z with rfl | hwz
    · exact hb
    · apply hp.bounds
      simp only [List.mem_append, List.mem_cons] at hw ⊢
      tauto

lemma split_end (hp : Path R h (pre ++ [x, z])) : Path R (linkSplit h x z v) (pre ++ [x, z]) := by
  have hend := hp.end_eq
  have hxz := (nodup_pair hp.nodup).1
  have hlink : h.next x = z := hp.linked.link
  refine hp.congr rfl rfl fun w _ => ?_
  change (update (update h.marks z _) x _ w).offset = _
  rcases eq_or_ne w x with rfl | hwx
  · rw [update_self, offset_of_next hlink]
  · rw [update_of_ne hwx]
    rcases eq_or_ne w z with rfl | hwz
    · rw [update_self, hlink, hend, hp.tail]
      exact sub_self _
    · rw [update_of_ne hwz]

lemma append (hp : Path R h L) (hz : z ∉ L) (he : h.marks z = .empty)
    (hb : -1 ≤ z ∧ z ≤ R.bstart) : Path R (appendMarker h z v) (L ++ [z]) := by
  have hze : z ≠ h.fsllEnd := fun heq => hz (heq ▸ hp.end_mem)
  obtain ⟨-, pre, rfl⟩ | ⟨hne, -⟩ := hp.cases_mem hp.end_mem
  · have hn := hp.nodup
    have hpre := (nodup_split hn).1
    have hmarks : ∀ w ∈ pre, (appendMarker h z v).marks w = h.marks w := by
      intro w hw
      have hwz : w ≠ z := by
        rintro rfl
        exact hz (List.mem_append_left _ hw)
      have hwe : w ≠ h.fsllEnd := fun heq => hpre (heq ▸ hw)
      rw [appendMarker_marks hze, update_of_ne hwe, update_of_ne hwz]
    rw [List.append_assoc, List.singleton_append]
    refine ⟨hp.linked.snoc (fun w hw => ?_) ?_, ?_, ?_, ?_, ?_, fun w hw => ?_⟩
    · rw [Heap.next, Heap.next, hmarks w hw]
    · rw [Heap.next, appendMarker_marks hze, update_self]
      dsimp only
      omega
    · rw [← List.singleton_append, ← List.append_assoc]
      exact List.nodup_append.mpr ⟨hn, List.nodup_singleton z, by
        rintro w hw _ hwz rfl
        rw [List.mem_singleton] at hwz
        exact hz (hwz ▸ hw)⟩
    · have hf := hp.first
      cases pre <;> exact hf
    · rw [List.getLast?_append_of_ne_nil _ (List.cons_ne_nil _ _)]
      rfl
    · change ((appendMarker h z v).marks z).offset = 0
      rw [appendMarker_marks hze, update_of_ne hze, update_self, he]
      rfl
    · rcases eq_or_ne w z with rfl | hwz
      · exact hb
      · apply hp.bounds
        simp only [List.mem_append, List.mem_cons] at hw ⊢
        tauto
  · exact absurd rfl hne

lemma refill (hp : Path R h L) : Path R (appendMarker h h.fsllEnd v) L := by
  refine hp.congr rfl rfl fun z _ => ?_
  rw [appendMarker_end]
  rcases eq_or_ne z h.fsllEnd with rfl | hne
  · rw [update_self, hp.tail]
  · rw [update_of_ne hne]

end Path

end Skibios.Allocator.Paths

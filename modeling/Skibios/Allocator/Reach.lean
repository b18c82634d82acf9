import Skibios.Allocator.Overlap
import Skibios.Library.Orbits

/-! What the services write into the bookkeeping region, whatever the links between its words. -/

namespace Skibios.Allocator.Reach

open Function Library.Words Library.Loops Library.Orbits
open Markers Paths Walks Outcomes Pools Layouts Overlap

/-- The words that `heap_init` leaves empty: only there can a marker be. -/
def spareWords (R : Region) (words : ℤ → Marker) : Finset ℤ :=
  ((Finset.range (R.words + 1)).image fun i : ℕ => (i : ℤ) - 1).filter fun z =>
    (heapInit R words).marks z = .empty

structure Closed (S : Finset ℤ) (h : Heap) : Prop where
  start : h.fsllStart ∈ S
  next : ∀ z ∈ S, h.next z ∈ S

structure Enclosed (R : Region) (D : Finset ℤ) (h : Heap) : Prop extends Closed D h where
  last : h.fsllEnd ∈ D
  bounds : ∀ z ∈ D, -1 ≤ z ∧ z ≤ R.bstart
  words : ∀ z, -1 ≤ z → z ≤ R.bstart → h.marks z = .empty → z ∈ D

variable {R : Region} {D S : Finset ℤ} {h t u : Heap} {m m' : ℤ → Marker} {words : ℤ → Marker}
  {a j k n p r3 : ℕ} {d q x y z : ℤ}

lemma mem_spareWords : z ∈ spareWords R words ↔
    (-1 ≤ z ∧ z ≤ R.bstart) ∧ (heapInit R words).marks z = .empty := by
  rw [spareWords, Finset.mem_filter, Finset.mem_image, Region.bstart]
  refine and_congr_left' ⟨?_, fun ⟨hl, hu⟩ => ⟨(z + 1).toNat, ?_, by omega⟩⟩
  · rintro ⟨i, hi, rfl⟩
    rw [Finset.mem_range] at hi
    omega
  · rw [Finset.mem_range]
    omega

lemma initial_enclosed (R : Region) (words : ℤ → Marker) :
    Enclosed R (spareWords R words) (heapInit R words) := by
  have hpos := R.kilobytes_pos
  have hempty : (heapInit R words).marks R.bstart = .empty := by
    apply if_pos
    unfold Region.bstart Region.words
    omega
  have hmem : R.bstart ∈ spareWords R words := by
    refine mem_spareWords.mpr ⟨⟨?_, le_rfl⟩, hempty⟩
    unfold Region.bstart Region.words
    omega
  refine ⟨⟨hmem, fun z hz => ?_⟩, hmem, fun z hz => ?_, fun z hl hu hz => ?_⟩
  · have hz' := (mem_spareWords.mp hz).2
    rwa [next_of_tail (by rw [hz']; rfl)]
  · exact (mem_spareWords.mp hz).1
  · exact mem_spareWords.mpr ⟨⟨hl, hu⟩, hz⟩

lemma Closed.position (hC : Closed S h) (j : ℕ) : position h j ∈ S :=
  iterate_keeps (p := fun z => z ∈ S) hC.start hC.next j

namespace Enclosed

lemma lowest (hE : Enclosed R D h) (hz : Lowest R h z) : z ∈ D :=
  hE.words z hz.ge hz.lt.le hz.empty

lemma vacant (hE : Enclosed R D h) (hz : Vacant R h z) : z ∈ D := hE.words z hz.ge hz.le hz.empty

lemma rewire (hE : Enclosed R D h) (hC : Closed D t) (hlast : t.fsllEnd ∈ D)
    (hmarks : ∀ z, z ∉ D → t.marks z = h.marks z) : Enclosed R D t := by
  refine ⟨hC, hlast, hE.bounds, fun z hl hu hz => ?_⟩
  by_contra hmem
  exact hmem (hE.words z hl hu (hmarks z hmem ▸ hz))

end Enclosed

section Allocation

inductive Obtained (R : Region) (h : Heap) (n : ℕ) : ℕ → Heap → Prop
  | whole {j : ℕ} (hc : Chosen h n j)
      (hz : (h.marks (position h j)).size = n ∨ ¬ ∃ z, Lowest R h z) : Obtained R h n
        (addressAt R h j) (h.setHalf (position h j) (h.marks (position h j)).size)
  | split {j : ℕ} {z : ℤ} (hc : Chosen h n j) (hn : (h.marks (position h j)).size ≠ n)
      (hz : Lowest R h z) : Obtained R h n (addressAt R h j) (cut h (position h j) z n)
  | full (hnone : ∀ j < h.blistSize, ¬ Fits h n (position h j)) : Obtained R h n 0 h
  | appended {z : ℤ} {j : ℕ} (hnone : ∀ j < h.blistSize, ¬ Fits h n (position h j))
      (hz : Vacant R h z) (hs : Spare R h) (hj : position (appendMarker h z n) j = z)
      (hfirst : ∀ i < j, position (appendMarker h z n) i ≠ z) :
      Obtained R h n (addressAt R (appendMarker h z n) j)
        { appendMarker h z n with blistSize := (appendMarker h z n).blistSize + 1 }

lemma added_obtained (hnone : ∀ j < h.blistSize, ¬ Fits h n (position h j))
    (ha : addNewAllocatedMarker R k h n = some (p, t)) : Obtained R h n p t := by
  obtain ⟨-, rfl, rfl⟩ | ⟨z, hr, hw, rfl⟩ := add_cases ha
  · exact .full hnone
  · obtain ⟨j, hj, rfl, hfirst⟩ := walk_some hw
    exact .appended hnone (add_some hr) (add_spare hr) hj hfirst

lemma searched_obtained (hs : searchFreeMarker R k h n = some (p, t)) :
    0 < p ∧ Obtained R h n p t ∨ p = 0 ∧ t = h ∧ ∀ j < h.blistSize, ¬ Fits h n (position h j) := by
  obtain hnone | ⟨j, hc, rfl, ⟨hz, rfl⟩ | ⟨hn, z, hz, rfl⟩⟩ := search_cases hs
  · exact Or.inr hnone
  · exact Or.inl ⟨address_pos R h j, .whole hc hz⟩
  · exact Or.inl ⟨address_pos R h j, .split hc hn hz⟩

lemma found_cases (hf : findMarker R k h n = some (p, t)) :
    0 < p ∧ searchFreeMarker R k h n = some (p, t) ∨
      (∀ j < h.blistSize, ¬ Fits h n (position h j)) ∧ addNewAllocatedMarker R k h n = some (p, t) := by
  unfold findMarker at hf
  split_ifs at hf with hb
  · exact Or.inr ⟨fun j hj => by omega, hf⟩
  · obtain ⟨⟨q, u⟩, hs, ha⟩ := Option.bind_eq_some_iff.mp hf
    dsimp only at ha
    obtain ⟨hpos, -⟩ | ⟨rfl, rfl, hnone⟩ := searched_obtained hs
    · rw [if_neg hpos.ne'] at ha
      obtain ⟨rfl, rfl⟩ := Prod.mk.inj (Option.some.inj ha)
      exact Or.inl ⟨hpos, hs⟩
    · rw [if_pos rfl] at ha
      exact Or.inr ⟨hnone, ha⟩

lemma found_obtained (hf : findMarker R k h n = some (p, t)) : Obtained R h n p t := by
  obtain ⟨hpos, hs⟩ | ⟨hnone, ha⟩ := found_cases hf
  · obtain ⟨-, ho⟩ | ⟨rfl, -⟩ := searched_obtained hs
    · exact ho
    · exact absurd hpos (lt_irrefl 0)
  · exact added_obtained hnone ha

def charge (u : Heap) (p n : ℕ) : Heap :=
  if p = 0 then u else { u with heapRemaining := sub32 u.heapRemaining n }

lemma heapAllocate_found {size : ℕ} (hc : heapAllocate R k h size = some (p, t)) :
    (p = 0 ∧ t = h ∧ ¬ Accepted h size) ∨ Accepted h size ∧
      ∃ u, findMarker R k h (wordAlign size) = some (p, u) ∧ t = charge u p (wordAlign size) := by
  unfold heapAllocate at hc
  split_ifs at hc with hbig hroom
  · obtain ⟨rfl, rfl⟩ := Prod.mk.inj (Option.some.inj hc)
    exact Or.inl ⟨rfl, rfl, fun hacc => absurd hacc.1 (not_le.mpr hbig)⟩
  · obtain ⟨rfl, rfl⟩ := Prod.mk.inj (Option.some.inj hc)
    exact Or.inl ⟨rfl, rfl, fun hacc => absurd hacc.2 (not_le.mpr hroom)⟩
  · obtain ⟨⟨q, u⟩, hf, hc⟩ := Option.map_eq_some_iff.mp hc
    obtain ⟨rfl, rfl⟩ := Prod.mk.inj hc
    exact Or.inr ⟨⟨not_lt.mp hbig, not_lt.mp hroom⟩, u, hf, rfl⟩

lemma heapAllocate_obtained {size : ℕ} (hc : heapAllocate R k h size = some (p, t)) :
    (p = 0 ∧ t = h ∧ ¬ Accepted h size) ∨ Accepted h size ∧
      ∃ u, Obtained R h (wordAlign size) p u ∧ t = charge u p (wordAlign size) := by
  refine (heapAllocate_found hc).imp_right fun ⟨hacc, u, hf, ht⟩ => ?_
  exact ⟨hacc, u, found_obtained hf, ht⟩

lemma next_eq (z : ℤ) : h.next z = z + (h.marks z).offset := rfl

lemma next_update {v : Marker} (ht : t.marks = update m x v) : t.next x = x + v.offset := by
  rw [next_eq, ht, update_self]

lemma next_update_of_ne {v : Marker} (ht : t.marks = update h.marks x v) (hz : z ≠ x) :
    t.next z = h.next z := by
  rw [next_eq, ht, update_of_ne hz]
  rfl

lemma setHalf_next (x : ℤ) (n : ℕ) (z : ℤ) : (h.setHalf x n).next z = h.next z := by
  rcases eq_or_ne z x with rfl | hne
  · change z + (update h.marks z { h.marks z with half := uint16 n } z).offset = h.next z
    rw [update_self]
    rfl
  · exact next_update_of_ne rfl hne

lemma fits_ne (hf : Fits h n x) (hz : h.marks z = .empty) : x ≠ z := by
  rintro rfl
  have hfree := hf.1
  rw [hz] at hfree
  exact absurd hfree (by decide)

section Cut

variable (hE : Enclosed R D h) (hx : x ∈ D) (hf : Fits h n x) (hz : Lowest R h z)
include hE hx hf hz

lemma cut_link : cut h x z n = (linkSplit h x z ((h.marks x).size - n)).setHalf x n := by
  rw [cut, splitMarker_eq (hE.bounds x hx) (hE.bounds z (hE.lowest hz)) (hE.bounds _ (hE.next x hx))
    (fits_ne hf hz.empty), zero_add]

lemma cut_marks : (cut h x z n).marks = update (update h.marks z
    ⟨uint16 ((h.marks x).size - n + 32768), h.next x - z⟩) x ⟨uint16 n, z - x⟩ := by
  rw [cut_link hE hx hf hz]
  exact linkSplit_marks

lemma cut_next : (cut h x z n).next x = z ∧ (cut h x z n).next z = h.next x ∧
    ∀ w, w ≠ x → w ≠ z → (cut h x z n).next w = h.next w := by
  have hmarks := cut_marks hE hx hf hz
  have hne := fits_ne hf hz.empty
  refine ⟨?_, ?_, fun w hwx hwz => ?_⟩
  · rw [next_update hmarks]
    dsimp only
    omega
  · rw [next_eq, hmarks, update_of_ne hne.symm, update_self]
    dsimp only
    omega
  · rw [next_eq, hmarks, update_of_ne hwx, update_of_ne hwz]
    rfl

end Cut

lemma append_next : (appendMarker h z n).next h.fsllEnd = z ∧
    ∀ w, w ≠ h.fsllEnd → (appendMarker h z n).next w = h.next w := by
  constructor
  · have hmarks : (appendMarker h z n).marks = update (h.setHalf z n).marks h.fsllEnd
        { (h.setHalf z n).marks h.fsllEnd with offset := z - h.fsllEnd } := rfl
    rw [next_update hmarks]
    dsimp only
    omega
  · intro w hw
    exact (next_update_of_ne (h := h.setHalf z n) rfl hw).trans (setHalf_next z n w)

lemma append_frame {w : ℤ} (hw : w ≠ h.fsllEnd) (hwz : w ≠ z) :
    (appendMarker h z n).marks w = h.marks w := by
  change update (update h.marks z _) h.fsllEnd _ w = h.marks w
  rw [update_of_ne hw, update_of_ne hwz]

lemma Enclosed.append (hE : Enclosed R D h) (hz : Vacant R h z) :
    Enclosed R D (appendMarker h z n) := by
  have hzD := hE.vacant hz
  obtain ⟨hlast, hother⟩ := append_next (h := h) (z := z) (n := n)
  refine hE.rewire ⟨hE.start, fun w hw => ?_⟩ hzD fun w hw => ?_
  · by_cases hwe : w = h.fsllEnd
    · rwa [hwe, hlast]
    · rw [hother w hwe]
      exact hE.next w hw
  · exact append_frame (ne_of_mem_of_not_mem hE.last hw).symm (ne_of_mem_of_not_mem hzD hw).symm

lemma Obtained.enclosed (ho : Obtained R h n p t) (hE : Enclosed R D h) : Enclosed R D t := by
  cases ho with
  | @whole j hc hz =>
    refine hE.rewire ⟨hE.start, fun z hz => ?_⟩ hE.last fun z hz => ?_
    · rw [setHalf_next]
      exact hE.next z hz
    · exact update_of_ne (ne_of_mem_of_not_mem (hE.position j) hz).symm _ _
  | @split j z hc hn hz =>
    have hx := hE.position j
    have hzD := hE.lowest hz
    obtain ⟨hnx, hnz, hnw⟩ := cut_next hE hx hc.fits hz
    have hlink := cut_link hE hx hc.fits hz
    refine hE.rewire ⟨?_, fun w hw => ?_⟩ ?_ fun w hw => ?_
    · rw [hlink]
      exact hE.start
    · by_cases hwx : w = position h j
      · rwa [hwx, hnx]
      · by_cases hwz : w = z
        · rw [hwz, hnz]
          exact hE.next _ hx
        · rw [hnw w hwx hwz]
          exact hE.next w hw
    · rw [hlink]
      exact hE.last
    · rw [cut_marks hE hx hc.fits hz, update_of_ne (ne_of_mem_of_not_mem hx hw).symm,
        update_of_ne (ne_of_mem_of_not_mem hzD hw).symm]
  | full => exact hE
  | appended hnone hz =>
    have happ := hE.append (n := n) hz
    exact ⟨⟨happ.start, happ.next⟩, happ.last, happ.bounds, happ.words⟩

lemma Enclosed.charge (hE : Enclosed R D h) (p n : ℕ) : Enclosed R D (charge h p n) := by
  unfold Reach.charge
  split_ifs
  · exact hE
  · exact ⟨⟨hE.start, hE.next⟩, hE.last, hE.bounds, hE.words⟩

end Allocation

section Release

inductive Freed (h : Heap) (x : ℤ) : (ℤ → Marker) → ℕ → Prop
  | last (h0 : (h.marks x).offset = 0) :
      Freed h x (update h.marks x .empty) ((h.marks x).size + 32768)
  | alone (h0 : (h.marks x).offset ≠ 0) (hy : (h.marks (h.next x)).free = false ∨
        32767 ≤ (h.marks x).size + (h.marks (h.next x)).size) :
      Freed h x (update h.marks x ⟨uint16 ((h.marks x).size + 32768), (h.marks x).offset⟩)
        ((h.marks x).size + freeSize h (h.next x) + 32768)
  | merged (h0 : (h.marks x).offset ≠ 0) (hy : (h.marks (h.next x)).free = true)
      (hs : (h.marks x).size + (h.marks (h.next x)).size < 32767) :
      Freed h x (update (update h.marks x
          ⟨uint16 ((h.marks x).size + (h.marks (h.next x)).size + 32768), h.next (h.next x) - x⟩)
        (h.next x) .empty) ((h.marks x).size + (h.marks (h.next x)).size + 32768)

inductive Merged (m : ℤ → Marker) (r3 : ℕ) (x q : ℤ) : (ℤ → Marker) → Prop
  | dropped (hx : m x = .empty) : Merged m r3 x q (update m q { m q with offset := 0 })
  | apart (hx : m x ≠ .empty) (hq : (m q).free = false) : Merged m r3 x q m
  | merged (hx : m x ≠ .empty) (hq : (m q).free = true) : Merged m r3 x q
      (update (update m q ⟨uint16 (r3 + (m q).size), x - q + (m x).offset⟩) x .empty)

def giveBack (h : Heap) (x : ℤ) (m : ℤ → Marker) (e : ℤ) (k : ℕ) : Heap :=
  { h with
    marks := m
    fsllEnd := e
    blistSize := k
    heapRemaining := uint32 (h.heapRemaining + (h.marks x).size) }

inductive Unlinked (R : Region) (h : Heap) (a : ℕ) : Heap → Prop
  | missing (hnone : ∀ j, ¬ Located R h a j) : Unlinked R h a h
  | first {j k r3 : ℕ} {m : ℤ → Marker} (hl : Located R h a j) (hf : Freed h (position h j) m r3)
      (h0 : position h j = h.fsllStart) :
      Unlinked R h a (giveBack h (position h j) m h.fsllEnd k)
  | joined {j k r3 : ℕ} {q d : ℤ} {m m' : ℤ → Marker} (hl : Located R h a j)
      (hf : Freed h (position h j) m r3) (hq : Precedes h q (position h j))
      (hkept : m q = h.marks q) (hm : Merged m r3 (position h j) q m')
      (hd : d = h.fsllEnd ∨ d = q) : Unlinked R h a (giveBack h (position h j) m' d k)

lemma next_ne (h0 : (h.marks x).offset ≠ 0) : h.next x ≠ x := by
  unfold Heap.next
  omega

lemma freeMarker_heap : (freeMarker h x).heap = giveBack h x
    (update h.marks x ⟨uint16 ((h.marks x).size + 32768), (h.marks x).offset⟩) h.fsllEnd
      h.blistSize := rfl

lemma mergeMarkers_eq : mergeMarkers h x y d n =
    { h with marks := update (update h.marks x ⟨uint16 n, d⟩) y .empty } := by
  rw [← mergeMarkers_marks]
  rfl

lemma freed (hE : Enclosed R D h) (hx : x ∈ D) : ∃ m r3 k, Freed h x m r3 ∧
    joinNext (freeMarker h x) x = ⟨giveBack h x m h.fsllEnd h.blistSize, r3, k⟩ := by
  have hoffset : ((freeMarker h x).heap.marks x).offset = (h.marks x).offset := by
    rw [freeMarker_heap]
    dsimp only [giveBack]
    rw [update_self]
  unfold joinNext
  dsimp only
  rw [hoffset]
  by_cases h0 : (h.marks x).offset = 0
  · refine ⟨_, _, h.blistSize - 1, .last h0, ?_⟩
    rw [if_pos h0, freeMarker_heap]
    dsimp only [giveBack, Heap.clear, freeMarker]
    rw [update_idem]
  have hne : h.next x ≠ x := next_ne h0
  have hnext : x + (h.marks x).offset = h.next x := rfl
  have hy : (freeMarker h x).heap.marks (h.next x) = h.marks (h.next x) := freeMarker_of_ne hne
  have hin : InRange (h.next x - x + (h.marks (h.next x)).offset) := by
    have hrange := in_range (hE.bounds _ (hE.next _ (hE.next x hx))) (hE.bounds x hx)
    rw [next_eq (h.next x)] at hrange
    rwa [show h.next x - x + (h.marks (h.next x)).offset =
      h.next x + (h.marks (h.next x)).offset - x by omega]
  rw [if_neg h0, hnext, hy]
  split_ifs with hfree hsize
  · refine ⟨_, _, h.blistSize, .alone h0 (Or.inl hfree), ?_⟩
    rw [freeSize, if_neg (by simp [hfree])]
    rfl
  · have hfree : (h.marks (h.next x)).free = true := by simpa using hfree
    have hsize : 0xFFFF ≤ (h.marks x).size + 32768 + (h.marks (h.next x)).size := hsize
    refine ⟨_, _, h.blistSize, .alone h0 (Or.inr (by omega)), ?_⟩
    rw [freeSize, if_pos hfree, Nat.add_right_comm]
    rfl
  · have hfree : (h.marks (h.next x)).free = true := by simpa using hfree
    have hsize : ¬ 0xFFFF ≤ (h.marks x).size + 32768 + (h.marks (h.next x)).size := hsize
    have hlink : h.next x - x + (h.marks (h.next x)).offset = h.next (h.next x) - x := by
      rw [next_eq (h.next x)]
      omega
    refine ⟨_, _, h.blistSize - 1, .merged h0 hfree (by omega), ?_⟩
    rw [mergeMarkers_eq, hlink, freeMarker_heap, Nat.add_right_comm]
    dsimp only [giveBack, freeMarker]
    rw [update_idem, Nat.add_right_comm]

lemma Freed.register (hf : Freed h x m r3) : m x = .empty ∧ (h.marks x).offset = 0 ∨
    (h.marks x).offset ≠ 0 ∧ (m x).free = true ∧
      r3 = (h.marks x).size + freeSize h (h.next x) + 32768 := by
  have hlt := size_lt (h.marks x)
  cases hf with
  | last h0 => exact Or.inl ⟨update_self .., h0⟩
  | alone h0 =>
    refine Or.inr ⟨h0, ?_, rfl⟩
    rw [update_self]
    exact (Prod.mk.inj (block_free hlt)).2
  | merged h0 hy hs =>
    refine Or.inr ⟨h0, ?_, by rw [freeSize, if_pos hy]⟩
    rw [update_of_ne (next_ne h0).symm, update_self]
    exact (Prod.mk.inj (block_free (by omega))).2

structure Shortened (h t : Heap) : Prop where
  start : t.fsllStart = h.fsllStart
  link : ∀ z, t.next z = h.next z ∨ t.next z = z ∨ t.next z = h.next (h.next z)

lemma Shortened.closed (hs : Shortened h t) (hC : Closed S h) : Closed S t := by
  refine ⟨hs.start ▸ hC.start, fun z hz => ?_⟩
  obtain he | he | he := hs.link z <;> rw [he]
  · exact hC.next z hz
  · exact hz
  · exact hC.next _ (hC.next z hz)

lemma Freed.next (hf : Freed h x m r3) (ht : t.marks = m) (hz : z ≠ x) :
    t.next z = h.next z ∨ t.next z = z ∧ z = h.next x := by
  cases hf with
  | last | alone => exact Or.inl (next_update_of_ne ht hz)
  | merged =>
    rcases eq_or_ne z (h.next x) with rfl | hne
    · exact Or.inr ⟨(next_update ht).trans (add_zero _), rfl⟩
    · left
      rw [next_eq, ht, update_of_ne hne, update_of_ne hz]
      rfl

lemma Freed.next_self (hf : Freed h x m r3) (ht : t.marks = m) :
    t.next x = h.next x ∨ t.next x = x ∨ t.next x = h.next (h.next x) := by
  cases hf with
  | last => exact Or.inr (Or.inl ((next_update ht).trans (add_zero _)))
  | alone =>
    left
    rw [next_update ht, next_eq]
  | merged h0 =>
    right
    right
    rw [next_eq, ht, update_of_ne (next_ne h0).symm, update_self]
    dsimp only
    omega

lemma Freed.shortened (hf : Freed h x m r3) (ht : t.marks = m) (hs : t.fsllStart = h.fsllStart) :
    Shortened h t := by
  refine ⟨hs, fun z => ?_⟩
  rcases eq_or_ne z x with rfl | hne
  · exact hf.next_self ht
  · rcases hf.next ht hne with he | ⟨he, -⟩
    · exact Or.inl he
    · exact Or.inr (Or.inl he)

lemma Freed.precedes (hf : Freed h x m r3) (ht : t.marks = m) (hs : t.fsllStart = h.fsllStart)
    (hq : Precedes t q x) : Precedes h q x ∧ m q = h.marks q := by
  obtain ⟨i, rfl, hx, hfirst⟩ := hq
  have hsame : ∀ k ≤ i + 1, position t k = position h k := by
    intro k hk
    have hway : position h k = h.next^[k] t.fsllStart := by rw [position, hs]
    rw [hway]
    refine agree_of_stuck (g := t.next) (n := i + 1) (fun z hz => ?_) hx (fun k hk => ?_) hk
    · exact (hf.next ht hz).imp_right And.left
    · exact hfirst k (by omega)
  have hne : position t i ≠ x := hfirst i le_rfl
  refine ⟨⟨i, (hsame i (by omega)).symm, (hsame _ le_rfl).symm.trans hx, fun k hk => ?_⟩, ?_⟩
  · rw [← hsame k (by omega)]
    exact hfirst k hk
  · rw [position_succ] at hx
    have hkept : t.next (position t i) ≠ position t i := fun he => hne (he.symm.trans hx)
    generalize position t i = q at *
    cases hf with
    | last | alone => exact update_of_ne hne _ _
    | merged =>
      have hqy : q ≠ h.next x := by
        rintro rfl
        exact hkept ((next_update ht).trans (add_zero _))
      rw [update_of_ne hqy, update_of_ne hne]

lemma Merged.shortened (hm : Merged u.marks r3 x q m') (hq : u.next q = x) (ht : t.marks = m')
    (hs : t.fsllStart = u.fsllStart) : Shortened u t := by
  refine ⟨hs, fun z => ?_⟩
  cases hm with
  | dropped =>
    rcases eq_or_ne z q with rfl | hne
    · exact Or.inr (Or.inl ((next_update ht).trans (add_zero _)))
    · exact Or.inl (next_update_of_ne ht hne)
  | apart =>
    left
    rw [next_eq, ht]
    rfl
  | merged =>
    rcases eq_or_ne z x with rfl | hne
    · exact Or.inr (Or.inl ((next_update ht).trans (add_zero _)))
    · rcases eq_or_ne z q with rfl | hzq
      · right
        right
        rw [next_eq, ht, update_of_ne hne, update_self, hq, next_eq x]
        dsimp only
        omega
      · left
        rw [next_eq, ht, update_of_ne hne, update_of_ne hzq]
        rfl

lemma joinPred_merged {c : Registers} (hin : InRange (c.heap.next x - q)) : ∃ m d k,
    Merged c.heap.marks c.r3 x q m ∧ (d = c.heap.fsllEnd ∨ d = q) ∧ settle (joinPred c x q) =
      { c.heap with
        marks := m
        fsllEnd := d
        blistSize := k } := by
  have hlink : x - q + (c.heap.marks x).offset = c.heap.next x - q := by
    rw [next_eq]
    omega
  unfold joinPred
  dsimp only
  rw [hlink]
  split_ifs with hempty hfree
  · exact ⟨_, q, c.r6, .dropped hempty, Or.inr rfl, rfl⟩
  · exact ⟨_, _, c.r6, .apart hempty hfree, Or.inl rfl, rfl⟩
  · refine ⟨_, _, c.r6 - 1, .merged hempty (by simpa using hfree), Or.inl rfl, ?_⟩
    rw [hlink, mergeMarkers_eq]
    rfl

lemma released_unlinked (hE : Enclosed R D h) (hb : h.blistSize ≠ 0)
    (hr : releaseAllocatedMarker R k h a = some (p, t)) : Unlinked R h a t := by
  obtain ⟨r, hf, hr⟩ := Option.bind_eq_some_iff.mp hr
  cases r with
  | none =>
    obtain ⟨rfl, rfl⟩ := Prod.mk.inj (Option.some.inj hr)
    exact .missing (find_none hb hf)
  | some z =>
    obtain ⟨j, hl, rfl⟩ := find_some hb hf
    have hx := hE.position j
    obtain ⟨m, r3, l, hm, hjoin⟩ := freed hE hx
    dsimp only at hr
    rw [hjoin] at hr
    split_ifs at hr with h0
    · obtain ⟨rfl, rfl⟩ := Prod.mk.inj (Option.some.inj hr)
      exact .first hl hm h0.symm
    · obtain ⟨q, hw, hr⟩ := Option.map_eq_some_iff.mp hr
      generalize hu : giveBack h (position h j) m h.fsllEnd h.blistSize = u at *
      have hmarks : u.marks = m := hu ▸ rfl
      have hstart : u.fsllStart = h.fsllStart := hu ▸ rfl
      have hC := (hm.shortened hmarks hstart).closed hE.toClosed
      have hq : Precedes u q (position h j) := pred_some h0 hw
      obtain ⟨hq', hkept⟩ := hm.precedes hmarks hstart hq
      have hqD : q ∈ D := by
        obtain ⟨i, rfl, -⟩ := hq
        exact hC.position i
      obtain ⟨m', d, k', hm', hd, hsettle⟩ := joinPred_merged (c := ⟨u, r3, l⟩)
        (in_range (hE.bounds _ (hC.next _ hx)) (hE.bounds q hqD))
      obtain ⟨-, rfl⟩ := Prod.mk.inj hr
      subst hu
      change Unlinked R h a (settle (joinPred _ _ _))
      rw [hsettle]
      exact .joined hl hm hq' hkept hm' hd

lemma precedes_mem (hq : Precedes h q x) (hC : Closed S h) : q ∈ S := by
  obtain ⟨i, rfl, -⟩ := hq
  exact hC.position i

lemma Unlinked.closed (ho : Unlinked R h a t) (hC : Closed S h) : Closed S t := by
  cases ho with
  | missing => exact hC
  | @first j k r3 m _ hf =>
    exact (hf.shortened (t := giveBack h (position h j) m h.fsllEnd k) rfl rfl).closed hC
  | @joined j k r3 q d m m' _ hf hq hkept hm =>
    have hlink : (giveBack h (position h j) m d k).next q = position h j := by
      rw [← hq.next, next_eq, next_eq, ← hkept]
      rfl
    have hjoined := (hf.shortened (t := giveBack h (position h j) m d k) rfl rfl).closed hC
    have hmerged : Shortened (giveBack h (position h j) m d k) (giveBack h (position h j) m' d k) :=
      Merged.shortened hm hlink rfl rfl
    exact hmerged.closed hjoined

lemma Freed.frame (hf : Freed h x m r3) (hz : z ≠ x) (hz' : z ≠ h.next x) : m z = h.marks z := by
  cases hf with
  | last | alone => exact update_of_ne hz _ _
  | merged => rw [update_of_ne hz', update_of_ne hz]

lemma Merged.frame (hm : Merged m r3 x q m') (hz : z ≠ x) (hz' : z ≠ q) : m' z = m z := by
  cases hm with
  | dropped => exact update_of_ne hz' _ _
  | apart => rfl
  | merged => rw [update_of_ne hz, update_of_ne hz']

lemma Unlinked.enclosed (ho : Unlinked R h a t) (hE : Enclosed R D h) : Enclosed R D t := by
  have hC := ho.closed hE.toClosed
  cases ho with
  | missing => exact hE
  | @first j k r3 m _ hf =>
    have hx := hE.position j
    refine hE.rewire hC hE.last fun z hz => ?_
    exact hf.frame (ne_of_mem_of_not_mem hx hz).symm (ne_of_mem_of_not_mem (hE.next _ hx) hz).symm
  | @joined j k r3 q d m m' _ hf hq hkept hm hd =>
    have hx := hE.position j
    have hqD := precedes_mem hq hE.toClosed
    refine hE.rewire hC ?_ fun z hz => ?_
    · obtain rfl | rfl := hd
      · exact hE.last
      · exact hqD
    · have hzx := (ne_of_mem_of_not_mem hx hz).symm
      have hzy := (ne_of_mem_of_not_mem (hE.next _ hx) hz).symm
      exact (hm.frame hzx (ne_of_mem_of_not_mem hqD hz).symm).trans (hf.frame hzx hzy)

end Release

end Skibios.Allocator.Reach

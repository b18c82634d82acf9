import Skibios.Allocator.Reach

/-! Releases of arbitrary addresses: only the start of a live block is accepted, as long as the
marker that is found is no free one. -/

namespace Skibios.Allocator.Rejections

open Function Library.Words Library.Loops Library.Segments Library.Runs
open Markers Paths Walks Outcomes Pools Layouts Overlap Reach

inductive Call (R : Region) : Pool → Request → Pool → Prop
  | allocated {h t : Heap} {live : List (ℕ × ℕ)} {size fuel p : ℕ}
      (hc : heapAllocate R fuel h size = some (p, t)) :
      Call R ⟨h, live⟩ (.allocate size) ⟨t, handOut live p (wordAlign size)⟩
  | released {h t : Heap} {live : List (ℕ × ℕ)} {fuel a status : ℕ}
      (hc : svcServiceGheapRelease R fuel h a = some (status, t)) :
      Call R ⟨h, live⟩ (.release a) ⟨t, live.filter fun b => b.1 ≠ a⟩

def Starts (c : Pool) (a : ℕ) : Prop := ∃ n, (a, n) ∈ c.live

/-- The release of `a` comes back, without an error for the start of a live block, and else with an
error and without an effect. -/
def Answers (R : Region) (c : Pool) (a : ℕ) : Prop :=
  ∃ k r t, (∀ fuel, k ≤ fuel → svcServiceGheapRelease R fuel c.heap a = some (r, t)) ∧
    (Starts c a → r = errorNone) ∧
    (¬ Starts c a → (r = errorEmptyHeap ∨ r = errorWrongHeapPointer) ∧ t = c.heap)

def FindsHeld (R : Region) (h : Heap) (a : ℕ) : Prop :=
  ∀ j, Located R h a j → (h.marks (position h j)).free = false

/-- A request is not rounded up to nothing, no split leaves a cycle, and a marker is appended to an
empty last word only by taking that word. A release finds no free marker, and no merged size
overflows. -/
def Careful (R : Region) (c : Pool) : Request → Prop
  | .allocate size => Accepted c.heap size → 0 < wordAlign size ∧
      SplitSafe R c.heap (wordAlign size) ∧
      (c.heap.marks c.heap.fsllEnd = .empty →
        (∀ j < c.heap.blistSize, ¬ Fits c.heap (wordAlign size) (position c.heap j)) →
        ∀ z, c.heap.fsllEnd < z → z ≤ R.bstart → c.heap.marks z ≠ .empty)
  | .release a => MergeFits R c.heap a ∧ FindsHeld R c.heap a

def Begins (R : Region) (B : Layout) (a : ℕ) : Prop :=
  ∃ q s, 0 < s ∧ a = R.hstart + q ∧ At Prod.fst B q (s, false)

def Solid (m : Marker) : Prop := m = .empty ∨ 0 < m.size

/-- The markers of the list are counted, and the allocated ones are those of the live blocks. -/
structure Sound (R : Region) (c : Pool) (L : List ℤ) : Prop where
  path : Path R c.heap L
  solid : ∀ z ∈ L, Solid (c.heap.marks z)
  count : c.heap.blistSize = used (blocks c.heap.marks L)
  live : ∀ a, Starts c a ↔ Begins R (blocks c.heap.marks L) a

variable {R : Region} {h t u : Heap} {L M pre post : List ℤ} {B B' : Layout} {c d : Pool}
  {e : Request} {es : List Request} {words : ℤ → Marker} {r r' : Registers}
  {a j k k' n p q s v : ℕ} {q' x y z : ℤ}

section Lookup

lemma front_sized (hp : Path R h (pre ++ z :: post)) (hs : ∀ y ∈ pre ++ z :: post, Solid (h.marks y))
    (hy : y ∈ pre) : 0 < (h.marks y).size := by
  have hmem : y ∈ pre ++ z :: post := List.mem_append_left _ hy
  rcases hs y hmem with hempty | hpos
  · obtain ⟨front, back, rfl⟩ := List.append_of_mem hy
    have hend := hp.empty_mem hmem hempty
    rw [List.append_assoc] at hp
    exact absurd (hp.after_end hend) (by simp)
  · exact hpos

variable (hp : Path R h (pre ++ z :: post)) (hs : ∀ y ∈ pre ++ z :: post, Solid (h.marks y))
  (hk : h.blistSize = used (blocks h.marks (pre ++ z :: post)))

include hp hs hk

lemma counted_iff : pre.length < h.blistSize ↔ 0 < (h.marks z).size := by
  have hfront : used (blocks h.marks pre) = pre.length := used_blocks fun _ => front_sized hp hs
  have hz := hs z (by simp)
  rw [hk, blocks_append, used_append, hfront, blocks_cons]
  constructor
  · intro hlt
    rcases hz with hempty | hpos
    · have hend := hp.empty_mem (by simp) hempty
      obtain rfl := hp.after_end hend
      rw [hempty, block_empty, used_cons_empty, blocks_nil, used_nil] at hlt
      omega
    · exact hpos
  · intro hpos
    have hone : used (block (h.marks z) :: blocks h.marks post) =
        used (blocks h.marks post) + 1 := by simp [used, block, hpos.ne']
    omega

lemma located (hz : 0 < (h.marks z).size) :
    Located R h (R.hstart + total Prod.fst (blocks h.marks pre)) pre.length :=
  located_split hp ((counted_iff hp hs hk).mpr hz) fun _ => front_sized hp hs

end Lookup

section Answer

lemma Sound.begins_iff (hs : Sound R c L) : Begins R (blocks c.heap.marks L) a ↔
    ∃ j, Located R c.heap a j ∧ (c.heap.marks (position c.heap j)).free = false := by
  obtain ⟨hp, hsolid, hcount, -⟩ := hs
  constructor
  · rintro ⟨q, s, hpos, rfl, hat⟩
    obtain ⟨pre, z, post, rfl, hblock, rfl⟩ := at_blocks hat
    obtain ⟨rfl, hfree⟩ := Prod.mk.inj hblock
    refine ⟨_, located hp hsolid hcount hpos, ?_⟩
    rw [position_split hp, hfree]
  · rintro ⟨j, hl, hfree⟩
    obtain ⟨pre, post, rfl, rfl⟩ := chosen_split hp hcount.le hl.lt
    have hpos := (counted_iff hp hsolid hcount).mp hl.lt
    refine ⟨total Prod.fst (blocks c.heap.marks pre), _, hpos, ?_, ?_⟩
    · rw [← hl.here, address_split hp]
    · rw [blocks_append, blocks_cons, block, hfree]
      exact At.intro

lemma Sound.answers_iff (hs : Sound R c L) : Answers R c a ↔ FindsHeld R c.heap a := by
  have hstart : Starts c a ↔ ∃ j, Located R c.heap a j ∧
      (c.heap.marks (position c.heap j)).free = false := (hs.live a).trans hs.begins_iff
  by_cases hb : c.heap.blistSize = 0
  · have hnone : ∀ j, ¬ Located R c.heap a j := fun j hl => by
      have hlt := hl.lt
      omega
    have hno : ¬ Starts c a := fun h => by
      obtain ⟨j, hl, -⟩ := hstart.mp h
      exact hnone j hl
    refine iff_of_true ⟨0, errorEmptyHeap, c.heap, fun fuel _ => if_pos hb, fun h => absurd h hno,
      fun _ => ⟨Or.inl rfl, rfl⟩⟩ fun j hl => absurd hl (hnone j)
  obtain ⟨k, ⟨p, t⟩, hk⟩ := release_returns (a := a) hs.path hb
  have hservice : ∀ fuel, k ≤ fuel → svcServiceGheapRelease R fuel c.heap a =
      some (if p = 0 ∧ t.blistSize ≠ 0 then errorWrongHeapPointer else errorNone, t) := by
    intro fuel hfuel
    have hr : releaseAllocatedMarker R fuel c.heap a = some (p, t) := hk fuel hfuel
    rw [svcServiceGheapRelease, if_neg hb, hr]
    rfl
  by_cases hl : ∃ j, Located R c.heap a j
  · obtain ⟨j, hl⟩ := hl
    have hreturn := (removed hs.path hb hl (hk k le_rfl)).1
    have hnone : ¬ (p = 0 ∧ t.blistSize ≠ 0) := fun h => h.2 (hreturn ▸ h.1)
    rw [if_neg hnone] at hservice
    constructor
    · rintro ⟨l, r, u, hr, -, hbad⟩ i hi
      obtain rfl := hi.unique hl
      by_contra hfree
      have hno : ¬ Starts c a := fun h => by
        obtain ⟨m, hm, hheld⟩ := hstart.mp h
        exact hfree (hm.unique hi ▸ hheld)
      have hsame := (hr _ (le_max_left l k)).symm.trans (hservice _ (le_max_right l k))
      obtain ⟨rfl, -⟩ := Prod.mk.inj (Option.some.inj hsame)
      exact absurd (hbad hno).1 (by decide)
    · intro hheld
      exact ⟨k, _, t, hservice, fun _ => rfl, fun h => absurd (hstart.mpr ⟨j, hl, hheld j hl⟩) h⟩
  · obtain ⟨rfl, rfl⟩ := release_missing hb (not_exists.mp hl) (hk k le_rfl)
    rw [if_pos ⟨rfl, hb⟩] at hservice
    have hno : ¬ Starts c a := fun h => hl ((hstart.mp h).imp fun _ => And.left)
    exact iff_of_true ⟨k, _, _, hservice, fun h => absurd h hno, fun _ => ⟨Or.inr rfl, rfl⟩⟩
      fun j hj => absurd ⟨j, hj⟩ hl

end Answer

section Solidity

variable {f : ℤ → Marker} {w : ℤ} {m : Marker}

lemma solid_update (hw : w ≠ x → Solid (f w)) (hm : Solid m) : Solid (update f x m w) := by
  rcases eq_or_ne w x with rfl | hne
  · rwa [update_self]
  · rw [update_of_ne hne]
    exact hw hne

lemma solid_allocated {δ : ℤ} (hn : 0 < n) (hlt : n < 32768) : Solid ⟨uint16 n, δ⟩ := by
  have hblock : block ⟨uint16 n, δ⟩ = (n, false) := block_allocated hlt
  exact Or.inr (hn.trans_eq (congrArg Prod.fst hblock).symm)

lemma solid_free {δ : ℤ} (hn : 0 < n) (hlt : n < 32768) : Solid ⟨uint16 (n + 32768), δ⟩ := by
  have hblock : block ⟨uint16 (n + 32768), δ⟩ = (n, true) := block_free hlt
  exact Or.inr (hn.trans_eq (congrArg Prod.fst hblock).symm)

lemma append_solid (hend : Solid (h.marks h.fsllEnd))
    (hlast : h.marks h.fsllEnd = .empty → z = h.fsllEnd) (hn : 0 < n) (hlt : n < 32768)
    (hw : Solid (h.marks w)) : Solid ((appendMarker h z n).marks w) := by
  by_cases hze : z = h.fsllEnd
  · rw [hze, appendMarker_end]
    exact solid_update (fun _ => hw) (solid_allocated hn hlt)
  · rw [appendMarker_marks hze]
    refine solid_update (fun _ => solid_update (fun _ => hw) (solid_allocated hn hlt)) ?_
    rcases hend with hempty | hpos
    · exact absurd (hlast hempty) hze
    · exact Or.inr hpos

lemma found_solid (hf : findMarker R k h n = some (p, t)) (hp : Path R h L) (hs : SplitSafe R h n)
    (hend : Solid (h.marks h.fsllEnd)) (hn : 0 < n) (hlt : n < 32768)
    (hrefill : h.marks h.fsllEnd = .empty → (∀ j < h.blistSize, ¬ Fits h n (position h j)) →
      ∀ z, h.fsllEnd < z → z ≤ R.bstart → h.marks z ≠ .empty)
    (hw : Solid (h.marks w)) : Solid (t.marks w) := by
  obtain ⟨-, hf⟩ | ⟨hnone, ha⟩ := found_cases hf
  · cases searched hf with
    | none => exact hw
    | @whole j hc =>
      have hpos := hn.trans_le hc.fits.2
      exact solid_update (fun _ => hw) (solid_allocated hpos (size_lt _))
    | @split j z hc hne hz =>
      obtain ⟨hx, hword⟩ := hs j z hc hne hz
      have hmem := position_mem hp j
      obtain ⟨M, hi⟩ := inserted hp hmem hz.empty hx hword
      have hmarks : (cut h (position h j) z n).marks = _ :=
        (congrArg Heap.marks (cut_eq hp hi hmem hz)).trans linkSplit_marks
      have hle := hc.fits.2
      have hsize := size_lt (h.marks (position h j))
      rw [hmarks]
      exact solid_update (fun _ => solid_update (fun _ => hw) (solid_free (by omega) (by omega)))
        (solid_allocated hn hlt)
  · obtain ⟨-, rfl, rfl⟩ | ⟨z, hr, -, rfl⟩ := add_cases ha
    · exact hw
    · obtain ⟨i, hi, rfl, hempty, habove⟩ := add_found hr
      refine append_solid hend (fun he => ?_) hn hlt hw
      -- no empty word lies above the last marker, and none above the word that is found
      have hle := (hp.bounds _ hp.end_mem).2
      rcases lt_trichotomy (R.bstart - i) h.fsllEnd with hlow | heq | hhigh
      · have hbelow : (R.bstart - h.fsllEnd).toNat < i := by omega
        have hword : R.bstart - ((R.bstart - h.fsllEnd).toNat : ℤ) = h.fsllEnd := by omega
        exact absurd (hword.symm ▸ he) (habove _ hbelow)
      · exact heq
      · exact absurd hempty (hrefill he hnone _ hhigh (by omega))

lemma NextJoined.solid {c d : Registers} (hj : NextJoined c x L M d) (hs : 0 < s)
    (hr : c.r3 = s + 32768) (hlt : s < 32768) (hw : Solid (c.heap.marks w)) :
    Solid (d.heap.marks w) := by
  have hmerge : ∀ {y δ}, c.r3 + (c.heap.marks y).size < 0xFFFF →
      Solid ((mergeMarkers c.heap x y δ (c.r3 + (c.heap.marks y).size)).marks w) := by
    intro y δ hsize
    have hadd : c.r3 + (c.heap.marks y).size = s + (c.heap.marks y).size + 32768 := by omega
    rw [mergeMarkers_marks, hadd]
    exact solid_update (fun _ => solid_update (fun _ => hw) (solid_free (by omega) (by omega)))
      (Or.inl rfl)
  cases hj with
  | deleted => exact solid_update (fun _ => hw) (Or.inl rfl)
  | apart | large => exact hw
  | merged _ hsize | mergedLast _ hsize => exact hmerge hsize

lemma PredJoined.solid {c d : Registers} (hj : PredJoined c q' x L M d)
    (hq : 0 < (c.heap.marks q').size)
    (hr : c.heap.marks x ≠ .empty → (c.heap.marks q').free = true →
      0 < s ∧ c.r3 = s + 32768 ∧ (c.heap.marks q').size + s < 32768)
    (hw : Solid (c.heap.marks w)) : Solid (d.heap.marks w) := by
  have hmerge : ∀ {δ}, c.heap.marks x ≠ .empty → (c.heap.marks q').free = true →
      Solid ((mergeMarkers c.heap q' x δ (c.r3 + (c.heap.marks q').size)).marks w) := by
    intro δ hx hfree
    obtain ⟨hs, hr3, hlt⟩ := hr hx hfree
    have hadd : c.r3 + (c.heap.marks q').size = (c.heap.marks q').size + s + 32768 := by omega
    rw [mergeMarkers_marks, hadd]
    exact solid_update (fun _ => solid_update (fun _ => hw) (solid_free (by omega) (by omega)))
      (Or.inl rfl)
  cases hj with
  | dropped => exact solid_update (fun _ => hw) (Or.inr hq)
  | apart => exact hw
  | merged hx hfree | mergedLast hx hfree => exact hmerge hx hfree

lemma Removed.solid (hr : Removed h (position h j) L M t) (hp : Path R h L)
    (hs : ∀ z ∈ L, Solid (h.marks z)) (hm : MergeFits R h a)
    (hk : h.blistSize ≤ used (blocks h.marks L)) (hl : Located R h a j)
    (hx : 0 < (h.marks (position h j)).size) (hw : w ∈ M) : Solid (t.marks w) := by
  have hsize := size_lt (h.marks (position h j))
  have hfree : Solid ((freeMarker h (position h j)).heap.marks w) :=
    solid_update (fun _ => hs w (hr.subset hw)) (solid_free hx hsize)
  cases hr with
  | first hn => exact NextJoined.solid hn hx rfl hsize hfree
  | @joined q pre post M d e hn hq =>
    have hnext := NextJoined.solid hn hx rfl hsize hfree
    obtain ⟨front, back, hL, -⟩ := chosen_split hp hk hl.lt
    have hfits := joined_fits hp hm hk hl hn
    generalize position h j = x at *
    subst hL
    obtain ⟨rfl, -, hmarks⟩ := before_joined hp hn
    refine PredJoined.solid (s := (h.marks x).size + freeSize h (position h (j + 1))) hq ?_
      (fun hx' hq' => ?_) hnext
    · rw [hmarks]
      exact front_sized hp hs (by simp)
    · obtain ⟨-, hr3, hlt⟩ := hfits hx' hq'
      exact ⟨Nat.add_pos_left hx _, hr3, hlt⟩

end Solidity

section Steps

variable {live : List (ℕ × ℕ)} {size status : ℕ}

lemma Grown.begins (hg : Grown B k B' k' q n) (hn : 0 < n) :
    Begins R B' a ↔ a = R.hstart + q ∨ Begins R B a := by
  obtain ⟨⟨v, hv, hat⟩, -⟩ := hg.placed
  constructor
  · rintro ⟨p, s, hs, rfl, hp⟩
    rcases eq_or_ne p q with rfl | hne
    · exact Or.inl rfl
    · exact Or.inr ⟨p, s, hs, rfl, (hg.held p s hs hne).mp hp⟩
  · rintro (rfl | ⟨p, s, hs, rfl, hp⟩)
    · exact ⟨q, v, hn.trans_le hv, rfl, hat⟩
    · exact ⟨p, s, hs, rfl, hg.follows.kept p s hs hp⟩

lemma starts_cons : Starts ⟨t, (p, n) :: live⟩ a ↔ a = p ∨ Starts ⟨h, live⟩ a := by
  constructor
  · rintro ⟨m, hm⟩
    obtain heq | hm := List.mem_cons.mp hm
    · exact Or.inl (Prod.mk.inj heq).1
    · exact Or.inr ⟨m, hm⟩
  · rintro (rfl | ⟨m, hm⟩)
    · exact ⟨n, List.mem_cons_self⟩
    · exact ⟨m, List.mem_cons_of_mem _ hm⟩

lemma starts_filter : Starts ⟨t, live.filter fun b => b.1 ≠ p⟩ a ↔ Starts ⟨h, live⟩ a ∧ a ≠ p := by
  constructor
  · rintro ⟨m, hm⟩
    obtain ⟨hmem, hne⟩ := List.mem_filter.mp hm
    exact ⟨⟨m, hmem⟩, by simpa using hne⟩
  · rintro ⟨⟨m, hm⟩, hne⟩
    exact ⟨m, List.mem_filter.mpr ⟨hm, by simpa using hne⟩⟩

lemma Sound.charge (hs : Sound R ⟨h, live⟩ L) (p n : ℕ) : Sound R ⟨charge h p n, live⟩ L := by
  unfold Reach.charge
  split_ifs
  · exact hs
  · exact ⟨hs.path.congr rfl rfl fun _ _ => rfl, hs.solid, hs.count, hs.live⟩

lemma Sound.allocate (hs : Sound R ⟨h, live⟩ L) (hc : heapAllocate R k h size = some (p, t))
    (hcare : Careful R ⟨h, live⟩ (.allocate size)) :
    ∃ M, Sound R ⟨t, handOut live p (wordAlign size)⟩ M := by
  obtain ⟨rfl, rfl, -⟩ | ⟨hacc, u, hf, rfl⟩ := heapAllocate_found hc
  · exact ⟨L, hs⟩
  obtain ⟨hn, hsafe, hrefill⟩ := hcare hacc
  have hlt : wordAlign size < 32768 := Nat.lt_succ_of_le hacc.1
  obtain ⟨M, hM, hmem, hgrown⟩ := Allocated.grown (allocated hf) hs.path hsafe hs.count.le hn hlt
  have hsolid : ∀ w ∈ M, Solid (u.marks w) := by
    intro w hw
    refine found_solid hf hs.path hsafe (hs.solid _ hs.path.end_mem) hn hlt hrefill ?_
    exact (hmem w hw).elim (hs.solid w) Or.inl
  refine ⟨M, Sound.charge ?_ p _⟩
  obtain ⟨rfl, rfl, rfl⟩ | ⟨q, rfl, hgrown⟩ := hgrown
  · exact hs
  · have hpos : R.hstart + q ≠ 0 := ((address_pos R h 0).trans_le (Nat.le_add_right _ q)).ne'
    rw [handOut, if_neg hpos]
    refine ⟨hM, hsolid, hgrown.eq hs.count, fun b => ?_⟩
    rw [starts_cons (h := h), Grown.begins hgrown hn, hs.live]

lemma free_begins (hp : Path R h (pre ++ x :: post)) (hx : 0 < (h.marks x).size) :
    used (blocks (freeMarker h x).heap.marks (pre ++ x :: post)) =
        used (blocks h.marks (pre ++ x :: post)) ∧
      ∀ p s, 0 < s → (At Prod.fst (blocks (freeMarker h x).heap.marks (pre ++ x :: post)) p (s, false) ↔
        At Prod.fst (blocks h.marks (pre ++ x :: post)) p (s, false) ∧
          p ≠ total Prod.fst (blocks h.marks pre)) := by
  obtain ⟨hB', -, hkeep⟩ := free_follows hp
  have hB := blocks_split h pre x post
  refine ⟨?_, fun p s hs => ⟨fun hat => ⟨?_, ?_⟩, fun ⟨hat, hne⟩ => hkeep p s hs hat hne⟩⟩
  · have hone : used [block (h.marks x)] = 1 := by simp [used, block, hx.ne']
    rw [hB, hB', used_append, used_append, used_append, used_append, hone]
    simp
  · rw [hB'] at hat
    rw [hB]
    refine hat.replace (Or.inl ?_) fun q hq => ?_
    · simp [block]
    · obtain ⟨front, back, he, -⟩ := hq
      have hmem : (s, false) ∈ [((h.marks x).size, true)] := he ▸ by simp
      simp at hmem
  · rintro rfl
    rw [hB', List.append_assoc, List.singleton_append] at hat
    exact absurd (At.unique hat At.intro hs hx) (by simp)

lemma Sound.release (hs : Sound R ⟨h, live⟩ L) (hc : svcServiceGheapRelease R k h a = some (status, t))
    (hcare : Careful R ⟨h, live⟩ (.release a)) :
    ∃ M, Sound R ⟨t, live.filter fun b => b.1 ≠ a⟩ M := by
  obtain ⟨hm, hheld⟩ := hcare
  by_cases hl : ∃ j, Located R h a j
  · obtain ⟨j, hl⟩ := hl
    have hb : h.blistSize ≠ 0 := Nat.ne_zero_of_lt hl.lt
    rw [svcServiceGheapRelease, if_neg hb] at hc
    obtain ⟨⟨p, u⟩, hr, hc⟩ := Option.map_eq_some_iff.mp hc
    obtain ⟨-, rfl⟩ := Prod.mk.inj hc
    obtain ⟨-, M, hM⟩ := removed hs.path hb hl hr
    have hsame := Removed.same hM hs.path hm hs.count.le hl
    have hsolid := fun w => Removed.solid (w := w) hM hs.path hs.solid hm hs.count.le hl
    have hpath := hM.path hs.path
    obtain ⟨pre, post, rfl, hlen⟩ := chosen_split hs.path hs.count.le hl.lt
    have hx := (counted_iff hs.path hs.solid hs.count).mp (hlen ▸ hl.lt)
    obtain ⟨hused, hbegins⟩ := free_begins hs.path hx
    have ha : R.hstart + total Prod.fst (blocks h.marks pre) = a := by
      rw [← hl.here, ← hlen, address_split hs.path]
    refine ⟨M, hpath, fun w => hsolid w hx, hsame.eq (hs.count.trans hused.symm), fun b => ?_⟩
    rw [starts_filter (h := h), hs.live]
    constructor
    · rintro ⟨⟨q, s, hpos, rfl, hat⟩, hne⟩
      refine ⟨q, s, hpos, rfl, (hsame.held q s hpos).mpr ((hbegins q s hpos).mpr ⟨hat, ?_⟩)⟩
      rintro rfl
      exact hne ha
    · rintro ⟨q, s, hpos, rfl, hat⟩
      obtain ⟨hat, hne⟩ := (hbegins q s hpos).mp ((hsame.held q s hpos).mp hat)
      exact ⟨⟨q, s, hpos, rfl, hat⟩, fun he => hne (Nat.add_left_cancel (he.trans ha.symm))⟩
  · have hsame : t = h := by
      unfold svcServiceGheapRelease at hc
      split_ifs at hc with hb
      · exact (Prod.mk.inj (Option.some.inj hc)).2.symm
      · obtain ⟨⟨p, u⟩, hr, hc⟩ := Option.map_eq_some_iff.mp hc
        obtain ⟨-, rfl⟩ := Prod.mk.inj hc
        exact (release_missing hb (not_exists.mp hl) hr).2
    subst hsame
    have hno : ¬ Starts ⟨t, live⟩ a := by
      intro hstart
      obtain ⟨j, hj, -⟩ := hs.begins_iff.mp ((hs.live a).mp hstart)
      exact hl ⟨j, hj⟩
    refine ⟨L, hs.path, hs.solid, hs.count, fun b => ?_⟩
    rw [starts_filter (h := t), hs.live]
    refine ⟨And.left, fun hb => ⟨hb, ?_⟩⟩
    rintro rfl
    exact hno ((hs.live b).mpr hb)

lemma initial_sound (R : Region) (words : ℤ → Marker) :
    Sound R ⟨heapInit R words, []⟩ [R.bstart] := by
  have hp := initial_path R words
  have hempty : (heapInit R words).marks R.bstart = .empty := by
    have hpos := R.kilobytes_pos
    apply if_pos
    unfold Region.bstart Region.words
    omega
  have hblocks : blocks (heapInit R words).marks [R.bstart] = [(0, false)] := by
    rw [blocks_cons, hempty]
    rfl
  refine ⟨hp, fun z hz => ?_, ?_, fun a => ⟨?_, ?_⟩⟩
  · rw [List.mem_singleton.mp hz]
    exact Or.inl hempty
  · rw [hblocks]
    rfl
  · rintro ⟨n, hn⟩
    simp at hn
  · rintro ⟨q, s, hs, -, hat⟩
    rw [hblocks] at hat
    obtain ⟨front, back, he, -⟩ := hat
    have hmem : (s, false) ∈ [(0, false)] := he ▸ by simp
    simp at hmem
    omega

lemma Sound.call (hs : ∃ L, Sound R c L) (hcare : Careful R c e) (hd : Call R c e d) :
    ∃ L, Sound R d L := by
  obtain ⟨L, hs⟩ := hs
  cases hd with
  | allocated hc => exact hs.allocate hc hcare
  | released hc => exact hs.release hc hcare

lemma run_sound (hr : Run (fun c e d => Careful R c e ∧ Call R c e d) ⟨heapInit R words, []⟩ es c) :
    ∃ L, Sound R c L := by
  refine hr.invariant (I := fun c => ∃ L, Sound R c L) ?_ ⟨_, initial_sound R words⟩
  exact fun _ _ _ hs hd => Sound.call hs hd.1 hd.2

/-- After careful calls the release of an address is answered as it should be if and only if no free
marker is found for it. -/
theorem bad_release_rejected
    (hr : Run (fun c e d => Careful R c e ∧ Call R c e d) ⟨heapInit R words, []⟩ es c) (a : ℕ) :
    Answers R c a ↔ FindsHeld R c.heap a := by
  obtain ⟨L, hs⟩ := run_sound hr
  exact hs.answers_iff

end Steps

section Instances

def HoldsAt (R : Region) (h : Heap) (a : ℕ) : Prop :=
  ∀ j < h.blistSize, addressAt R h j = a → (h.marks (position h j)).free = false

instance (R : Region) (h : Heap) (a : ℕ) : Decidable (HoldsAt R h a) :=
  inferInstanceAs (Decidable (∀ j < _, _))

lemma HoldsAt.finds (hh : HoldsAt R h a) : FindsHeld R h a := fun j hl => hh j hl.lt hl.here

def careful (R : Region) (c : Pool) : Request → Bool
  | .allocate size => 0 < wordAlign size ∧ Apart c.heap (wordAlign size) ∧
    (c.heap.marks c.heap.fsllEnd = .empty → c.heap.fsllEnd = R.bstart)
  | .release a => Roomy c.heap ∧ HoldsAt R c.heap a

lemma careful_safe (he : careful R c e = true) : Careful R c e := by
  cases e with
  | allocate size =>
    obtain ⟨hn, hapart, hend⟩ := of_decide_eq_true he
    refine fun _ => ⟨hn, hapart.safe, fun hempty _ z hlow hhigh => ?_⟩
    have hlast := hend hempty
    omega
  | release a =>
    obtain ⟨hroom, hheld⟩ := of_decide_eq_true he
    exact ⟨fun j hl _ _ => hroom j (Nat.lt_of_succ_lt hl.lt), hheld.finds⟩

def call (R : Region) (fuel : ℕ) (c : Pool) (e : Request) : Option Pool :=
  if careful R c e = true then
    match e with
    | .allocate size => (heapAllocate R fuel c.heap size).map fun (p, t) =>
      ⟨t, handOut c.live p (wordAlign size)⟩
    | .release a => (svcServiceGheapRelease R fuel c.heap a).map fun (_, t) =>
      ⟨t, c.live.filter fun b => b.1 ≠ a⟩
  else none

lemma call_sound (c : Pool) (e : Request) (d : Pool) (hs : call R k c e = some d) :
    Careful R c e ∧ Call R c e d := by
  obtain ⟨h, live⟩ := c
  unfold call at hs
  split_ifs at hs with hsafe
  refine ⟨careful_safe hsafe, ?_⟩
  cases e with
  | allocate size =>
    obtain ⟨⟨p, t⟩, hc, rfl⟩ := Option.map_eq_some_iff.mp hs
    exact .allocated hc
  | release a =>
    obtain ⟨⟨status, t⟩, hc, rfl⟩ := Option.map_eq_some_iff.mp hs
    exact .released hc

def returning : List Request := [.allocate 100, .allocate 4, .release 0x20001000]

theorem bad_release_rejected_inside : ∃ c,
    Run (fun c e d => Careful kilobyte c e ∧ Call kilobyte c e d) fresh returning c ∧
      Answers kilobyte c 0x20001064 ∧ Answers kilobyte c 0x20001004 := by
  have hsome : ((exec (call kilobyte 300) fresh returning).any fun c => decide
      (HoldsAt kilobyte c.heap 0x20001064 ∧ HoldsAt kilobyte c.heap 0x20001004)) = true := by
    decide +kernel
  obtain ⟨c, hr, hstart, hinside⟩ := exec_any_run call_sound hsome
  exact ⟨c, hr, (bad_release_rejected hr _).mpr hstart.finds,
    (bad_release_rejected hr _).mpr hinside.finds⟩

/-- The second release of a block is not rejected. -/
theorem bad_release_rejected_fails : ∃ c,
    Run (fun c e d => Careful kilobyte c e ∧ Call kilobyte c e d) fresh returning c ∧
      ¬ Starts c 0x20001000 ∧ ¬ Answers kilobyte c 0x20001000 := by
  have hsome : ((exec (call kilobyte 300) fresh returning).any fun c => decide
      (c.live = [(0x20001064, 4)] ∧ 0 < c.heap.blistSize ∧
        (c.heap.marks (position c.heap 0)).free = true)) = true := by decide +kernel
  obtain ⟨c, hr, hlive, hcount, hfree⟩ := exec_any_run call_sound hsome
  obtain ⟨L, hs⟩ := run_sound hr
  refine ⟨c, hr, ?_, fun hanswers => ?_⟩
  · rintro ⟨n, hn⟩
    rw [hlive, List.mem_singleton] at hn
    exact absurd (Prod.mk.inj hn).1 (by decide)
  · have hheld := hs.answers_iff.mp hanswers 0 ⟨hcount, rfl, by simp⟩
    rw [hfree] at hheld
    exact absurd hheld (by decide)

end Instances

end Skibios.Allocator.Rejections

import Skibios.Allocator.Entries

/-! What a release leaves of the other blocks, on a well-formed heap. -/

namespace Skibios.Allocator.Releases

open Function Library.Words Library.Loops Library.Chains Library.Segments Library.Runs
open Markers Paths Walks Outcomes Pools Layouts Overlap Entries

variable {R : Region} {h t : Heap} {L M pre post : List ℤ} {e : Entry} {c r : Registers}
  {a j k p s v : ℕ} {q x y z b d : ℤ}

structure Preserved (R : Region) (h : Heap) (L : List ℤ) (x : ℤ) (s : ℕ) (t : Heap) (M : List ℤ) :
    Prop where
  path : Path R t M
  kept : ∀ p e, e.slot ≠ x → e.free = false → At Entry.size (entries h.marks L) p e →
    At Entry.size (entries t.marks M) p e
  freed : x ≠ h.fsllEnd → freeBytes (entries t.marks M) = freeBytes (entries h.marks L) + s
  -- the bytes of the last marker leave the list
  left : x = h.fsllEnd → freeBytes (entries t.marks M) = freeBytes (entries h.marks L) ∧
    total Entry.size (entries t.marks M) + s = total Entry.size (entries h.marks L)
  count : t.blistSize = marked (entries t.marks M)

/-- The release of the block at `a` comes back, and only the marker `x` of `s` bytes is given up. -/
def Preserves (R : Region) (h : Heap) (L : List ℤ) (x : ℤ) (s a : ℕ) : Prop :=
  ∃ k t M, (∀ fuel, k ≤ fuel → releaseAllocatedMarker R fuel h a = some (t.blistSize, t)) ∧
    Preserved R h L x s t M

lemma merge_entries (hn : (pre ++ x :: y :: b :: post).Nodup) :
    entries (mergeMarkers h x y d v).marks (pre ++ x :: b :: post) =
      entries h.marks pre ++ [⟨x, block ⟨uint16 v, d⟩⟩] ++ entries h.marks (b :: post) := by
  obtain ⟨hxy, ⟨hxpre, hypre⟩, hxpost, hypost⟩ := pair_notMem hn
  rw [mergeMarkers_marks, entries_append, entries_cons, entries_update hypre, entries_update hxpre,
    entries_update hypost, entries_update hxpost, update_of_ne hxy, update_self, List.append_assoc,
    List.singleton_append]

lemma pair_entries (hx : block (h.marks x) = (s, true)) (hy : block (h.marks y) = (v, true)) :
    entries h.marks (pre ++ x :: y :: post) =
      entries h.marks pre ++ [⟨x, (s, true)⟩, ⟨y, (v, true)⟩] ++ entries h.marks post := by
  simp [hx, hy]

lemma merge_keeps (hn : (pre ++ x :: y :: b :: post).Nodup) (hx : block (h.marks x) = (s, true))
    (hy : block (h.marks y) = (v, true)) (hlt : s + v < 32768) (k : ℕ) :
    Keeps (entries h.marks (pre ++ x :: y :: b :: post)) k
      (entries (mergeMarkers h x y d (s + v + 32768)).marks (pre ++ x :: b :: post)) (k - 1) := by
  rw [merge_entries hn, block_free hlt, pair_entries hx hy]
  apply Keeps.reshape
  · simp [Entry.free]
  · simp [Entry.size]
  · simp [Entry.freeSize, Entry.free, Entry.size]
  · simp [marked]

lemma NextJoined.keeps (hj : NextJoined c x L M r) (hp : Path R c.heap L)
    (hx : block (c.heap.marks x) = (s, true)) (hr : c.r3 = s + 32768) (hne : x ≠ c.heap.fsllEnd)
    (hend : (c.heap.marks c.heap.fsllEnd).free = false) :
    Keeps (entries c.heap.marks L) c.r6 (entries r.heap.marks M) r.r6 := by
  cases hj with
  | deleted he => exact absurd he hne
  | apart | large => exact Keeps.refl _ _
  | @merged pre post y b hy hs =>
    have hadd : c.r3 + (c.heap.marks y).size = s + (c.heap.marks y).size + 32768 := by omega
    rw [hadd] at hs ⊢
    exact merge_keeps hp.nodup hx (by rw [block, hy]) (by omega) c.r6
  | @mergedLast pre y hy hs =>
    rw [hp.end_eq, hend] at hy
    exact absurd hy (by decide)

lemma NextJoined.sums (hj : NextJoined c x L M r) (hp : Path R c.heap L)
    (hx : block (c.heap.marks x) = (s, true)) (hr : c.r3 = s + 32768) (hne : x ≠ c.heap.fsllEnd) :
    ∃ v k, block (r.heap.marks x) = (v, true) ∧ r.r3 = v + k + 32768 ∧ s ≤ v ∧ k < 32768 ∧
      v + k = s + freeSize c.heap (c.heap.next x) ∧ (k = 0 ∨ 32767 ≤ v + k) := by
  have hadd : ∀ y, c.r3 + (c.heap.marks y).size = s + (c.heap.marks y).size + 32768 := by omega
  have hnext : ∀ {pre post y}, L = pre ++ x :: y :: post → c.heap.next x = y := by
    rintro pre post y rfl
    exact hp.linked.link
  have hmerged : ∀ {pre post y d}, L = pre ++ x :: y :: post → (c.heap.marks y).free = true →
      c.r3 + (c.heap.marks y).size < 0xFFFF →
      block ((mergeMarkers c.heap x y d (c.r3 + (c.heap.marks y).size)).marks x) =
        (s + (c.heap.marks y).size, true) := by
    rintro pre post y d rfl hy hs
    rw [hadd] at hs ⊢
    rw [mergeMarkers_marks, update_of_ne (nodup_pair hp.nodup).1, update_self]
    exact block_free (by omega)
  cases hj with
  | deleted he => exact absurd he hne
  | @apart pre post y hy =>
    rw [hnext rfl, freeSize, if_neg (by simp [hy])]
    exact ⟨s, 0, hx, hr, le_rfl, by omega, rfl, Or.inl rfl⟩
  | @large pre post y hy hs =>
    rw [hnext rfl, freeSize, if_pos hy]
    have hlt := size_lt (c.heap.marks y)
    exact ⟨s, (c.heap.marks y).size, hx, hadd y, le_rfl, hlt, rfl, Or.inr (by omega)⟩
  | @merged pre post y b hy hs =>
    rw [hnext rfl, freeSize, if_pos hy]
    exact ⟨_, 0, hmerged rfl hy hs, hadd y, by omega, by omega, rfl, Or.inl rfl⟩
  | @mergedLast pre y hy hs =>
    rw [hnext rfl, freeSize, if_pos hy]
    exact ⟨_, 0, hmerged rfl hy hs, hadd y, by omega, by omega, rfl, Or.inl rfl⟩

lemma freeSize_wraps (hs : (⟨x, block ⟨uint16 (v + k + 32768), d⟩⟩ : Entry).freeSize = v) (hv : 0 < v)
    (hk : k < 32768) : v < 32768 ∧ k = 0 := by
  unfold Entry.freeSize Entry.free Entry.size block Marker.size Marker.free uint16 at hs
  dsimp only at hs
  split_ifs at hs with hfree
  · rw [decide_eq_true_eq] at hfree
    omega
  · omega

lemma PredJoined.keeps (hj : PredJoined c q x L M r) (hp : Path R c.heap L)
    (hx : block (c.heap.marks x) = (v, true)) (hr : c.r3 = v + k + 32768) (hne : x ≠ c.heap.fsllEnd)
    (hfits : (c.heap.marks q).free = true → (c.heap.marks q).size + v < 32768 ∧ k = 0) :
    Keeps (entries c.heap.marks L) c.r6 (entries r.heap.marks M) r.r6 := by
  cases hj with
  | dropped hempty =>
    rw [hempty] at hx
    simp at hx
  | apart => exact Keeps.refl _ _
  | @merged pre post b _ hq =>
    obtain ⟨hlt, rfl⟩ := hfits hq
    have hadd : c.r3 + (c.heap.marks q).size = (c.heap.marks q).size + v + 32768 := by omega
    rw [hadd]
    exact merge_keeps hp.nodup (by rw [block, hq]) hx hlt c.r6
  | mergedLast => exact absurd hp.end_eq hne

lemma PredJoined.fits (hj : PredJoined c q x L M r) (hp : Path R c.heap L)
    (hx : block (c.heap.marks x) = (v, true)) (hr : c.r3 = v + k + 32768) (hne : x ≠ c.heap.fsllEnd)
    (hv : 0 < v) (hk : k < 32768) (hq : (c.heap.marks q).free = true)
    (hbytes : freeBytes (entries r.heap.marks M) = freeBytes (entries c.heap.marks L)) :
    (c.heap.marks q).size + v < 32768 ∧ k = 0 := by
  cases hj with
  | dropped hempty =>
    rw [hempty] at hx
    simp at hx
  | apart _ hfree =>
    rw [hq] at hfree
    cases hfree
  | @merged pre post b _ _ =>
    have hadd : c.r3 + (c.heap.marks q).size = (c.heap.marks q).size + v + k + 32768 := by omega
    have hq' : block (c.heap.marks q) = ((c.heap.marks q).size, true) := by rw [block, hq]
    have hpair : freeBytes [⟨q, ((c.heap.marks q).size, true)⟩, ⟨x, (v, true)⟩] =
        (c.heap.marks q).size + v := by simp [Entry.freeSize, Entry.free, Entry.size]
    dsimp only at hbytes
    rw [merge_entries hp.nodup, pair_entries hq' hx, hadd, freeBytes_append, freeBytes_append,
      freeBytes_append, freeBytes_append, hpair, freeBytes_cons, freeBytes_nil] at hbytes
    apply freeSize_wraps (x := q) (d := x - q + (c.heap.marks x).offset) _ (by omega) hk
    omega
  | mergedLast => exact absurd hp.end_eq hne

lemma NextJoined.at_end (hj : NextJoined c x L M r) (hp : Path R c.heap L) (he : x = c.heap.fsllEnd) :
    M = L ∧ r = ⟨c.heap.clear x, c.r3, c.r6 - 1⟩ := by
  cases hj with
  | deleted => exact ⟨rfl, rfl⟩
  | apart | large | merged | mergedLast => exact absurd (hp.after_end he) (by simp)

lemma PredJoined.at_end (hj : PredJoined c q x L M r) (hx : c.heap.marks x = .empty) :
    ∃ pre, L = pre ++ [q, x] ∧ M = pre ++ [q] ∧
      r = ⟨{ c.heap.setOffset q 0 with fsllEnd := q }, c.r3, c.r6⟩ := by
  cases hj with
  | dropped => exact ⟨_, rfl, rfl, rfl⟩
  | apart hne | merged hne | mergedLast hne => exact absurd hx hne

lemma front_nil (hp : Path R h (pre ++ h.fsllStart :: post)) : pre = [] := by
  cases pre with
  | nil => rfl
  | cons z pre =>
    have hz : z = h.fsllStart := Option.some.inj hp.first
    exact absurd (hz ▸ List.mem_cons_self) (nodup_split hp.nodup).1

def FitsBefore (h : Heap) (pre : List ℤ) (x : ℤ) : Prop :=
  ∀ q ∈ pre.getLast?, (h.marks q).free = true →
    (h.marks q).size + (h.marks x).size + freeSize h (h.next x) < 32767

lemma mergeFits_iff (hp : Path R h (pre ++ x :: post)) (hl : Located R h a pre.length) :
    MergeFits R h a ↔ (x ≠ h.fsllEnd → FitsBefore h pre x) := by
  have hx : position h pre.length = x := position_split hp
  have hfront : ∀ {front q}, pre = front ++ [q] → position h front.length = q := by
    rintro front q rfl
    rw [List.append_assoc] at hp
    exact position_split hp
  constructor
  · intro hm hne q hq hfree
    obtain ⟨front, rfl⟩ := List.getLast?_eq_some_iff.mp hq
    have hlen : (front ++ [q]).length = front.length + 1 := by simp
    rw [hlen] at hl hx
    have hfits := hm front.length hl
    rw [position_succ h (front.length + 1), hx, hfront rfl] at hfits
    exact hfits hne hfree
  · intro hfits j hl' hne hfree
    have hlen := hl'.unique hl
    obtain rfl | ⟨front, q, rfl⟩ := List.eq_nil_or_concat pre
    · simp at hlen
    · obtain rfl : j = front.length := by simpa using hlen
      rw [← hlen] at hx
      rw [hx] at hne
      rw [hfront (List.concat_eq_append ..)] at hfree ⊢
      rw [position_succ h (front.length + 1), hx]
      exact hfits hne q (by simp) hfree

lemma Removed.keeps (hr : Removed h x (pre ++ x :: post) M t) (hw : WellFormed R h (pre ++ x :: post))
    (hne : x ≠ h.fsllEnd) (hfits : FitsBefore h pre x) :
    Keeps (entries (freeMarker h x).heap.marks (pre ++ x :: post)) h.blistSize
      (entries t.marks M) t.blistSize := by
  have hp := free_path hw.path x
  have hend : ((freeMarker h x).heap.marks h.fsllEnd).free = false := by
    rw [freeMarker_of_ne hne.symm, hw.allocated]
  cases hr with
  | first hn h0 => exact NextJoined.keeps hn hp (freeMarker_self h x) rfl hne hend
  | @joined q front back M c r hn hq =>
    apply (NextJoined.keeps hn hp (freeMarker_self h x) rfl hne hend).trans
    obtain ⟨v, k, hx, hr3, -, -, hsum, hcase⟩ := NextJoined.sums hn hp (freeMarker_self h x) rfl hne
    rw [freeMarker_size hw.path (by simp) hne] at hsum
    obtain ⟨rfl, -, hmarks⟩ := before_joined hw.path hn
    apply PredJoined.keeps hq (hn.path hp) hx hr3 (hn.stop ▸ hne)
    intro hfree
    rw [hmarks] at hfree ⊢
    have hroom := hfits q (by simp) hfree
    omega

lemma Removed.fits (hr : Removed h x (pre ++ x :: post) M t) (hw : WellFormed R h (pre ++ x :: post))
    (hne : x ≠ h.fsllEnd) (hbytes : freeBytes (entries t.marks M) =
      freeBytes (entries (freeMarker h x).heap.marks (pre ++ x :: post))) : FitsBefore h pre x := by
  have hp := free_path hw.path x
  have hend : ((freeMarker h x).heap.marks h.fsllEnd).free = false := by
    rw [freeMarker_of_ne hne.symm, hw.allocated]
  intro q hq' hfree
  cases hr with
  | first hn h0 =>
    subst h0
    rw [front_nil hw.path] at hq'
    cases hq'
  | @joined q₀ front back M c r hn hq =>
    have hkeeps := NextJoined.keeps hn hp (freeMarker_self h x) rfl hne hend
    obtain ⟨v, k, hx, hr3, hle, hk, hsum, -⟩ := NextJoined.sums hn hp (freeMarker_self h x) rfl hne
    rw [freeMarker_size hw.path (by simp) hne] at hsum
    obtain ⟨rfl, -, hmarks⟩ := before_joined hw.path hn
    obtain rfl : q₀ = q := by simpa using hq'
    have hsize := (hw.sizes x (by simp)).1
    have hfits := PredJoined.fits hq (hn.path hp) hx hr3 (hn.stop ▸ hne) (by omega) hk
      (hmarks ▸ hfree) (hbytes.trans hkeeps.bytes.symm)
    rw [hmarks] at hfits
    -- sizes are multiples of four
    have hq4 := hw.aligned q₀ (by simp)
    have hx4 := hw.aligned x (by simp)
    have hy4 : 4 ∣ freeSize h (h.next x) := by
      unfold freeSize
      split_ifs
      · exact hw.aligned _ (hw.path.next_mem (by simp))
      · exact dvd_zero 4
    omega

lemma freed_entries (hn : (pre ++ x :: post).Nodup) :
    entries (freeMarker h x).heap.marks (pre ++ x :: post) =
      entries h.marks pre ++ [⟨x, ((h.marks x).size, true)⟩] ++ entries h.marks post := by
  obtain ⟨hpre, hpost⟩ := nodup_split hn
  change entries (update h.marks x { h.marks x with half := uint16 _ }) _ = _
  rw [entries_append, entries_cons, entries_update hpre, entries_update hpost, update_self,
    block_free (size_lt _), List.append_assoc, List.singleton_append]

lemma at_replace (hat : At Entry.size (entries h.marks (pre ++ x :: post)) p e) (hne : e.slot ≠ x)
    {mid : List Entry} (hlen : total Entry.size mid = (h.marks x).size ∨ post = []) :
    At Entry.size (entries h.marks pre ++ mid ++ entries h.marks post) p e := by
  have hsplit : entries h.marks (pre ++ x :: post) =
      entries h.marks pre ++ [⟨x, block (h.marks x)⟩] ++ entries h.marks post := by simp
  rw [hsplit] at hat
  apply hat.replace
  · rcases hlen with hlen | rfl
    · exact Or.inl (by rw [hlen]; rfl)
    · exact Or.inr rfl
  · rintro i ⟨front, back, hmid, -⟩
    have hmem : e ∈ [(⟨x, block (h.marks x)⟩ : Entry)] := hmid ▸ by simp
    rw [List.mem_singleton] at hmem
    exact absurd (congrArg Entry.slot hmem) hne

lemma Removed.preserved (hr : Removed h x (pre ++ x :: post) M t) (hw : WellFormed R h (pre ++ x :: post))
    (hx : block (h.marks x) = (s, false)) (hne : x ≠ h.fsllEnd) (hfits : FitsBefore h pre x) :
    Preserved R h (pre ++ x :: post) x s t M := by
  have hkeeps := Removed.keeps hr hw hne hfits
  have hsize : (h.marks x).size = s := congrArg Prod.fst hx
  have hsizes : ∀ z ∈ pre ++ x :: post, 0 < (h.marks z).size := fun z hz => by
    have hle := (hw.sizes z hz).1
    omega
  rw [freed_entries hw.path.nodup] at hkeeps
  refine ⟨hr.path hw.path, fun p e hslot hfree hat => ?_, fun _ => ?_, fun he => absurd he hne, ?_⟩
  · have hpos : 0 < e.size := by
      obtain ⟨front, back, hL, hblock, -⟩ := at_entries hat
      have hpos := hsizes e.slot (hL ▸ by simp)
      rwa [Entry.size, ← hblock]
    exact hkeeps.kept p e hfree hpos (at_replace hat hslot (Or.inl (by simp [Entry.size])))
  · rw [hkeeps.bytes, hsize]
    simp [hx, Entry.freeSize, Entry.free, Entry.size]
    omega
  · apply hkeeps.count
    have hall := marked_entries hsizes
    rw [← hw.count, ← hall]
    have hpos : 0 < s := hsize ▸ hsizes x (by simp)
    simp [hx, marked, hsize, used_cons_pos hpos]

lemma Removed.at_end (hr : Removed h x (pre ++ [x]) M t) (hp : Path R h (pre ++ [x]))
    (he : x = h.fsllEnd) : t.blistSize = h.blistSize - 1 ∧ ∃ mid, (mid = [] ∨ mid = [⟨x, (0, false)⟩]) ∧
      entries t.marks M = entries h.marks pre ++ mid := by
  have hpre := (nodup_split hp.nodup).1
  have hcleared : entries ((freeMarker h x).heap.clear x).marks pre = entries h.marks pre := by
    change entries (update (update h.marks x _) x .empty) pre = _
    rw [entries_update hpre, entries_update hpre]
  have hempty : ((freeMarker h x).heap.clear x).marks x = .empty := update_self ..
  cases hr with
  | first hn h0 =>
    subst h0
    obtain rfl := front_nil hp
    obtain ⟨rfl, rfl⟩ := NextJoined.at_end hn (free_path hp _) he
    refine ⟨rfl, _, Or.inr rfl, ?_⟩
    change [(⟨_, block (((freeMarker h _).heap.clear h.fsllStart).marks h.fsllStart)⟩ : Entry)] = _
    rw [hempty]
    rfl
  | @joined q front back M c r hn hq =>
    obtain ⟨hL, rfl⟩ := NextJoined.at_end hn (free_path hp _) he
    obtain ⟨front', hL', rfl, rfl⟩ := PredJoined.at_end hq hempty
    have hlast : front' ++ [q] = pre := by
      have hL'' : (front' ++ [q]) ++ [x] = pre ++ [x] := by rw [← hL, hL']; simp
      exact List.append_cancel_right hL''
    refine ⟨rfl, [], Or.inl rfl, ?_⟩
    change entries (update _ q _) _ = _
    rw [entries_offset, hlast, hcleared, List.append_nil]

lemma Removed.dropped (hr : Removed h x (pre ++ [x]) M t) (hw : WellFormed R h (pre ++ [x]))
    (hx : block (h.marks x) = (s, false)) (he : x = h.fsllEnd) :
    Preserved R h (pre ++ [x]) x s t M := by
  have hsizes : ∀ z ∈ pre, 0 < (h.marks z).size := fun z hz => by
    have hle := (hw.sizes z (List.mem_append_left _ hz)).1
    omega
  obtain ⟨hcount, mid, hmid, hentries⟩ := Removed.at_end hr hw.path he
  have hlen := hw.count
  rw [List.length_append, List.length_singleton] at hlen
  refine ⟨hr.path hw.path, fun p e hslot _ hat => ?_, fun hne => absurd he hne, fun _ => ?_, ?_⟩
  · rw [hentries]
    have hat' := at_replace hat hslot (Or.inr rfl : total Entry.size mid = _ ∨ _)
    simpa using hat'
  · rw [hentries]
    rcases hmid with rfl | rfl <;> simp [hx, Entry.freeSize, Entry.free, Entry.size]
  · rw [hentries, marked_append, marked_entries hsizes, hcount, ← hlen]
    rcases hmid with rfl | rfl <;> simp [marked]

lemma located (hw : Chained R h (pre ++ x :: post)) :
    Located R h (R.hstart + total Prod.fst (blocks h.marks pre)) pre.length := by
  have hlen := hw.count
  rw [List.length_append, List.length_cons] at hlen
  refine located_split hw.path (by omega) fun y hy => ?_
  have hsize := (hw.sizes y (List.mem_append_left _ hy)).1
  omega

section Release

variable (hw : WellFormed R h (pre ++ x :: post)) (hx : block (h.marks x) = (s, false))

include hw

lemma found (hr : releaseAllocatedMarker R k h (R.hstart + total Prod.fst (blocks h.marks pre)) =
    some (p, t)) : p = t.blistSize ∧ ∃ M, Removed h x (pre ++ x :: post) M t := by
  have hl := located hw.toChained
  have hb : h.blistSize ≠ 0 := by
    have hlt := hl.lt
    omega
  have hfound := removed hw.path hb hl hr
  rwa [position_split hw.path] at hfound

include hx

lemma fits_of_preserves
    (hpres : Preserves R h (pre ++ x :: post) x s (R.hstart + total Prod.fst (blocks h.marks pre)))
    (hne : x ≠ h.fsllEnd) : FitsBefore h pre x := by
  obtain ⟨k, t, M, hk, hpres⟩ := hpres
  obtain ⟨-, N, hN⟩ := found hw (hk k le_rfl)
  obtain rfl := hpres.path.unique (hN.path hw.path)
  apply Removed.fits hN hw hne
  have hsize : (h.marks x).size = s := congrArg Prod.fst hx
  rw [hpres.freed hne, freed_entries hw.path.nodup]
  simp [hx, hsize, Entry.freeSize, Entry.free, Entry.size]
  omega

lemma preserves_of_fits (hfits : x ≠ h.fsllEnd → FitsBefore h pre x) :
    Preserves R h (pre ++ x :: post) x s (R.hstart + total Prod.fst (blocks h.marks pre)) := by
  have hb : h.blistSize ≠ 0 := by
    have hlt := (located hw.toChained).lt
    omega
  obtain ⟨k, ⟨p, t⟩, hk⟩ := release_returns
    (a := R.hstart + total Prod.fst (blocks h.marks pre)) hw.path hb
  obtain ⟨rfl, M, hM⟩ := found hw (hk k le_rfl)
  refine ⟨k, t, M, hk, ?_⟩
  by_cases hne : x = h.fsllEnd
  · obtain rfl := hw.path.after_end hne
    exact Removed.dropped hM hw hx hne
  · exact Removed.preserved hM hw hx hne (hfits hne)

end Release

theorem release_preserves (hw : WellFormed R h L)
    (hx : At Entry.size (entries h.marks L) p ⟨x, (s, false)⟩) :
    Preserves R h L x s (R.hstart + p) ↔ MergeFits R h (R.hstart + p) := by
  obtain ⟨pre, post, rfl, hblock, rfl⟩ := at_entries hx
  rw [mergeFits_iff hw.path (located hw.toChained)]
  exact ⟨fits_of_preserves hw hblock, preserves_of_fits hw hblock⟩

section Instances

def merging : List Request := [.allocate 8, .allocate 16, .allocate 4, .release 0x20001000]

/-- 32764 free bytes before a block of as many. -/
def overflowing : List Request :=
  [.allocate 32764, .allocate 32764, .allocate 4, .release 0x20001000]

theorem release_preserves_merged : ∃ c, Run (Serve kilobyte) fresh merging c ∧
    WellFormed kilobyte c.heap [255, 254, 253] ∧
    Preserves kilobyte c.heap [255, 254, 253] 254 16 0x20001008 := by
  have hsome : ((exec (serve kilobyte 300) fresh merging).any fun c => decide
      (Checked kilobyte c.heap [255, 254, 253] ∧ Roomy c.heap ∧
        block (c.heap.marks 254) = (16, false) ∧ (c.heap.marks 255).size = 8)) = true := by decide +kernel
  obtain ⟨c, hr, hc, hroom, h254, h255⟩ := exec_any_run serve_sound hsome
  have hat : At Entry.size (entries c.heap.marks [255, 254, 253]) 8 ⟨254, (16, false)⟩ :=
    ⟨[⟨255, block (c.heap.marks 255)⟩], [⟨253, block (c.heap.marks 253)⟩], by rw [← h254]; rfl,
      by rw [← h255]; rfl⟩
  refine ⟨c, hr, hc.wellFormed, (release_preserves hc.wellFormed hat).mpr fun j hl _ _ => ?_⟩
  exact hroom j (by have hlt := hl.lt; omega)

/-- The free flag of the merged marker overflows, so it is an allocated one of 32760 bytes. -/
theorem release_preserves_fails : ∃ c, Run (Serve kilobyte) fresh overflowing c ∧
    WellFormed kilobyte c.heap [255, 254, 253] ∧
    block (c.heap.marks 254) = (32764, false) ∧
    ¬ Preserves kilobyte c.heap [255, 254, 253] 254 32764 (0x20001000 + 32764) := by
  have hsome : ((exec (serve kilobyte 300) fresh overflowing).any fun c => decide
      (Checked kilobyte c.heap [255, 254, 253] ∧ c.heap.fsllEnd = 253 ∧
        block (c.heap.marks 254) = (32764, false) ∧ block (c.heap.marks 255) = (32764, true))) = true := by
    decide +kernel
  obtain ⟨c, hr, hc, hend, h254, h255⟩ := exec_any_run serve_sound hsome
  refine ⟨c, hr, hc.wellFormed, h254, fun hpres => ?_⟩
  have haddress : kilobyte.hstart + total Prod.fst (blocks c.heap.marks [255]) = 0x20001000 + 32764 := by
    rw [blocks_cons, h255]
    rfl
  have hfits := fits_of_preserves hc.wellFormed h254 (haddress ▸ hpres) (by rw [hend]; decide)
  have h255' : (c.heap.marks 255).size = 32764 ∧ (c.heap.marks 255).free = true := Prod.mk.inj h255
  have h254' : (c.heap.marks 254).size = 32764 := congrArg Prod.fst h254
  have hsum := hfits 255 (by simp) h255'.2
  omega

end Instances

end Skibios.Allocator.Releases

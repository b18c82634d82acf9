import Skibios.Allocator.Entries

/-! A marker appended to the list: the address it gets, and what it leaves of the others. -/

namespace Skibios.Allocator.Appending

open Function Library.Words Library.Loops Library.Segments Library.Runs
open Markers Paths Walks Outcomes Pools Layouts Overlap Entries

variable {R : Region} {h t : Heap} {L pre : List ℤ} {k n p : ℕ} {z : ℤ}

/-- The list of an empty heap has no marker yet, only a word for the first one. -/
inductive Appendable (R : Region) : Heap → List ℤ → Prop
  | initial (words : ℤ → Marker) : Appendable R (heapInit R words) []
  | chain {h : Heap} {L : List ℤ} (hc : Chained R h L) : Appendable R h L

structure Appended (R : Region) (h : Heap) (L : List ℤ) (n : ℕ) (z : ℤ) (p : ℕ) (t : Heap) : Prop where
  path : Path R t (L ++ [z])
  inside : 0 ≤ z ∧ z ≤ R.bstart
  vacant : h.marks z = .empty
  entries : entries t.marks (L ++ [z]) = entries h.marks L ++ [⟨z, (n, false)⟩]
  others : ∀ y, y ∉ L ++ [z] → t.marks y = h.marks y
  count : t.blistSize = h.blistSize + 1
  address : p = R.hstart + total Entry.size (Entries.entries h.marks L)

def Full (R : Region) (h : Heap) : Prop := ∀ z, 0 ≤ z → z ≤ R.bstart → h.marks z ≠ .empty

def Appends (R : Region) (h : Heap) (L : List ℤ) (n : ℕ) : Prop :=
  ∃ k p t, (∀ fuel, k ≤ fuel → addNewAllocatedMarker R fuel h n = some (p, t)) ∧
    ((p = 0 ∧ Full R h) ∨ ∃ z, Appended R h L n z p t)

lemma append_entries (hn : (pre ++ [z]).Nodup) (hlt : n < 32768) :
    entries (appendMarker h z n).marks (pre ++ [z]) = entries h.marks pre ++ [⟨z, (n, false)⟩] := by
  have hset : entries (appendMarker h z n).marks (pre ++ [z]) = entries (h.setHalf z n).marks (pre ++ [z]) :=
    entries_offset
  rw [hset, entries_append, entries_cons, entries_nil]
  change entries (update h.marks z _) _ ++ [⟨z, block (update h.marks z _ z)⟩] = _
  rw [entries_update (nodup_split hn).1, update_self, block_allocated hlt]

lemma append_others {y : ℤ} (hz : y ≠ z) (he : y ≠ h.fsllEnd) :
    (appendMarker h z n).marks y = h.marks y := by
  change update (update h.marks z _) h.fsllEnd _ y = _
  rw [update_of_ne he, update_of_ne hz]

lemma walk_address (hp : Path R (appendMarker h z n) (L ++ [z])) (hlt : n < 32768)
    (hw : runLoop (walkTurn (appendMarker h z n) z) k ((appendMarker h z n).fsllStart, R.hstart) = some p) :
    p = R.hstart + total Entry.size (entries h.marks L) := by
  have hsum : total Entry.size (entries (appendMarker h z n).marks L) = total Entry.size (entries h.marks L) := by
    have hall := append_entries (h := h) hp.nodup hlt
    rw [entries_append, entries_cons, entries_nil] at hall
    rw [(List.append_inj' hall rfl).1]
  rw [runLoop_unique hw (walk_path hp), ← hsum, total_entries, total_blocks]

lemma Chained.appended (hc : Chained R h L) (hlt : n < 32768)
    (hr : runLoop (addTurn R h) k (R.bstart, 0) = some (some z))
    (hw : runLoop (walkTurn (appendMarker h z n) z) k ((appendMarker h z n).fsllStart, R.hstart) = some p) :
    Appended R h L n z p
      { appendMarker h z n with blistSize := (appendMarker h z n).blistSize + 1 } := by
  obtain ⟨i, hi, rfl, hempty, -⟩ := add_found hr
  have hz : R.bstart - i ∉ L := by
    intro hmem
    have hsize := (hc.sizes _ hmem).1
    rw [hempty] at hsize
    exact absurd hsize (by decide)
  have hp : Path R (appendMarker h (R.bstart - i) n) (L ++ [R.bstart - i]) := by
    have hv := add_some hr
    exact hc.path.append hz hempty ⟨hv.ge, hv.le⟩
  refine ⟨hp.congr rfl rfl fun _ _ => rfl, ⟨?_, by omega⟩, hempty, append_entries hp.nodup hlt,
    fun y hy => ?_, rfl, walk_address hp hlt hw⟩
  · unfold Region.bstart
    omega
  · rw [List.mem_append, List.mem_singleton, not_or] at hy
    exact append_others hy.2 fun he => hy.1 (he ▸ hc.path.end_mem)

lemma bstart_nonneg (R : Region) : 0 ≤ R.bstart := by
  have hpos := R.kilobytes_pos
  unfold Region.bstart Region.words
  omega

lemma initial_empty (R : Region) (words : ℤ → Marker) : (heapInit R words).marks R.bstart = .empty := by
  have hpos := R.kilobytes_pos
  apply if_pos
  unfold Region.bstart Region.words
  omega

lemma initial_found (words : ℤ → Marker)
    (hr : runLoop (addTurn R (heapInit R words)) k (R.bstart, 0) = some (some z)) : z = R.bstart := by
  have hpos := R.kilobytes_pos
  have hturn : addTurn R (heapInit R words) (R.bstart, 0) = .leave (some R.bstart) := by
    have hin : InRange (R.bstart - (heapInit R words).fsllEnd) := by
      change InRange (R.bstart - R.bstart)
      rw [sub_self]
      decide
    rw [addTurn, if_neg (by unfold Region.words; omega), if_pos (initial_empty R words), if_pos hin]
  have hrun := runLoop_leave (n := 0) hturn
  exact Option.some.inj (runLoop_unique hr hrun)

lemma initial_appended (words : ℤ → Marker) (hlt : n < 32768)
    (hw : runLoop (walkTurn (appendMarker (heapInit R words) R.bstart n) R.bstart) k
      ((appendMarker (heapInit R words) R.bstart n).fsllStart, R.hstart) = some p) :
    Appended R (heapInit R words) [] n R.bstart p
      { appendMarker (heapInit R words) R.bstart n with
        blistSize := (appendMarker (heapInit R words) R.bstart n).blistSize + 1 } := by
  have hp : Path R (appendMarker (heapInit R words) R.bstart n) ([] ++ [R.bstart]) :=
    (initial_path R words).refill
  refine ⟨hp.congr rfl rfl fun _ _ => rfl, ⟨bstart_nonneg R, le_rfl⟩, initial_empty R words,
    append_entries hp.nodup hlt, fun y hy => ?_, rfl, walk_address hp hlt hw⟩
  have hne : y ≠ R.bstart := by simpa using hy
  exact append_others hne hne

lemma Appendable.path (hL : Appendable R h L) : ∃ M, Path R h M := by
  cases hL with
  | initial words => exact ⟨_, initial_path R words⟩
  | chain hc => exact ⟨_, hc.path⟩

lemma spare_of_appends (ha : Appends R h L n) : Spare R h ∨ Full R h := by
  obtain ⟨k, p, t, hk, ⟨-, hfull⟩ | ⟨z, happ⟩⟩ := ha
  · exact Or.inr hfull
  · obtain ⟨-, -, rfl⟩ | ⟨z, hr, -, -⟩ := add_cases (hk k le_rfl)
    · have hcount := happ.count
      omega
    · exact Or.inl (add_spare hr)

theorem append_marker (hL : Appendable R h L) (hle : n ≤ 32764) :
    Appends R h L n ↔ Spare R h ∨ Full R h := by
  refine ⟨spare_of_appends, fun hspare => ?_⟩
  obtain ⟨M, hp⟩ := hL.path
  obtain ⟨k, ⟨p, t⟩, hk⟩ := add_returns (n := n) hp
  refine ⟨k, p, t, hk, ?_⟩
  obtain ⟨hr, rfl, rfl⟩ | ⟨z, hr, hw, rfl⟩ := add_cases (hk k le_rfl)
  · have hnone := add_none (hp.bounds _ hp.end_mem) hr
    exact Or.inl ⟨rfl, hspare.resolve_left hnone⟩
  · refine Or.inr ⟨z, ?_⟩
    cases hL with
    | initial words =>
      obtain rfl := initial_found words hr
      exact initial_appended words (by omega) hw
    | chain hc => exact Chained.appended hc (by omega) hr hw

section Instances

def three : List Request := [.allocate 8, .allocate 16, .allocate 4]

theorem append_marker_three : ∃ c, Run (Serve kilobyte) fresh three c ∧
    Chained kilobyte c.heap [255, 254, 253] ∧ Appends kilobyte c.heap [255, 254, 253] 12 := by
  have hsome : ((exec (serve kilobyte 300) fresh three).any fun c => decide
      (Checked kilobyte c.heap [255, 254, 253] ∧ c.heap.marks 252 = .empty)) = true := by decide +kernel
  obtain ⟨c, hr, hc, h252⟩ := exec_any_run serve_sound hsome
  have hchain := hc.wellFormed.toChained
  have hword : kilobyte.bstart - (3 : ℕ) = 252 := by decide +kernel
  have hspare : Spare kilobyte c.heap := ⟨3, by decide +kernel, hword ▸ h252⟩
  exact ⟨c, hr, hchain, (append_marker (.chain hchain) (by omega)).mpr (Or.inl hspare)⟩

/-- What 64 allocations of 4 bytes make of a kilobyte: the markers take the words from 255 to 192. -/
def crowded : Heap where
  marks z := if 192 ≤ z ∧ z ≤ 255 then ⟨4, if z = 192 then 0 else -1⟩ else .empty
  fsllStart := 255
  fsllEnd := 192
  blistSize := 64
  heapRemaining := 0x3F000 - 256

def downTo : List ℤ := (List.range 64).map fun i => 255 - i

theorem append_marker_fails : Chained kilobyte crowded downTo ∧
    (∀ z, 0 ≤ z → z < 192 → crowded.marks z = .empty) ∧ ¬ Appends kilobyte crowded downTo 4 := by
  have hc : Checked kilobyte crowded downTo := by decide +kernel
  have hempty : ∀ z, 0 ≤ z → z < 192 → crowded.marks z = .empty := fun z _ hz =>
    if_neg fun h => absurd h.1 (not_le.mpr hz)
  refine ⟨hc.wellFormed.toChained, hempty, fun ha => ?_⟩
  rcases spare_of_appends ha with ⟨i, hi, hword⟩ | hfull
  · have hbstart : kilobyte.bstart = 255 := by decide +kernel
    have hwords : kilobyte.words = 256 := by decide +kernel
    have hhalf : (crowded.marks (kilobyte.bstart - i)).half = 4 := by
      rw [crowded]
      dsimp only
      rw [if_pos (by omega)]
    rw [hword] at hhalf
    exact absurd hhalf (by decide)
  · exact hfull 0 le_rfl (by decide) (hempty 0 le_rfl (by decide))

end Instances

end Skibios.Allocator.Appending

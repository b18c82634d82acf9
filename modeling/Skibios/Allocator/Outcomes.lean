import Skibios.Allocator.Walks
import Skibios.Library.Segments

/-! What the services do to the heap, in terms of the markers that the loops find. -/

namespace Skibios.Allocator.Outcomes

open Function Library.Words Library.Loops Library.Chains Library.Segments Markers Paths Walks

variable {R : Region} {h t : Heap} {L M pre post : List ℤ} {a j k n p : ℕ} {q x y z : ℤ}
  {c d : Registers}

/-- `r1` gets `n` bytes, and the word `r2` the rest. -/
def cut (h : Heap) (r1 r2 : ℤ) (n : ℕ) : Heap :=
  let t := splitMarker h r1 r2 ((h.marks r1).size - n)
  t.1.setHalf r1 (t.2 + n)

inductive Searched (R : Region) (h : Heap) (n : ℕ) : ℕ → Heap → Prop
  | none : Searched R h n 0 h
  | whole {j : ℕ} (hc : Chosen h n j) :
      Searched R h n (addressAt R h j) (h.setHalf (position h j) (h.marks (position h j)).size)
  | split {j : ℕ} {z : ℤ} (hc : Chosen h n j) (hn : (h.marks (position h j)).size ≠ n)
      (hz : Lowest R h z) : Searched R h n (addressAt R h j) (cut h (position h j) z n)

lemma search_cases (hs : searchFreeMarker R k h n = some (p, t)) :
    (p = 0 ∧ t = h ∧ ∀ j < h.blistSize, ¬ Fits h n (position h j)) ∨
      ∃ j, Chosen h n j ∧ p = addressAt R h j ∧
        (((h.marks (position h j)).size = n ∨ ¬ ∃ z, Lowest R h z) ∧
            t = h.setHalf (position h j) (h.marks (position h j)).size ∨
          (h.marks (position h j)).size ≠ n ∧ ∃ z, Lowest R h z ∧ t = cut h (position h j) z n) := by
  obtain ⟨r, hr, hs⟩ := Option.bind_eq_some_iff.mp hs
  cases r with
  | none =>
    obtain ⟨rfl, rfl⟩ := Prod.mk.inj (Option.some.inj hs)
    exact Or.inl ⟨rfl, rfl, search_none hr⟩
  | some c =>
    obtain ⟨j, hc, rfl⟩ := search_some hr
    have hle := hc.fits.2
    have hsize := Nat.sub_add_cancel hle
    dsimp only [cursorAt] at hs
    rw [hsize] at hs
    refine Or.inr ⟨j, hc, ?_⟩
    split_ifs at hs with hrest
    · obtain ⟨rfl, rfl⟩ := Prod.mk.inj (Option.some.inj hs)
      exact ⟨rfl, Or.inl ⟨Or.inl (by omega), rfl⟩⟩
    · obtain ⟨r, hr, hs⟩ := Option.map_eq_some_iff.mp hs
      cases r with
      | none =>
        obtain ⟨rfl, rfl⟩ := Prod.mk.inj hs
        exact ⟨rfl, Or.inl ⟨Or.inr fun ⟨z, hz⟩ => split_none hr z hz, rfl⟩⟩
      | some z =>
        obtain ⟨rfl, rfl⟩ := Prod.mk.inj hs
        exact ⟨rfl, Or.inr ⟨by omega, z, split_some hr, rfl⟩⟩

lemma searched (hs : searchFreeMarker R k h n = some (p, t)) : Searched R h n p t := by
  obtain ⟨rfl, rfl, -⟩ | ⟨j, hc, rfl, ⟨-, rfl⟩ | ⟨hn, z, hz, rfl⟩⟩ := search_cases hs
  · exact .none
  · exact .whole hc
  · exact .split hc hn hz

lemma Searched.null (hs : Searched R h n p t) (hp : p = 0) : t = h := by
  cases hs with
  | none => rfl
  | whole | split => exact absurd hp (address_pos R h _).ne'

lemma search_returns (R : Region) (h : Heap) (n : ℕ) :
    Returns fun fuel => searchFreeMarker R fuel h n := by
  apply Returns.bind (Returns.loop (search_leaves R h n))
  intro _ r _
  cases r with
  | none => exact Returns.pure _
  | some c =>
    dsimp only
    split_ifs
    · exact Returns.pure _
    · exact (Returns.loop (split_leaves R h)).map _

inductive Added (R : Region) (h : Heap) (n : ℕ) : ℕ → Heap → Prop
  | full : Added R h n 0 h
  | appended {z : ℤ} {k p : ℕ} (hz : Vacant R h z) (hw : runLoop (walkTurn (appendMarker h z n) z) k
      ((appendMarker h z n).fsllStart, R.hstart) = some p) :
      Added R h n p { appendMarker h z n with blistSize := (appendMarker h z n).blistSize + 1 }

lemma add_cases (ha : addNewAllocatedMarker R k h n = some (p, t)) :
    (runLoop (addTurn R h) k (R.bstart, 0) = some none ∧ p = 0 ∧ t = h) ∨
      ∃ z, runLoop (addTurn R h) k (R.bstart, 0) = some (some z) ∧
        runLoop (walkTurn (appendMarker h z n) z) k ((appendMarker h z n).fsllStart, R.hstart) = some p ∧
        t = { appendMarker h z n with blistSize := (appendMarker h z n).blistSize + 1 } := by
  obtain ⟨r, hr, ha⟩ := Option.bind_eq_some_iff.mp ha
  cases r with
  | none =>
    obtain ⟨rfl, rfl⟩ := Prod.mk.inj (Option.some.inj ha)
    exact Or.inl ⟨hr, rfl, rfl⟩
  | some z =>
    obtain ⟨r5, hw, ha⟩ := Option.map_eq_some_iff.mp ha
    obtain ⟨rfl, rfl⟩ := Prod.mk.inj ha
    exact Or.inr ⟨z, hr, hw, rfl⟩

lemma added (ha : addNewAllocatedMarker R k h n = some (p, t)) : Added R h n p t := by
  obtain ⟨-, rfl, rfl⟩ | ⟨z, hr, hw, rfl⟩ := add_cases ha
  · exact .full
  · exact .appended (add_some hr) hw

lemma append_path (hp : Path R h L) (hz : Vacant R h z) :
    (z ∉ L ∧ Path R (appendMarker h z n) (L ++ [z])) ∨
      z = h.fsllEnd ∧ ∃ pre, L = pre ++ [z] ∧ Path R (appendMarker h z n) (pre ++ [z]) := by
  by_cases hmem : z ∈ L
  · right
    obtain rfl := hp.empty_mem hmem hz.empty
    obtain ⟨-, pre, rfl⟩ | ⟨hne, -⟩ := hp.cases_mem hmem
    · exact ⟨rfl, pre, rfl, hp.refill⟩
    · exact absurd rfl hne
  · exact Or.inl ⟨hmem, hp.append hmem hz.empty ⟨hz.ge, hz.le⟩⟩

lemma walk_path (hp : Path R t (pre ++ [z])) : runLoop (walkTurn t z) (pre.length + 1)
    (t.fsllStart, R.hstart) = some (R.hstart + total (fun x => (t.marks x).size) pre) := by
  have hseek := hp.linked.seek (nodup_split hp.nodup).1 hp.first
    (fun x acc => acc + (t.marks x).size) R.hstart
  rw [foldl_total] at hseek
  exact hseek

lemma add_returns (hp : Path R h L) : Returns fun fuel => addNewAllocatedMarker R fuel h n := by
  apply Returns.bind (Returns.loop (add_leaves R h))
  intro k r hr
  cases r with
  | none => exact Returns.pure _
  | some z =>
    have hwalk : ∃ k p, runLoop (walkTurn (appendMarker h z n) z) k
        ((appendMarker h z n).fsllStart, R.hstart) = some p := by
      obtain ⟨-, hp'⟩ | ⟨-, pre, -, hp'⟩ := append_path hp (add_some hr)
      · exact ⟨_, _, walk_path hp'⟩
      · exact ⟨_, _, walk_path hp'⟩
    exact (Returns.loop hwalk).map _

inductive Allocated (R : Region) (h : Heap) (n : ℕ) : ℕ → Heap → Prop
  | searched {p : ℕ} {t : Heap} (hp : 0 < p) (hs : Searched R h n p t) : Allocated R h n p t
  | added {p : ℕ} {t : Heap} (ha : Added R h n p t) : Allocated R h n p t

lemma allocated (hf : findMarker R k h n = some (p, t)) : Allocated R h n p t := by
  unfold findMarker at hf
  split_ifs at hf
  · exact .added (added hf)
  · obtain ⟨⟨q, u⟩, hs, ha⟩ := Option.bind_eq_some_iff.mp hf
    have hs := searched hs
    dsimp only at ha
    split_ifs at ha with hq
    · rw [hs.null hq] at ha
      exact .added (added ha)
    · obtain ⟨rfl, rfl⟩ := Prod.mk.inj (Option.some.inj ha)
      exact .searched (Nat.pos_of_ne_zero hq) hs

lemma find_returns (hp : Path R h L) : Returns fun fuel => findMarker R fuel h n := by
  unfold findMarker
  split_ifs
  · exact add_returns hp
  · apply Returns.bind (search_returns R h n)
    rintro k ⟨p, t⟩ hs
    dsimp only
    split_ifs with hnull
    · obtain rfl := (searched hs).null hnull
      exact add_returns hp
    · exact Returns.pure _

/-- The first marker with room for `n` bytes is not the last one when it is split, and the word of
the last marker is taken only from the marker before it. -/
def SplitSafe (R : Region) (h : Heap) (n : ℕ) : Prop :=
  ∀ j z, Chosen h n j → (h.marks (position h j)).size ≠ n → Lowest R h z →
    position h j ≠ h.fsllEnd ∧ (z = h.fsllEnd → h.next (position h j) = h.fsllEnd)

inductive Inserted (x z : ℤ) : List ℤ → List ℤ → Prop
  | inside {pre post : List ℤ} {y : ℤ} (hz : z ∉ pre ++ x :: y :: post) :
      Inserted x z (pre ++ x :: y :: post) (pre ++ x :: z :: y :: post)
  | tail {pre : List ℤ} : Inserted x z (pre ++ [x, z]) (pre ++ [x, z])

lemma inserted (hp : Path R h L) (hx : x ∈ L) (hz : h.marks z = .empty) (hne : x ≠ h.fsllEnd)
    (hend : z = h.fsllEnd → h.next x = h.fsllEnd) : ∃ M, Inserted x z L M := by
  obtain ⟨he, -⟩ | ⟨-, pre, post, hL⟩ := hp.cases_mem hx
  · exact absurd he hne
  by_cases hmem : z ∈ L
  · have hze := hp.empty_mem hmem hz
    rw [hend hze, ← hze] at hL
    subst hL
    have happ : pre ++ x :: z :: post = (pre ++ [x]) ++ z :: post := by simp
    rw [happ] at hp
    obtain rfl := hp.after_end hze
    exact ⟨_, .tail⟩
  · rw [hL] at hmem ⊢
    exact ⟨_, .inside hmem⟩

lemma Inserted.ne (hi : Inserted x z L M) (hp : Path R h L) : x ≠ z := by
  cases hi with
  | inside hz =>
    rintro rfl
    simp at hz
  | tail => exact (nodup_pair hp.nodup).1

lemma Inserted.mem (hi : Inserted x z L M) (hy : y ∈ M) : y = z ∨ y ∈ L := by
  cases hi with
  | inside =>
    simp only [List.mem_append, List.mem_cons] at hy ⊢
    tauto
  | tail => exact Or.inr hy

lemma cut_eq (hp : Path R h L) (hi : Inserted x z L M) (hx : x ∈ L) (hz : Lowest R h z) :
    cut h x z n = (linkSplit h x z ((h.marks x).size - n)).setHalf x n := by
  have hb := hp.bounds x hx
  rw [cut, splitMarker_eq hb ⟨hz.ge, hz.lt.le⟩ (hp.bounds _ (hp.next_mem hx)) (hi.ne hp)]
  dsimp only
  rw [zero_add]

lemma Inserted.path (hi : Inserted x z L M) (hp : Path R h L) (hx : x ∈ L) (hz : Lowest R h z) :
    Path R (cut h x z n) M := by
  rw [cut_eq hp hi hx hz]
  apply Path.setHalf
  cases hi with
  | inside hmem => exact hp.split hmem ⟨hz.ge, hz.lt.le⟩
  | tail => exact hp.split_end

lemma Allocated.path (ha : Allocated R h n p t) (hp : Path R h L) (hs : SplitSafe R h n) :
    ∃ M, Path R t M := by
  cases ha with
  | searched _ hs' =>
    cases hs' with
    | none => exact ⟨L, hp⟩
    | whole => exact ⟨L, hp.setHalf _ _⟩
    | @split j z hc hn hz =>
      obtain ⟨hne, hend⟩ := hs j z hc hn hz
      obtain ⟨M, hi⟩ := inserted hp (position_mem hp j) hz.empty hne hend
      exact ⟨M, hi.path hp (position_mem hp j) hz⟩
  | added ha =>
    cases ha with
    | full => exact ⟨L, hp⟩
    | appended hz =>
      obtain ⟨-, hp'⟩ | ⟨-, pre, -, hp'⟩ := append_path hp hz
      · exact ⟨_, hp'.congr rfl rfl fun _ _ => rfl⟩
      · exact ⟨_, hp'.congr rfl rfl fun _ _ => rfl⟩

inductive NextJoined (c : Registers) (x : ℤ) : List ℤ → List ℤ → Registers → Prop
  | deleted {pre : List ℤ} (he : x = c.heap.fsllEnd) :
      NextJoined c x (pre ++ [x]) (pre ++ [x]) ⟨c.heap.clear x, c.r3, c.r6 - 1⟩
  | apart {pre post : List ℤ} {y : ℤ} (hy : (c.heap.marks y).free = false) :
      NextJoined c x (pre ++ x :: y :: post) (pre ++ x :: y :: post) c
  | large {pre post : List ℤ} {y : ℤ} (hy : (c.heap.marks y).free = true)
      (hs : 0xFFFF ≤ c.r3 + (c.heap.marks y).size) : NextJoined c x (pre ++ x :: y :: post)
        (pre ++ x :: y :: post) ⟨c.heap, c.r3 + (c.heap.marks y).size, c.r6⟩
  | merged {pre post : List ℤ} {y b : ℤ} (hy : (c.heap.marks y).free = true)
      (hs : c.r3 + (c.heap.marks y).size < 0xFFFF) : NextJoined c x (pre ++ x :: y :: b :: post)
        (pre ++ x :: b :: post) ⟨mergeMarkers c.heap x y (y - x + (c.heap.marks y).offset)
          (c.r3 + (c.heap.marks y).size), c.r3 + (c.heap.marks y).size, c.r6 - 1⟩
  | mergedLast {pre : List ℤ} {y : ℤ} (hy : (c.heap.marks y).free = true)
      (hs : c.r3 + (c.heap.marks y).size < 0xFFFF) : NextJoined c x (pre ++ [x, y])
        (pre ++ [x, y]) ⟨mergeMarkers c.heap x y (y - x + (c.heap.marks y).offset)
          (c.r3 + (c.heap.marks y).size), c.r3 + (c.heap.marks y).size, c.r6 - 1⟩

lemma NextJoined.path (hj : NextJoined c x L M d) (hp : Path R c.heap L) : Path R d.heap M := by
  cases hj with
  | deleted he => exact he ▸ hp.clear_end
  | apart | large => exact hp
  | merged => exact hp.merge
  | mergedLast => exact hp.merge_last

lemma merge_range (hp : Path R h (pre ++ x :: y :: post)) :
    InRange (y - x + (h.marks y).offset) := by
  have hx : x ∈ pre ++ x :: y :: post := by simp
  have hy : y ∈ pre ++ x :: y :: post := by simp
  have hin := in_range (hp.bounds _ (hp.next_mem hy)) (hp.bounds x hx)
  have heq : h.next y - x = y - x + (h.marks y).offset := by
    rw [Heap.next]
    omega
  rwa [heq] at hin

lemma nextJoined (hp : Path R c.heap L) (hx : x ∈ L) : ∃ M, NextJoined c x L M (joinNext c x) := by
  obtain ⟨he, pre, rfl⟩ | ⟨-, pre, post, hL⟩ := hp.cases_mem hx
  · have htail : (c.heap.marks x).offset = 0 := he ▸ hp.tail
    refine ⟨pre ++ [x], ?_⟩
    rw [joinNext, if_pos htail]
    exact .deleted he
  · generalize hy : c.heap.next x = y at hL
    subst hL
    have hlink : (c.heap.marks x).offset = y - x := offset_of_next hy
    have hne : x ≠ y := (nodup_pair hp.nodup).1
    have hr4 : (c.heap.marks x).offset ≠ 0 := by omega
    have hr2 : x + (c.heap.marks x).offset = y := by omega
    have hin := merge_range hp
    rw [joinNext, if_neg hr4]
    dsimp only
    rw [hr2]
    split_ifs with hfree hsize
    · exact ⟨_, .apart hfree⟩
    · exact ⟨_, .large (by simpa using hfree) hsize⟩
    · have hfree : (c.heap.marks y).free = true := by simpa using hfree
      cases post with
      | nil => exact ⟨_, .mergedLast hfree (not_le.mp hsize)⟩
      | cons b post => exact ⟨_, .merged hfree (not_le.mp hsize)⟩

inductive PredJoined (c : Registers) (q x : ℤ) : List ℤ → List ℤ → Registers → Prop
  | dropped {pre : List ℤ} (hx : c.heap.marks x = .empty) : PredJoined c q x (pre ++ [q, x])
      (pre ++ [q]) ⟨{ c.heap.setOffset q 0 with fsllEnd := q }, c.r3, c.r6⟩
  | apart {pre post : List ℤ} (hx : c.heap.marks x ≠ .empty) (hq : (c.heap.marks q).free = false) :
      PredJoined c q x (pre ++ q :: x :: post) (pre ++ q :: x :: post) c
  | merged {pre post : List ℤ} {b : ℤ} (hx : c.heap.marks x ≠ .empty)
      (hq : (c.heap.marks q).free = true) : PredJoined c q x (pre ++ q :: x :: b :: post)
        (pre ++ q :: b :: post) ⟨mergeMarkers c.heap q x (x - q + (c.heap.marks x).offset)
          (c.r3 + (c.heap.marks q).size), c.r3 + (c.heap.marks q).size, c.r6 - 1⟩
  | mergedLast {pre : List ℤ} (hx : c.heap.marks x ≠ .empty) (hq : (c.heap.marks q).free = true) :
      PredJoined c q x (pre ++ [q, x]) (pre ++ [q, x])
        ⟨mergeMarkers c.heap q x (x - q + (c.heap.marks x).offset)
          (c.r3 + (c.heap.marks q).size), c.r3 + (c.heap.marks q).size, c.r6 - 1⟩

lemma PredJoined.path (hj : PredJoined c q x L M d) (hp : Path R c.heap L) : Path R d.heap M := by
  cases hj with
  | dropped => exact hp.drop_end
  | apart => exact hp
  | merged => exact hp.merge
  | mergedLast => exact hp.merge_last

lemma predJoined (hp : Path R c.heap (pre ++ q :: x :: post)) :
    ∃ M, PredJoined c q x (pre ++ q :: x :: post) M (joinPred c x q) := by
  have hin := merge_range hp
  unfold joinPred
  dsimp only
  split_ifs with hempty hfree
  · have he : x = c.heap.fsllEnd := hp.empty_mem (by simp) hempty
    rw [← List.singleton_append, ← List.append_assoc] at hp
    obtain rfl := hp.after_end he
    exact ⟨_, .dropped hempty⟩
  · exact ⟨_, .apart hempty hfree⟩
  · have hfree : (c.heap.marks q).free = true := by simpa using hfree
    cases post with
    | nil => exact ⟨_, .mergedLast hempty hfree⟩
    | cons b post => exact ⟨_, .merged hempty hfree⟩

lemma NextJoined.start (hj : NextJoined c x L M d) : d.heap.fsllStart = c.heap.fsllStart := by
  cases hj <;> rfl

lemma NextJoined.stop (hj : NextJoined c x L M d) : d.heap.fsllEnd = c.heap.fsllEnd := by
  cases hj <;> rfl

lemma NextJoined.mem (hj : NextJoined c x L M d) : x ∈ M := by
  cases hj <;> simp

lemma NextJoined.subset (hj : NextJoined c x L M d) : M ⊆ L := by
  cases hj with
  | deleted | apart | large | mergedLast => exact List.Subset.refl _
  | merged =>
    intro w hw
    simp only [List.mem_append, List.mem_cons] at hw ⊢
    tauto

lemma PredJoined.subset (hj : PredJoined c q x L M d) : M ⊆ L := by
  cases hj with
  | apart | mergedLast => exact List.Subset.refl _
  | dropped | merged =>
    intro w hw
    simp only [List.mem_append, List.mem_cons] at hw ⊢
    tauto

lemma pred_mem (hp : Path R h L) (hx : x ∈ L) (hne : x ≠ h.fsllStart) :
    ∃ pre q post, L = pre ++ q :: x :: post := by
  obtain ⟨pre, post, rfl⟩ := List.append_of_mem hx
  rcases List.eq_nil_or_concat pre with rfl | ⟨pre, q, rfl⟩
  · exact absurd (Option.some.inj hp.first) hne
  · exact ⟨pre, q, post, by simp⟩

lemma pred_path (hp : Path R t (pre ++ q :: x :: post)) :
    runLoop (predTurn t x) (pre.length + 2) (t.fsllStart, x) = some q := by
  have happ : pre ++ q :: x :: post = (pre ++ [q]) ++ x :: post := by simp
  rw [happ] at hp
  have hseek := hp.linked.seek (nodup_split hp.nodup).1 hp.first (fun y _ => y) x
  rw [List.foldl_concat, List.length_append] at hseek
  exact hseek

lemma free_path (hp : Path R h L) (x : ℤ) : Path R (freeMarker h x).heap L :=
  (hp.setHalf x _).congr rfl rfl fun _ _ => rfl

def settle (d : Registers) : Heap := { d.heap with blistSize := d.r6 }

inductive Removed (h : Heap) (x : ℤ) (L : List ℤ) : List ℤ → Heap → Prop
  | first {M : List ℤ} {d : Registers} (hn : NextJoined (freeMarker h x) x L M d)
      (h0 : x = h.fsllStart) : Removed h x L M (settle d)
  | joined {q : ℤ} {pre post M : List ℤ} {d e : Registers}
      (hn : NextJoined (freeMarker h x) x L (pre ++ q :: x :: post) d)
      (hq : PredJoined d q x (pre ++ q :: x :: post) M e) : Removed h x L M (settle e)

lemma Removed.path (hr : Removed h x L M t) (hp : Path R h L) : Path R t M := by
  cases hr with
  | first hn => exact (hn.path (free_path hp _)).congr rfl rfl fun _ _ => rfl
  | joined hn hq => exact (hq.path (hn.path (free_path hp _))).congr rfl rfl fun _ _ => rfl

lemma Removed.subset (hr : Removed h x L M t) : M ⊆ L := by
  cases hr with
  | first hn => exact hn.subset
  | joined hn hq => exact List.Subset.trans hq.subset hn.subset

inductive Released (R : Region) (h : Heap) (a : ℕ) (L : List ℤ) : List ℤ → Heap → Prop
  | missing : Released R h a L L h
  | first {j : ℕ} {M : List ℤ} {d : Registers} (hl : Located R h a j)
      (hn : NextJoined (freeMarker h (position h j)) (position h j) L M d)
      (h0 : position h j = h.fsllStart) : Released R h a L M (settle d)
  | joined {j : ℕ} {q : ℤ} {pre post M : List ℤ} {d e : Registers} (hl : Located R h a j)
      (hn : NextJoined (freeMarker h (position h j)) (position h j) L
        (pre ++ q :: position h j :: post) d)
      (hq : PredJoined d q (position h j) (pre ++ q :: position h j :: post) M e) :
      Released R h a L M (settle e)

lemma Released.path (hr : Released R h a L M t) (hp : Path R h L) : Path R t M := by
  cases hr with
  | missing => exact hp
  | first _ hn h0 => exact (Removed.first hn h0).path hp
  | joined _ hn hq => exact (Removed.joined hn hq).path hp

lemma joined_or_first (hp : Path R h L) (j : ℕ) :
    ∃ M, NextJoined (freeMarker h (position h j)) (position h j) L M
        (joinNext (freeMarker h (position h j)) (position h j)) ∧
      (position h j ≠ h.fsllStart → ∃ pre q post, M = pre ++ q :: position h j :: post) := by
  obtain ⟨M, hn⟩ := nextJoined (free_path hp (position h j)) (position_mem hp j)
  refine ⟨M, hn, fun hne => pred_mem (hn.path (free_path hp _)) hn.mem ?_⟩
  rw [hn.start]
  exact hne

lemma removed (hp : Path R h L) (hb : h.blistSize ≠ 0) (hl : Located R h a j)
    (hr : releaseAllocatedMarker R k h a = some (p, t)) :
    p = t.blistSize ∧ ∃ M, Removed h (position h j) L M t := by
  obtain ⟨o, hf, hr⟩ := Option.bind_eq_some_iff.mp hr
  cases o with
  | none => exact absurd hl (find_none hb hf j)
  | some z =>
    obtain ⟨i, hi, rfl⟩ := find_some hb hf
    obtain rfl := hi.unique hl
    obtain ⟨M, hn, hne⟩ := joined_or_first hp i
    have hstart : (joinNext _ _).heap.fsllStart = h.fsllStart := hn.start
    dsimp only at hr
    split_ifs at hr with h0
    · obtain ⟨rfl, rfl⟩ := Prod.mk.inj (Option.some.inj hr)
      exact ⟨rfl, M, .first hn (h0.symm.trans hstart)⟩
    · obtain ⟨pre, q, post, rfl⟩ := hne fun he => h0 (hstart.trans he.symm)
      have hpath := hn.path (free_path hp _)
      obtain ⟨r2, hw, hr⟩ := Option.map_eq_some_iff.mp hr
      obtain rfl : r2 = q := runLoop_unique hw (pred_path hpath)
      obtain ⟨N, hq⟩ := predJoined hpath
      obtain ⟨rfl, rfl⟩ := Prod.mk.inj hr
      exact ⟨rfl, N, .joined hn hq⟩

lemma release_missing (hb : h.blistSize ≠ 0) (hnone : ∀ j, ¬ Located R h a j)
    (hr : releaseAllocatedMarker R k h a = some (p, t)) : p = 0 ∧ t = h := by
  obtain ⟨o, hf, hr⟩ := Option.bind_eq_some_iff.mp hr
  cases o with
  | none =>
    obtain ⟨rfl, rfl⟩ := Prod.mk.inj (Option.some.inj hr)
    exact ⟨rfl, rfl⟩
  | some z =>
    obtain ⟨j, hl, -⟩ := find_some hb hf
    exact absurd hl (hnone j)

lemma released (hp : Path R h L) (hb : h.blistSize ≠ 0)
    (hr : releaseAllocatedMarker R k h a = some (p, t)) : ∃ M, Released R h a L M t := by
  by_cases hl : ∃ j, Located R h a j
  · obtain ⟨j, hl⟩ := hl
    obtain ⟨-, M, hM⟩ := removed hp hb hl hr
    cases hM with
    | first hn h0 => exact ⟨M, .first hl hn h0⟩
    | joined hn hq => exact ⟨M, .joined hl hn hq⟩
  · obtain ⟨-, rfl⟩ := release_missing hb (not_exists.mp hl) hr
    exact ⟨L, .missing⟩

lemma release_returns (hp : Path R h L) (hb : h.blistSize ≠ 0) :
    Returns fun fuel => releaseAllocatedMarker R fuel h a := by
  apply Returns.bind (Returns.loop (find_leaves R h a))
  intro k r hf
  cases r with
  | none => exact Returns.pure _
  | some z =>
    obtain ⟨j, hl, rfl⟩ := find_some hb hf
    obtain ⟨M, hn, hne⟩ := joined_or_first hp j
    dsimp only
    split_ifs with h0
    · exact Returns.pure _
    · rw [hn.start] at h0
      obtain ⟨pre, q, post, rfl⟩ := hne (Ne.symm h0)
      exact (Returns.loop ⟨_, _, pred_path (hn.path (free_path hp _))⟩).map _

end Skibios.Allocator.Outcomes

import Skibios.Allocator.Accounting
import Skibios.Allocator.Pools

/-! The words that the routines load as markers or store to: `heap_init` clears one word behind the
bookkeeping region and leaves out its first, the search for a split takes in the word below. -/

namespace Skibios.Allocator.Footprint

open Function Library.Words Library.Loops Library.Runs
open Markers Paths Walks Outcomes Pools Overlap Reach Accounting

/-- STR of zero to the word number `c.2` of the region, and the countdown to 0. -/
def clearTurn (c : (ℤ → Marker) × ℕ) : Turn ((ℤ → Marker) × ℕ) (ℤ → Marker) :=
  let m := update c.1 c.2 .empty
  if c.2 - 1 = 0 then .leave m else .again (m, c.2 - 1)

def heapInitWords (R : Region) (fuel : ℕ) (words : ℤ → Marker) : List ℤ :=
  (visited clearTurn fuel (words, R.words)).map fun c => (c.2 : ℤ)

/-- The marker that is found and the word for the rest are stored to; both have been loaded. -/
def searchWords (R : Region) (fuel : ℕ) (h : Heap) (size : ℕ) : List ℤ :=
  ((visited (searchTurn h size) fuel (.first R h)).filter fun c => c.left ≠ 0).map Cursor.r1 ++
    match runLoop (searchTurn h size) fuel (.first R h) with
    | some (some c) =>
      if (h.marks c.r1).size - size = 0 then []
      else ((visited (splitTurn R h) fuel R.words).filter fun r6 => r6 ≠ 0).map
        fun r6 : ℕ => R.bstart - r6
    | _ => []

/-- The new marker is stored to in a word that has been loaded, and its offset in the last marker. -/
def addWords (R : Region) (fuel : ℕ) (h : Heap) (size : ℕ) : List ℤ :=
  ((visited (addTurn R h) fuel (R.bstart, 0)).filter fun c => c.2 ≠ R.words).map Prod.fst ++
    match runLoop (addTurn R h) fuel (R.bstart, 0) with
    | some (some r1) =>
      let t := appendMarker h r1 size
      h.fsllEnd :: ((visited (walkTurn t r1) fuel (t.fsllStart, R.hstart)).filter
        fun c => c.1 ≠ r1).map Prod.fst
    | _ => []

/-- From `proc` to `skip`. -/
def joinWords (h : Heap) (r1 : ℤ) : List ℤ :=
  if (h.marks r1).offset = 0 then [r1] else [r1, h.next r1]

def releaseWords (R : Region) (fuel : ℕ) (h : Heap) (address : ℕ) : List ℤ :=
  (visited (findTurn h address) fuel (.first R h)).map Cursor.r1 ++
    match runLoop (findTurn h address) fuel (.first R h) with
    | some (some r1) =>
      let t := (joinNext (freeMarker h r1) r1).heap
      joinWords h r1 ++
        if t.fsllStart = r1 then []
        -- the marker before `r1` is among them
        else (visited (predTurn t r1) fuel (t.fsllStart, r1)).map Prod.fst
    | _ => []

def findWords (R : Region) (fuel : ℕ) (h : Heap) (size : ℕ) : List ℤ :=
  if h.blistSize = 0 then addWords R fuel h size
  else searchWords R fuel h size ++
    match searchFreeMarker R fuel h size with
    | some (0, t) => addWords R fuel t size
    | _ => []

def requestWords (R : Region) (fuel : ℕ) (h : Heap) : Request → List ℤ
  | .allocate size =>
    if 32767 < wordAlign size ∨ h.heapRemaining < wordAlign size then []
    else findWords R fuel h (wordAlign size)
  | .release address => if h.blistSize = 0 then [] else releaseWords R fuel h address

def Inside (R : Region) (z : ℤ) : Prop := 0 ≤ z ∧ z < R.words

instance (R : Region) (z : ℤ) : Decidable (Inside R z) := inferInstanceAs (Decidable (_ ∧ _))

def OfLive (c : Pool) : Request → Prop
  | .allocate _ => True
  | .release p => ∃ n, (p, n) ∈ c.live

structure Confined (R : Region) (words : ℤ → Marker) : Prop where
  cleared : ∀ z, Inside R z → (heapInit R words).marks z = .empty
  start : ∀ fuel, ∀ z ∈ heapInitWords R fuel words, Inside R z
  requests : ∀ es c, Run (Serve R) ⟨heapInit R words, []⟩ es c → ∀ e, OfLive c e →
    ∀ fuel, ∀ z ∈ requestWords R fuel c.heap e, Inside R z

variable {R : Region} {D : Finset ℤ} {h t : Heap} {words : ℤ → Marker} {a j k n p : ℕ} {x z : ℤ}
  {c d : Pool} {e : Request} {es : List Request}

section Clearing

def clearing (R : Region) (words : ℤ → Marker) (j : ℕ) : (ℤ → Marker) × ℕ :=
  (fun z => if (R.words - j : ℕ) < z ∧ z ≤ R.words then .empty else words z, R.words - j)

lemma clearing_zero : clearing R words 0 = (words, R.words) := by
  refine Prod.ext (funext fun z => if_neg ?_) rfl
  omega

lemma clearing_update (hj : j < R.words) : update (clearing R words j).1 (R.words - j : ℕ) .empty =
    (clearing R words (j + 1)).1 := by
  funext z
  unfold clearing
  dsimp only
  rcases eq_or_ne z (R.words - j : ℕ) with rfl | hne
  · rw [update_self, if_pos (by omega)]
  · rw [update_of_ne hne]
    exact if_congr (by omega) rfl rfl

lemma clear_again (hj : j + 1 < R.words) :
    clearTurn (clearing R words j) = .again (clearing R words (j + 1)) := by
  have hleft : R.words - j - 1 ≠ 0 := by omega
  refine (if_neg hleft).trans ?_
  exact congrArg Turn.again (Prod.ext (clearing_update (by omega)) (Nat.sub_sub ..))

lemma clear_leave (hj : j + 1 = R.words) :
    clearTurn (clearing R words j) = .leave (heapInit R words).marks := by
  have hone : R.words - j - 1 = 0 := by omega
  refine (if_pos hone).trans (congrArg Turn.leave ((clearing_update (by omega)).trans ?_))
  funext z
  exact if_congr (by omega) rfl rfl

lemma words_pos (R : Region) : 0 < R.words := by
  have hpos := R.kilobytes_pos
  unfold Region.words
  omega

/-- The loop leaves the words behind that the model of `heap_init` has. -/
theorem clear_init (R : Region) (words : ℤ → Marker) :
    runLoop clearTurn R.words (words, R.words) = some (heapInit R words).marks := by
  rw [← clearing_zero]
  exact runLoop_walk (words_pos R) (fun j => clear_again) fun j => clear_leave

theorem mem_heapInitWords : z ∈ heapInitWords R R.words words ↔ 1 ≤ z ∧ z ≤ R.words := by
  rw [heapInitWords, ← clearing_zero, visited_walk (fun j => clear_again) fun j => clear_leave,
    List.map_map, List.mem_map]
  constructor
  · rintro ⟨j, hj, rfl⟩
    rw [List.mem_range] at hj
    dsimp only [comp_apply, clearing]
    omega
  · rintro ⟨hl, hu⟩
    refine ⟨R.words - z.toNat, List.mem_range.mpr (by omega), ?_⟩
    dsimp only [comp_apply, clearing]
    omega

/-- The first word of the region keeps its contents. -/
theorem heapInit_clears :
    (∀ z, Inside R z → (heapInit R words).marks z = .empty) ↔ words 0 = .empty := by
  have hfirst : (heapInit R words).marks 0 = words 0 := by
    change (if 1 ≤ (0 : ℤ) ∧ (0 : ℤ) ≤ R.words then Marker.empty else words 0) = words 0
    exact if_neg (by omega)
  constructor
  · intro hclear
    rw [← hfirst]
    exact hclear 0 ⟨le_rfl, by exact_mod_cast words_pos R⟩
  · rintro hzero z ⟨hl, hu⟩
    rcases eq_or_ne z 0 with rfl | hne
    · exact hfirst.trans hzero
    · exact if_pos (by omega)

end Clearing

section Requests

lemma Closed.visited {σ ρ : Type*} {body : σ → Turn σ ρ} {word : σ → ℤ} {s t : σ} (hC : Closed D h)
    (hb : ∀ s t, body s = .again t → word t = h.next (word s)) (hs : word s ∈ D)
    (ht : t ∈ visited body k s) : word t ∈ D := by
  refine visited_invariant (I := fun t => word t ∈ D) (fun s t hs hturn => ?_) hs ht
  rw [hb s t hturn]
  exact hC.next _ hs

lemma search_next (c d : Cursor) (hturn : searchTurn h n c = .again d) : d.r1 = h.next c.r1 := by
  unfold searchTurn at hturn
  split_ifs at hturn
  rw [← Turn.again.inj hturn]

lemma walk_next (c d : ℤ × ℕ) (hturn : walkTurn h x c = .again d) : d.1 = h.next c.1 := by
  unfold walkTurn at hturn
  split_ifs at hturn
  rw [← Turn.again.inj hturn]

lemma find_next (c d : Cursor) (hturn : findTurn h a c = .again d) : d.r1 = h.next c.r1 := by
  unfold findTurn at hturn
  split_ifs at hturn
  rw [← Turn.again.inj hturn]

lemma pred_next (c d : ℤ × ℤ) (hturn : predTurn h x c = .again d) : d.1 = h.next c.1 := by
  unfold predTurn at hturn
  split_ifs at hturn
  rw [← Turn.again.inj hturn]

lemma split_visited {r6 : ℕ} (hr : r6 ∈ visited (splitTurn R h) k R.words) : r6 ≤ R.words := by
  refine visited_invariant (I := fun r6 => r6 ≤ R.words) (fun s t hs hturn => ?_) le_rfl hr
  unfold splitTurn at hturn
  split_ifs at hturn
  obtain rfl := Turn.again.inj hturn
  omega

lemma add_visited {c : ℤ × ℕ} (hc : c ∈ visited (addTurn R h) k (R.bstart, 0)) : Inside R c.1 := by
  obtain ⟨-, hle, i, hi, hcount, -⟩ := visited_invariant add_scanned first_scanned hc
  have hpos := words_pos R
  unfold Region.bstart at hi
  unfold Inside
  omega

def Near (R : Region) (z : ℤ) : Prop := -1 ≤ z ∧ z ≤ R.bstart

lemma Inside.near (hz : Inside R z) : Near R z := by
  unfold Inside Near Region.bstart at *
  omega

lemma near_iff : Near R z ↔ Inside R z ∨ z = -1 := by
  have hpos := words_pos R
  unfold Inside Near Region.bstart
  omega

lemma searchWords_near (hE : Enclosed R D h) (hz : z ∈ searchWords R k h n) : Near R z := by
  rcases List.mem_append.mp hz with hz | hz
  · obtain ⟨c, hc, rfl⟩ := List.mem_map.mp hz
    exact hE.bounds _ (Closed.visited hE.toClosed search_next hE.start (List.mem_filter.mp hc).1)
  · split at hz
    · split_ifs at hz
      · simp at hz
      · obtain ⟨r6, hr6, rfl⟩ := List.mem_map.mp hz
        obtain ⟨hr6, hpos⟩ := List.mem_filter.mp hr6
        have hle := split_visited hr6
        unfold Near Region.bstart
        omega
    · simp at hz

lemma addWords_near (hE : Enclosed R D h) (hz : z ∈ addWords R k h n) : Near R z := by
  rcases List.mem_append.mp hz with hz | hz
  · obtain ⟨c, hc, rfl⟩ := List.mem_map.mp hz
    exact (add_visited (List.mem_filter.mp hc).1).near
  · split at hz
    · have happ := hE.append (n := n) (add_some ‹_›)
      rcases List.mem_cons.mp hz with rfl | hz
      · exact hE.bounds _ hE.last
      · obtain ⟨c, hc, rfl⟩ := List.mem_map.mp hz
        exact hE.bounds _
          (Closed.visited happ.toClosed walk_next happ.start (List.mem_filter.mp hc).1)
    · simp at hz

lemma releaseWords_near (hE : Enclosed R D h) (hb : h.blistSize ≠ 0)
    (hz : z ∈ releaseWords R k h a) : Near R z := by
  rcases List.mem_append.mp hz with hz | hz
  · obtain ⟨c, hc, rfl⟩ := List.mem_map.mp hz
    exact hE.bounds _ (Closed.visited hE.toClosed find_next hE.start hc)
  · split at hz
    · next r1 hf =>
      obtain ⟨j, -, rfl⟩ := find_some hb hf
      have hx := hE.position j
      obtain ⟨m, r3, l, hm, hjoin⟩ := freed hE hx
      have hC : Closed D (joinNext (freeMarker h (position h j)) (position h j)).heap := by
        rw [hjoin]
        have hshort : Shortened h (giveBack h (position h j) m h.fsllEnd h.blistSize) :=
          hm.shortened rfl rfl
        exact hshort.closed hE.toClosed
      rcases List.mem_append.mp hz with hz | hz
      · apply hE.bounds
        unfold joinWords at hz
        split_ifs at hz
        · rwa [List.mem_singleton.mp hz]
        · rcases List.mem_cons.mp hz with rfl | hz
          · exact hx
          · rw [List.mem_singleton.mp hz]
            exact hE.next _ hx
      · split_ifs at hz
        · simp at hz
        · obtain ⟨c, hc, rfl⟩ := List.mem_map.mp hz
          exact hE.bounds _ (Closed.visited hC pred_next hC.start hc)
    · simp at hz

lemma findWords_near (hE : Enclosed R D h) (hz : z ∈ findWords R k h n) : Near R z := by
  unfold findWords at hz
  split_ifs at hz with hb
  · exact addWords_near hE hz
  · rcases List.mem_append.mp hz with hs | ha
    · exact searchWords_near hE hs
    · split at ha
      · next t hs =>
        obtain rfl := (searched hs).null rfl
        exact addWords_near hE ha
      · simp at ha

lemma requestWords_near (hE : Enclosed R D h) (hz : z ∈ requestWords R k h e) : Near R z := by
  cases e with
  | allocate size => exact findWords_near hE (List.mem_ite_nil_left.mp hz).2
  | release address =>
    obtain ⟨hb, hz⟩ := List.mem_ite_nil_left.mp hz
    exact releaseWords_near hE hb hz

lemma serve_enclosed (hd : Serve R c e d) (hE : Enclosed R D c.heap) : Enclosed R D d.heap := by
  cases hd with
  | allocated hc => exact operate_enclosed (.allocated hc) hE
  | released _ hc => exact operate_enclosed (.released hc) hE

/-- No request uses a word outside the region but the one below it. -/
theorem requests_near (hr : Run (Serve R) ⟨heapInit R words, []⟩ es c)
    (hz : z ∈ requestWords R k c.heap e) : Inside R z ∨ z = -1 := by
  have hE : Enclosed R (spareWords R words) c.heap := by
    refine hr.invariant (I := fun c => Enclosed R (spareWords R words) c.heap) ?_
      (initial_enclosed R words)
    exact fun _ _ _ hE hd => serve_enclosed hd hE
  exact near_iff.mp (requestWords_near hE hz)

/-- A split begins with the word below the region. -/
theorem split_below {c : Cursor} (hs : runLoop (searchTurn h n) k (.first R h) = some (some c))
    (hn : (h.marks c.r1).size ≠ n) : -1 ∈ searchWords R k h n := by
  obtain ⟨j, hc, rfl⟩ := search_some hs
  have hle : n ≤ (h.marks (cursorAt R h j).r1).size := hc.fits.2
  have hrest : (h.marks (cursorAt R h j).r1).size - n ≠ 0 := by omega
  have hpos := words_pos R
  obtain ⟨k, rfl⟩ : ∃ l, k = l + 1 := by
    cases k with
    | zero => cases hs
    | succ l => exact ⟨l, rfl⟩
  unfold searchWords
  rw [hs]
  apply List.mem_append_right
  dsimp only
  rw [if_neg hrest, visited, List.filter_cons_of_pos (by simpa using hpos.ne'), List.map_cons]
  apply List.mem_cons.mpr
  left
  unfold Region.bstart
  omega

end Requests

/-- `heap_init` clears the word behind the region. -/
theorem bookkeeping_confined (R : Region) (words : ℤ → Marker) : ¬ Confined R words := by
  intro hc
  have hbehind : (R.words : ℤ) ∈ heapInitWords R R.words words :=
    mem_heapInitWords.mpr ⟨by exact_mod_cast words_pos R, le_rfl⟩
  exact lt_irrefl _ (hc.start R.words _ hbehind).2

section Instances

def occupied : ℤ → Marker := fun z => if z = 0 then ⟨1, 0⟩ else .empty

def stretching : List Request := [.allocate 100, .allocate 4, .release 0x20001000, .allocate 40]

/-- The first word is not cleared, the one behind the last is, and the word below the region becomes
the marker of the 60 bytes that a split leaves over. -/
theorem bookkeeping_confined_fails : ¬ Confined kilobyte occupied ∧
    (heapInit kilobyte occupied).marks 0 ≠ .empty ∧ 256 ∈ heapInitWords kilobyte 256 occupied ∧
    ∃ c, Run (Serve kilobyte) ⟨heapInit kilobyte occupied, []⟩ stretching c ∧
      occupied (-1) = .empty ∧ c.heap.marks (-1) ≠ .empty := by
  have hsome : ((exec (serve kilobyte 300) ⟨heapInit kilobyte occupied, []⟩ stretching).any fun c =>
      decide (c.heap.marks (-1) ≠ .empty)) = true := by decide +kernel
  have hfirst : (heapInit kilobyte occupied).marks 0 ≠ .empty := by decide
  obtain ⟨c, hr, hbelow⟩ := exec_any_run serve_sound hsome
  refine ⟨fun hc => hfirst (hc.cleared 0 (by decide)), hfirst, ?_, c, hr, rfl, hbelow⟩
  exact mem_heapInitWords.mpr (by decide)

end Instances

end Skibios.Allocator.Footprint

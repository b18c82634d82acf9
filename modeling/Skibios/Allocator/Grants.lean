import Skibios.Allocator.Bounds

/-! What the marker of a new block records. -/

namespace Skibios.Allocator.Grants

open Function Library.Words Library.Runs Library.Orbits
open Markers Paths Walks Outcomes Pools Layouts Overlap Reach Accounting Bounds

inductive Serves (h t : Heap) (n : ℕ) : ℤ → Prop
  | chosen {j : ℕ} (hc : Chosen h n j) : Serves h t n (position h j)
  | appended (hnone : ∀ j, ¬ Chosen h n j) : Serves h t n t.fsllEnd

def Computed (R : Region) (h : Heap) (z : ℤ) (p : ℕ) : Prop :=
  ∃ k, FirstVisit h.next h.fsllStart k ∧ position h k = z ∧ addressAt R h k = p

def Gives (R : Region) (h t : Heap) (size p : ℕ) : Prop :=
  ∃ z, Serves h t (wordAlign size) z ∧ Computed R t z p ∧ (t.marks z).free = false ∧
    t.marks z ≠ .empty ∧ size ≤ (t.marks z).size

/-- A marker of no bytes is still no empty word: it has been split off, or leads to another one. -/
def Lasting (h : Heap) : Prop :=
  ∃ j, Chosen h 0 j ∧ ((h.marks (position h j)).size = 0 → (h.marks (position h j)).offset ≠ 0)

variable {R : Region} {D : Finset ℤ} {h t u : Heap} {words : ℤ → Marker} {es : List Request}
  {i j k n p s size : ℕ} {d x z : ℤ}

lemma Serves.unique {y : ℤ} (hy : Serves h t n y) (hz : Serves h t n z) : y = z := by
  cases hy with
  | chosen hc =>
    cases hz with
    | chosen hc' => rw [hc.unique hc']
    | appended hnone => exact absurd hc (hnone _)
  | appended hnone =>
    cases hz with
    | chosen hc => exact absurd hc (hnone _)
    | appended => rfl

lemma walk_congr (hs : t.fsllStart = h.fsllStart)
    (hm : ∀ i < j, t.marks (position h i) = h.marks (position h i)) (hi : i ≤ j) :
    position t i = position h i ∧ addressAt R t i = addressAt R h i := by
  induction i with
  | zero => exact ⟨hs, rfl⟩
  | succ i ih =>
    obtain ⟨hposition, haddress⟩ := ih (by omega)
    have hmark := hm i hi
    refine ⟨?_, ?_⟩
    · rw [position_succ, position_succ, hposition, Heap.next, Heap.next, hmark]
    · rw [addressAt, addressAt, haddress, hposition, hmark]

lemma walk_computed (hfirst : FirstVisit h.next h.fsllStart j) (hs : t.fsllStart = h.fsllStart)
    (hm : ∀ i < j, t.marks (position h i) = h.marks (position h i)) :
    Computed R t (position h j) (addressAt R h j) := by
  have hwalk : ∀ i ≤ j, position t i = position h i ∧ addressAt R t i = addressAt R h i :=
    fun i hi => walk_congr hs hm hi
  refine ⟨j, fun i hi hsame => hfirst i hi ?_, (hwalk j le_rfl).1, (hwalk j le_rfl).2⟩
  exact (hwalk i hi.le).1.symm.trans (Eq.trans hsame (hwalk j le_rfl).1)

lemma Computed.congr (hc : Computed R h z p) (hs : t.fsllStart = h.fsllStart)
    (hm : t.marks = h.marks) : Computed R t z p := by
  obtain ⟨k, hk, rfl, rfl⟩ := hc
  exact walk_computed hk hs fun _ _ => by rw [hm]

lemma Serves.congr (hz : Serves h t n z) (he : u.fsllEnd = t.fsllEnd) : Serves h u n z := by
  cases hz with
  | chosen hc => exact .chosen hc
  | appended hnone => exact he ▸ .appended hnone

lemma chosen_computed (hc : Chosen h n j) (hs : t.fsllStart = h.fsllStart)
    (hm : ∀ w, w ≠ position h j → h.marks w ≠ .empty → t.marks w = h.marks w) :
    Computed R t (position h j) (addressAt R h j) := by
  have hfirst := chosen_first hc
  refine walk_computed hfirst hs fun i hi => hm _ (hfirst i hi) fun hempty => ?_
  have hstuck : h.next (position h i) = position h i := next_of_tail (by rw [hempty]; rfl)
  exact hfirst i hi (iterate_stuck rfl hstuck hi.le).symm

lemma allocated_ne_empty (hs : s < 32768) : (⟨uint16 s, d⟩ : Marker) ≠ .empty ↔ (s = 0 → d ≠ 0) := by
  have hhalf : uint16 s = s := by
    unfold uint16
    omega
  rw [hhalf, Marker.empty, ne_eq, Marker.mk.injEq, not_and]

lemma Obtained.word (ho : Obtained R h n p t) (hE : Enclosed R D h) (hp : p ≠ 0) (hn : n < 32768) :
    ∃ z s d, Serves h t n z ∧ Computed R t z p ∧ t.marks z = ⟨uint16 s, d⟩ ∧ n ≤ s ∧ s < 32768 ∧
      ((s = 0 → d ≠ 0) ↔ (n = 0 → Lasting h)) := by
  cases ho with
  | @whole j hc hz =>
    have hlt := size_lt (h.marks (position h j))
    refine ⟨_, _, _, .chosen hc, chosen_computed hc rfl fun w hw _ => update_of_ne hw _ _,
      update_self .., hc.fits.2, hlt, ⟨fun hd hn => ?_, fun hd hs => ?_⟩⟩
    · subst hn
      exact ⟨j, hc, hd⟩
    · obtain rfl : n = 0 := by
        have hle := hc.fits.2
        omega
      obtain ⟨i, hi, hoffset⟩ := hd rfl
      rw [hi.unique hc] at hoffset
      exact hoffset hs
  | @split j z hc hs hz =>
    have hmarks := cut_marks hE (hE.position j) hc.fits hz
    have hne := fits_ne hc.fits hz.empty
    refine ⟨_, n, z - position h j, .chosen hc, ?_, ?_, le_rfl, hn, ?_⟩
    · apply chosen_computed hc
      · rw [cut_link hE (hE.position j) hc.fits hz]
        rfl
      · intro w hw hword
        rw [hmarks, update_of_ne hw, update_of_ne (by rintro rfl; exact hword hz.empty)]
    · rw [hmarks, update_self]
    · refine iff_of_true (fun _ => by omega) fun hn => ⟨j, hn ▸ hc, fun h0 => ?_⟩
      omega
  | full => exact absurd rfl hp
  | @appended z j hnone hz hs hj hfirst =>
    have hnot : ∀ i, ¬ Chosen h n i := fun i hi => hnone i hi.lt hi.fits
    have hcomputed := walk_computed (R := R) (t := { appendMarker h z n with
      blistSize := (appendMarker h z n).blistSize + 1 }) (walk_firstVisit hj hfirst) rfl fun _ _ => rfl
    rw [hj] at hcomputed
    refine ⟨z, n, 0, .appended hnot, hcomputed, ?_, le_rfl, hn, ?_⟩
    · change (appendMarker h z n).marks z = _
      rcases eq_or_ne z h.fsllEnd with rfl | hne
      · rw [appendMarker_end, update_self]
      · rw [appendMarker_marks hne, update_of_ne hne, update_self, hz.empty]
        rfl
    · refine ⟨fun h0 hn => absurd rfl (h0 hn), fun hlast hn => ?_⟩
      obtain ⟨i, hi, -⟩ := hlast hn
      exact absurd (hn ▸ hi) (hnot i)

lemma gives_iff (hE : Enclosed R D h) (hc : heapAllocate R k h size = some (p, t)) (hp : p ≠ 0) :
    Gives R h t size p ↔ size ≤ 4294967292 ∧ (size = 0 → Lasting h) := by
  obtain ⟨rfl, -⟩ | ⟨hacc, u, ho, ht⟩ := heapAllocate_obtained hc
  · exact absurd rfl hp
  have hn : wordAlign size < 32768 := by
    have hle := hacc.1
    omega
  obtain ⟨z, s, d, hserves, hcomputed, hword, hle, hs, hlast⟩ := Obtained.word ho hE hp hn
  rw [charge, if_neg hp] at ht
  have hmarks : t.marks = u.marks := ht ▸ rfl
  have hserves : Serves h t (wordAlign size) z := hserves.congr (ht ▸ rfl)
  have hcomputed : Computed R t z p := hcomputed.congr (ht ▸ rfl) hmarks
  have hblock : block (t.marks z) = (s, false) := by rw [hmarks, hword, block_allocated hs]
  obtain ⟨hsize, hfree⟩ := Prod.mk.inj hblock
  have hempty : t.marks z ≠ .empty ↔ (wordAlign size = 0 → Lasting h) := by
    rw [hmarks, hword, allocated_ne_empty hs, hlast]
  constructor
  · rintro ⟨y, hy, -, -, hne, hroom⟩
    obtain rfl := hserves.unique hy
    rw [hsize] at hroom
    refine ⟨by omega, fun h0 => hempty.mp hne ?_⟩
    rw [h0]
    rfl
  · rintro ⟨hmax, hzero⟩
    have hround := le_wordAlign hmax
    refine ⟨z, hserves, hcomputed, hfree, hempty.mpr fun h0 => hzero (by omega), ?_⟩
    rw [hsize]
    omega

theorem allocation_size (hr : Run (Operate R) (heapInit R words) es h)
    (hc : heapAllocate R k h size = some (p, t)) (hp : p ≠ 0) :
    Gives R h t size p ↔ size ≤ 4294967292 ∧ (size = 0 → Lasting h) := by
  have hE : Enclosed R (spareWords R words) h := by
    refine hr.invariant (I := fun h => Enclosed R (spareWords R words) h) ?_ (initial_enclosed R words)
    exact fun h e t hE ho => operate_enclosed ho hE
  exact gives_iff hE hc hp

section Instances

theorem allocation_size_reused : ∃ h t, Run (Operate kilobyte) fresh.heap
    [.allocate 100, .allocate 4, .release 0x20001000] h ∧
    heapAllocate kilobyte 300 h 39 = some (0x20001000, t) ∧ Gives kilobyte h t 39 0x20001000 := by
  have hsome : ((exec (operate kilobyte 300) fresh.heap
      [.allocate 100, .allocate 4, .release 0x20001000]).any fun h =>
        decide ((heapAllocate kilobyte 300 h 39).map Prod.fst = some 0x20001000)) = true := by
    decide +kernel
  obtain ⟨h, hr, hfst⟩ := exec_any_run operate_sound hsome
  obtain ⟨⟨p, t⟩, hc, rfl⟩ := Option.map_eq_some_iff.mp hfst
  refine ⟨h, t, hr, hc, (allocation_size hr hc (by decide)).mpr ⟨by decide, fun h0 => ?_⟩⟩
  exact absurd h0 (by decide)

/-- A request near 2^32 is rounded up to nothing, and its marker is an empty word. -/
theorem allocation_size_fails : ∃ t,
    heapAllocate kilobyte 300 (heapInit kilobyte fun _ => .empty) 0xFFFFFFFE = some (0x20001000, t) ∧
      ¬ Gives kilobyte (heapInit kilobyte fun _ => .empty) t 0xFFFFFFFE 0x20001000 := by
  have hsome : (heapAllocate kilobyte 300 fresh.heap 0xFFFFFFFE).map Prod.fst = some 0x20001000 := by
    decide +kernel
  obtain ⟨⟨p, t⟩, hc, rfl⟩ := Option.map_eq_some_iff.mp hsome
  refine ⟨t, hc, fun hgives => ?_⟩
  have hmax := ((gives_iff (initial_enclosed _ _) hc (by decide)).mp hgives).1
  omega

end Instances

end Skibios.Allocator.Grants

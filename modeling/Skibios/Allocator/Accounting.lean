import Skibios.Allocator.Rejections

/-! `heap_remaining` and the bytes of the allocated markers, for calls with arbitrary addresses. -/

namespace Skibios.Allocator.Accounting

open Function Library.Words Library.Runs Library.Orbits Library.Segments
open Markers Paths Walks Outcomes Pools Layouts Overlap Reach
open Rejections (Call Careful Sound Begins HoldsAt call call_sound)

def recorded (m : Marker) : ℕ := if m.free = true then 0 else m.size

def Balanced (R : Region) (words : ℤ → Marker) (h : Heap) : Prop :=
  h.heapRemaining + ∑ z ∈ spareWords R words, recorded (h.marks z) =
    (heapInit R words).heapRemaining

inductive Operate (R : Region) : Heap → Request → Heap → Prop
  | allocated {h t : Heap} {size fuel p : ℕ} (hc : heapAllocate R fuel h size = some (p, t)) :
      Operate R h (.allocate size) t
  | released {h t : Heap} {address fuel status : ℕ}
      (hc : svcServiceGheapRelease R fuel h address = some (status, t)) :
      Operate R h (.release address) t

/-- The bytes of the free marker that a release can make of `q`, `x` and the marker behind them. -/
def joinedSize (h : Heap) (q x : ℤ) : ℕ :=
  (h.marks x).size + freeSize h (h.next x) + (h.marks q).size

/-- The marker has not been released before, and merging it into a free marker before it leaves the
mask in place. -/
structure Releasable (h : Heap) (x : ℤ) : Prop where
  held : (h.marks x).free = true → (h.marks x).size = 0
  fits : ∀ q, Precedes h q x → (h.marks x).offset ≠ 0 → (h.marks q).free = true →
    joinedSize h q x ≤ 32768 ∨ 65536 ≤ joinedSize h q x

/-- An allocation takes the whole of a larger marker only if it can split it, and a release finds a
marker that can be released. -/
def Tidy (R : Region) (h : Heap) : Request → Prop
  | .allocate size => Accepted h size → ∀ j, Chosen h (wordAlign size) j →
      (h.marks (position h j)).size = wordAlign size ∨ ∃ z, Lowest R h z
  | .release address => h.blistSize ≠ 0 → ∀ j, Located R h address j → Releasable h (position h j)

variable {R : Region} {D : Finset ℤ} {h t u : Heap} {m m' : ℤ → Marker} {words : ℤ → Marker}
  {a j k n p r3 : ℕ} {d q x z : ℤ} {e : Request} {es : List Request}

lemma recorded_free {v : Marker} (hv : block v = (n, true)) : recorded v = 0 :=
  if_pos (Prod.mk.inj hv).2

lemma recorded_held {v : Marker} (hv : block v = (n, false)) : recorded v = n := by
  obtain ⟨hsize, hfree⟩ := Prod.mk.inj hv
  rw [recorded, hfree, if_neg (by decide), hsize]

lemma recorded_empty : recorded .empty = 0 := rfl

lemma recorded_lt (v : Marker) : recorded v < 32768 := by
  unfold recorded
  split_ifs
  · decide
  · exact size_lt v

def inUse (D : Finset ℤ) (m : ℤ → Marker) : ℕ := ∑ z ∈ D, recorded (m z)

lemma inUse_update (hx : x ∈ D) (v : Marker) :
    inUse D (update m x v) + recorded (m x) = inUse D m + recorded v := sum_update recorded hx

lemma le_inUse (hx : x ∈ D) : recorded (m x) ≤ inUse D m :=
  Finset.single_le_sum (f := fun z => recorded (m z)) (fun _ _ => Nat.zero_le _) hx

section Allocation

lemma whole_inUse (hx : x ∈ D) (hf : Fits h n x) :
    inUse D (h.setHalf x (h.marks x).size).marks = inUse D h.marks + (h.marks x).size := by
  have hsum := inUse_update (m := h.marks) hx
    { h.marks x with half := uint16 (h.marks x).size }
  rw [recorded_held (block_allocated (size_lt _)), recorded, if_pos hf.1] at hsum
  exact hsum

lemma cut_inUse (hE : Enclosed R D h) (hx : x ∈ D) (hf : Fits h n x) (hz : Lowest R h z)
    (hn : n < 32768) : inUse D (cut h x z n).marks = inUse D h.marks + n := by
  have hlt := size_lt (h.marks x)
  have hrest := inUse_update (m := h.marks) (hE.lowest hz)
    ⟨uint16 ((h.marks x).size - n + 32768), h.next x - z⟩
  rw [recorded_free (block_free (by omega)), hz.empty, recorded_empty] at hrest
  have hfirst := inUse_update (m := update h.marks z
    ⟨uint16 ((h.marks x).size - n + 32768), h.next x - z⟩) hx ⟨uint16 n, z - x⟩
  rw [recorded_held (block_allocated hn), update_of_ne (fits_ne hf hz.empty), recorded,
    if_pos hf.1] at hfirst
  rw [cut_marks hE hx hf hz]
  omega

lemma append_inUse (hz : z ∈ D) (hend : h.fsllEnd ∈ D) (he : h.marks z = .empty) (hn : n < 32768) :
    inUse D (appendMarker h z n).marks = inUse D h.marks + n := by
  have hempty : recorded (h.marks z) = 0 := by rw [he, recorded_empty]
  rcases eq_or_ne z h.fsllEnd with rfl | hne
  · have hsum := inUse_update (m := h.marks) hz ⟨uint16 n, 0⟩
    rw [recorded_held (block_allocated hn), hempty] at hsum
    rw [appendMarker_end]
    exact hsum
  · have hsum := inUse_update (m := h.marks) hz ⟨uint16 n, (h.marks z).offset⟩
    rw [recorded_held (block_allocated hn), hempty] at hsum
    have hlink := inUse_update (m := update h.marks z ⟨uint16 n, (h.marks z).offset⟩) hend
      ⟨(h.marks h.fsllEnd).half, z - h.fsllEnd⟩
    rw [update_of_ne hne.symm] at hlink
    rw [appendMarker_marks hne]
    exact (Nat.add_right_cancel hlink).trans hsum

lemma obtained_inUse (ho : Obtained R h n p t) (hE : Enclosed R D h) (hn : n < 32768) :
    t.heapRemaining = h.heapRemaining ∧ ((p = 0 ∧ t = h ∧ ∀ j, ¬ Chosen h n j) ∨
      p ≠ 0 ∧ ∃ s, inUse D t.marks = inUse D h.marks + s ∧
        (s = n ↔ ∀ j, Chosen h n j → (h.marks (position h j)).size = n ∨ ∃ z, Lowest R h z)) := by
  have hpos : ∀ h j, addressAt R h j ≠ 0 := fun h j => (address_pos R h j).ne'
  cases ho with
  | @whole j hc hz =>
    refine ⟨rfl, Or.inr ⟨hpos h j, _, whole_inUse (hE.position j) hc.fits, fun he i hi => ?_, ?_⟩⟩
    · obtain rfl := hi.unique hc
      exact Or.inl he
    · intro htidy
      exact hz.elim id (htidy j hc).resolve_right
  | @split j z hc hs hz =>
    have hx := hE.position j
    refine ⟨?_, Or.inr ⟨hpos h j, n, cut_inUse hE hx hc.fits hz hn, ?_⟩⟩
    · rw [cut_link hE hx hc.fits hz]
      rfl
    · exact iff_of_true rfl fun i _ => Or.inr ⟨z, hz⟩
  | full hnone => exact ⟨rfl, Or.inl ⟨rfl, rfl, fun j hc => hnone j hc.lt hc.fits⟩⟩
  | @appended z j hnone hz hs hj hfirst =>
    refine ⟨rfl, Or.inr ⟨hpos _ j, n, append_inUse (hE.vacant hz) hE.last hz.empty hn, ?_⟩⟩
    exact iff_of_true rfl fun i hi => absurd hi.fits (hnone i hi.lt)

end Allocation

section Release

lemma freed_inUse (hf : Freed h x m r3) (hx : x ∈ D) (hC : Closed D h) :
    inUse D m + recorded (h.marks x) = inUse D h.marks := by
  have hlt := size_lt (h.marks x)
  cases hf with
  | last => exact inUse_update hx .empty
  | alone =>
    have hsum := inUse_update (m := h.marks) hx
      ⟨uint16 ((h.marks x).size + 32768), (h.marks x).offset⟩
    rwa [recorded_free (block_free hlt)] at hsum
  | merged h0 hy hs =>
    have hsum := inUse_update (m := h.marks) hx ⟨uint16 ((h.marks x).size +
      (h.marks (h.next x)).size + 32768), h.next (h.next x) - x⟩
    rw [recorded_free (block_free (by omega))] at hsum
    have hclear := inUse_update (m := update h.marks x ⟨uint16 ((h.marks x).size +
      (h.marks (h.next x)).size + 32768), h.next (h.next x) - x⟩) (hC.next x hx) .empty
    rw [update_of_ne (next_ne h0), recorded_empty, recorded, if_pos hy] at hclear
    omega

lemma recorded_joined (hn : n < 98304) :
    recorded ⟨uint16 (n + 32768), d⟩ = 0 ↔ n ≤ 32768 ∨ 65536 ≤ n := by
  unfold recorded Marker.free Marker.size uint16
  dsimp only
  split_ifs with hfree
  · have hfree := of_decide_eq_true hfree
    exact iff_of_true rfl (by omega)
  · have hfree : ¬ (n + 32768) % 65536 / 32768 % 2 = 1 := by simpa using hfree
    omega

lemma joinedSize_lt (h : Heap) (q x : ℤ) : joinedSize h q x < 98304 := by
  have hx := size_lt (h.marks x)
  have hq := size_lt (h.marks q)
  have hnext := size_lt (h.marks (h.next x))
  unfold joinedSize freeSize
  split_ifs <;> omega

lemma merged_inUse (hf : Freed h x m r3) (hm : Merged m r3 x q m') (hx : x ∈ D) (hq : q ∈ D)
    (hne : q ≠ x) (hkept : m q = h.marks q) : ∃ s, inUse D m' = inUse D m + s ∧ s < 32768 ∧
      (s = 0 ↔ ((h.marks x).offset ≠ 0 → (h.marks q).free = true →
        joinedSize h q x ≤ 32768 ∨ 65536 ≤ joinedSize h q x)) := by
  cases hm with
  | dropped he =>
    have hsum := inUse_update (m := m) hq ⟨(m q).half, 0⟩
    refine ⟨0, Nat.add_right_cancel hsum, by decide, iff_of_true rfl fun h0 => ?_⟩
    rcases hf.register with ⟨-, h0'⟩ | ⟨-, hfree, -⟩
    · exact absurd h0' h0
    · rw [he] at hfree
      exact absurd hfree (by decide)
  | apart he hfree =>
    refine ⟨0, rfl, by decide, iff_of_true rfl fun _ hq' => ?_⟩
    rw [← hkept, hfree] at hq'
    exact absurd hq' (by decide)
  | merged he hfree =>
    rcases hf.register with ⟨he', -⟩ | ⟨h0, hx', rfl⟩
    · exact absurd he' he
    have hsum := inUse_update (m := m) hq ⟨uint16 ((h.marks x).size + freeSize h (h.next x) + 32768 +
      (m q).size), x - q + (m x).offset⟩
    have hclear := inUse_update (m := update m q ⟨uint16 ((h.marks x).size +
      freeSize h (h.next x) + 32768 + (m q).size), x - q + (m x).offset⟩) hx .empty
    rw [recorded, if_pos hfree] at hsum
    rw [update_of_ne hne.symm, recorded_empty, recorded, if_pos hx'] at hclear
    refine ⟨_, hclear.trans hsum, recorded_lt _, ?_⟩
    rw [hkept] at hfree ⊢
    rw [Nat.add_right_comm]
    refine (recorded_joined (joinedSize_lt h q x)).trans ?_
    exact ⟨fun hs _ _ => hs, fun hs => hs h0 hfree⟩

end Release

lemma unlinked_inUse (ho : Unlinked R h a t) (hE : Enclosed R D h) :
    (t = h ∧ ∀ j, ¬ Located R h a j) ∨ ∃ j s, Located R h a j ∧ s < 32768 ∧
      t.heapRemaining = uint32 (h.heapRemaining + (h.marks (position h j)).size) ∧
      inUse D t.marks + recorded (h.marks (position h j)) = inUse D h.marks + s ∧
      (s = 0 ↔ ∀ q, Precedes h q (position h j) → (h.marks (position h j)).offset ≠ 0 →
        (h.marks q).free = true →
          joinedSize h q (position h j) ≤ 32768 ∨ 65536 ≤ joinedSize h q (position h j)) := by
  cases ho with
  | missing hnone => exact Or.inl ⟨rfl, hnone⟩
  | @first j k r3 m hl hf h0 =>
    refine Or.inr ⟨j, 0, hl, by decide, rfl, freed_inUse hf (hE.position j) hE.toClosed, ?_⟩
    refine iff_of_true rfl fun q hq => ?_
    obtain ⟨i, -, -, hfirst⟩ := hq
    exact absurd h0.symm (hfirst 0 (Nat.zero_le i))
  | @joined j k r3 q d m m' hl hf hq hkept hm =>
    have hfreed := freed_inUse hf (hE.position j) hE.toClosed
    obtain ⟨s, hs, hlt, hiff⟩ := merged_inUse hf hm (hE.position j) (precedes_mem hq hE.toClosed)
      hq.ne hkept
    refine Or.inr ⟨j, s, hl, hlt, rfl, ?_, hiff.trans ⟨fun hj z hz => ?_, fun hj => hj q hq⟩⟩
    · change inUse D m' + _ = _
      omega
    · obtain rfl := hq.unique hz
      exact hj

lemma operate_balanced (ho : Operate R h e t) (hE : Enclosed R (spareWords R words) h)
    (hb : Balanced R words h) : Balanced R words t ↔ Tidy R h e := by
  have hinit : (heapInit R words).heapRemaining < 4294967296 := uint32_lt _
  unfold Balanced at *
  change _ + inUse (spareWords R words) h.marks = _ at hb
  change _ + inUse (spareWords R words) t.marks = _ ↔ _
  cases ho with
  | @allocated _ size fuel p hc =>
    obtain ⟨-, rfl, hno⟩ | ⟨hacc, u, ho, rfl⟩ := heapAllocate_obtained hc
    · exact iff_of_true hb fun hacc => absurd hacc hno
    have hn : wordAlign size < 32768 := by
      have hle := hacc.1
      omega
    have hroom := hacc.2
    obtain ⟨hrem, ⟨rfl, rfl, hnone⟩ | ⟨hp, s, hsum, hiff⟩⟩ := obtained_inUse ho hE hn
    · exact iff_of_true hb fun _ j hc => absurd hc (hnone j)
    · have htidy : Tidy R h (.allocate size) ↔ s = wordAlign size :=
        ⟨fun htidy => hiff.mpr (htidy hacc), fun hs _ => hiff.mp hs⟩
      rw [htidy, charge, if_neg hp]
      dsimp only
      rw [hrem, sub32_eq hroom (by omega), hsum]
      omega
  | @released _ address fuel status hc =>
    unfold svcServiceGheapRelease at hc
    split_ifs at hc with hblist
    · obtain ⟨-, rfl⟩ := Prod.mk.inj (Option.some.inj hc)
      exact iff_of_true hb fun hne => absurd hblist hne
    · obtain ⟨⟨_, u⟩, hr, hc⟩ := Option.map_eq_some_iff.mp hc
      obtain ⟨-, rfl⟩ := Prod.mk.inj hc
      obtain ⟨rfl, hnone⟩ | ⟨j, s, hl, hlt, hrem, hsum, hiff⟩ :=
        unlinked_inUse (released_unlinked hE hblist hr) hE
      · exact iff_of_true hb fun _ j hl => absurd hl (hnone j)
      · have htidy : Tidy R h (.release address) ↔
            ((h.marks (position h j)).free = true → (h.marks (position h j)).size = 0) ∧ s = 0 := by
          refine ⟨fun htidy => ?_, fun ⟨hheld, hs⟩ _ i hi => ?_⟩
          · have hj := htidy hblist j hl
            exact ⟨hj.held, hiff.mpr hj.fits⟩
          · obtain rfl := hi.unique hl
            exact ⟨hheld, hiff.mp hs⟩
        have hle := le_inUse (m := h.marks) (hE.position j)
        have hsize := size_lt (h.marks (position h j))
        rw [htidy, hrem]
        unfold recorded at hsum hle
        split_ifs at hsum hle with hfree
        · rw [forall_prop_of_true hfree]
          unfold uint32
          omega
        · have hback : h.heapRemaining + (h.marks (position h j)).size < 4294967296 := by omega
          rw [forall_prop_of_false hfree, true_and, uint32_eq hback]
          omega

lemma initial_balanced (R : Region) (words : ℤ → Marker) : Balanced R words (heapInit R words) := by
  have hzero : ∑ z ∈ spareWords R words, recorded ((heapInit R words).marks z) = 0 := by
    apply Finset.sum_eq_zero
    intro z hz
    rw [(mem_spareWords.mp hz).2, recorded_empty]
  rw [Balanced, hzero, add_zero]

lemma operate_enclosed (ho : Operate R h e t) (hE : Enclosed R D h) : Enclosed R D t := by
  cases ho with
  | allocated hc =>
    obtain ⟨-, rfl, -⟩ | ⟨-, u, ho, rfl⟩ := heapAllocate_obtained hc
    · exact hE
    · exact (ho.enclosed hE).charge _ _
  | released hc =>
    unfold svcServiceGheapRelease at hc
    split_ifs at hc with hblist
    · obtain ⟨-, rfl⟩ := Prod.mk.inj (Option.some.inj hc)
      exact hE
    · obtain ⟨⟨_, u⟩, hr, hc⟩ := Option.map_eq_some_iff.mp hc
      obtain ⟨-, rfl⟩ := Prod.mk.inj hc
      exact (released_unlinked hE hblist hr).enclosed hE

section Emptying

variable {L M : List ℤ} {r r' : Registers}

def Rest (D : Finset ℤ) (h : Heap) (L : List ℤ) : Prop := ∀ z ∈ D, z ∉ L → h.marks z = .empty

def Leaves (h : Heap) (L : List ℤ) (t : Heap) (M : List ℤ) : Prop :=
  ∀ z, z ∉ M → t.marks z = .empty ∨ z ∉ L ∧ t.marks z = h.marks z

lemma Rest.step (hr : Rest D h L) (hl : Leaves h L t M) : Rest D t M := by
  intro z hz hM
  rcases hl z hM with he | ⟨hL, he⟩
  · exact he
  · rw [he]
    exact hr z hz hL

lemma Leaves.trans {N : List ℤ} (hl : Leaves h L t M) (hl' : Leaves t M u N) : Leaves h L u N := by
  intro z hN
  rcases hl' z hN with he | ⟨hM, he⟩
  · exact Or.inl he
  · rw [he]
    exact hl z hM

lemma Leaves.update {v : Marker} (hx : x ∈ L) (ht : t.marks = update h.marks x v) :
    Leaves h L t L := by
  refine fun z hz => Or.inr ⟨hz, ?_⟩
  rw [ht, update_of_ne (ne_of_mem_of_not_mem hx hz).symm]

lemma inserted_leaves (hi : Inserted x z L M) (hx : x ∈ L) {v w : Marker}
    (ht : t.marks = update (update h.marks z v) x w) : Leaves h L t M := by
  have hzM : z ∈ M := by cases hi <;> simp
  have hsub : L ⊆ M := by
    cases hi with
    | inside => intro y hy; simp only [List.mem_append, List.mem_cons] at hy ⊢; tauto
    | tail => exact List.Subset.refl _
  refine fun y hy => Or.inr ⟨fun hL => hy (hsub hL), ?_⟩
  rw [ht, update_of_ne (ne_of_mem_of_not_mem (hsub hx) hy).symm,
    update_of_ne (ne_of_mem_of_not_mem hzM hy).symm]

lemma append_leaves (hp : Path R h L) (hz : Vacant R h z) (hM : Path R (appendMarker h z n) M) :
    Leaves h L (appendMarker h z n) M := by
  by_cases hze : z = h.fsllEnd
  · subst hze
    obtain rfl := hM.unique hp.refill
    exact .update hp.end_mem appendMarker_end
  · obtain ⟨-, hp'⟩ | ⟨he, -⟩ := append_path (n := n) hp hz
    · obtain rfl := hM.unique hp'
      intro y hy
      rw [List.mem_append, List.mem_singleton, not_or] at hy
      refine Or.inr ⟨hy.1, ?_⟩
      rw [appendMarker_marks hze, update_of_ne (ne_of_mem_of_not_mem hp.end_mem hy.1).symm,
        update_of_ne hy.2]
    · exact absurd he hze

lemma allocated_leaves (ha : Allocated R h n p t) (hp : Path R h L) (hM : Path R t M)
    (hs : SplitSafe R h n) : Leaves h L t M := by
  have hsame : Path R h M → Leaves h L h M := fun hM => by
    obtain rfl := hM.unique hp
    exact fun z hz => Or.inr ⟨hz, rfl⟩
  cases ha with
  | searched _ hs' =>
    cases hs' with
    | none => exact hsame hM
    | @whole j hc =>
      obtain rfl := hM.unique (hp.setHalf _ _)
      exact .update (position_mem hp j) rfl
    | @split j z hc hne hz =>
      have hx := position_mem hp j
      obtain ⟨hend, hword⟩ := hs j z hc hne hz
      obtain ⟨N, hi⟩ := inserted hp hx hz.empty hend hword
      obtain rfl := hM.unique (hi.path hp hx hz)
      have hmarks := (congrArg Heap.marks (cut_eq (n := n) hp hi hx hz)).trans linkSplit_marks
      exact inserted_leaves hi hx hmarks
  | added ha =>
    cases ha with
    | full => exact hsame hM
    | @appended z k p hz hw => exact append_leaves hp hz (hM.congr rfl rfl fun _ _ => rfl)

lemma merge_leaves {v : ℕ} (x y : ℤ) (hL : ∀ w, w ∈ L → w = y ∨ w ∈ M)
    (hx : x ∈ M) : Leaves h L (mergeMarkers h x y d v) M := by
  intro w hw
  rw [mergeMarkers_marks]
  rcases eq_or_ne w y with rfl | hne
  · exact Or.inl (update_self ..)
  · refine Or.inr ⟨fun hmem => ?_, ?_⟩
    · exact (hL w hmem).elim hne hw
    · rw [update_of_ne hne, update_of_ne (ne_of_mem_of_not_mem hx hw).symm]

lemma nextJoined_leaves (hj : Outcomes.NextJoined r x L M r') : Leaves r.heap L r'.heap M := by
  cases hj with
  | deleted => exact .update (by simp) rfl
  | apart | large => exact fun z hz => Or.inr ⟨hz, rfl⟩
  | @merged pre post y b =>
    refine merge_leaves x y (fun w hw => ?_) (by simp)
    simp only [List.mem_append, List.mem_cons] at hw ⊢
    tauto
  | mergedLast => exact merge_leaves x _ (fun w hw => Or.inr hw) (by simp)

lemma predJoined_leaves (hj : Outcomes.PredJoined r q x L M r') : Leaves r.heap L r'.heap M := by
  cases hj with
  | @dropped pre hx =>
    intro w hw
    change update r.heap.marks q _ w = .empty ∨ _ ∧ update r.heap.marks q _ w = _
    simp only [List.mem_append, List.mem_singleton, not_or] at hw
    rw [update_of_ne hw.2]
    rcases eq_or_ne w x with rfl | hne
    · exact Or.inl hx
    · refine Or.inr ⟨?_, rfl⟩
      simp [hw, hne]
  | apart => exact fun z hz => Or.inr ⟨hz, rfl⟩
  | @merged pre post b =>
    refine merge_leaves q x (fun w hw => ?_) (by simp)
    simp only [List.mem_append, List.mem_cons] at hw ⊢
    tauto
  | mergedLast => exact merge_leaves q x (fun w hw => Or.inr hw) (by simp)

lemma removed_leaves (hr : Removed h x L M t) (hx : x ∈ L) : Leaves h L t M := by
  have hfree : Leaves h L (freeMarker h x).heap L := .update hx rfl
  cases hr with
  | first hn => exact hfree.trans (nextJoined_leaves hn)
  | joined hn hq => exact (hfree.trans (nextJoined_leaves hn)).trans (predJoined_leaves hq)

/-- The list of a careful run, with nothing beside it. -/
structure Kept (R : Region) (D : Finset ℤ) (c : Pool) (L : List ℤ) : Prop where
  sound : Sound R c L
  rest : Rest D c.heap L

lemma Kept.call {c d : Pool} (hk : Kept R D c L) (hcare : Careful R c e) (hd : Call R c e d) :
    ∃ M, Kept R D d M := by
  obtain ⟨M, hM⟩ := Rejections.Sound.call ⟨L, hk.sound⟩ hcare hd
  refine ⟨M, hM, hk.rest.step ?_⟩
  have hp := hk.sound.path
  have hsame : ∀ {h : Heap} {N : List ℤ}, Path R h L → Path R h N → Leaves h L h N := by
    intro h N hp hp'
    obtain rfl := hp'.unique hp
    exact fun z hz => Or.inr ⟨hz, rfl⟩
  cases hd with
  | allocated hc =>
    obtain ⟨-, rfl⟩ | ⟨hacc, u, ha, ht⟩ := heapAllocate_cases hc
    · exact hsame hp hM.path
    · have hu := congrArg Heap.marks ht
      have hpath : Path R u M := by
        have hpt := hM.path
        dsimp only at hpt
        rw [ht] at hpt
        exact hpt.congr rfl rfl fun _ _ => rfl
      have hleaves := allocated_leaves ha hp hpath (hcare hacc).2.1
      intro z hz
      dsimp only at hu ⊢
      rw [hu]
      exact hleaves z hz
  | @released h t live fuel a status hc =>
    unfold svcServiceGheapRelease at hc
    split_ifs at hc with hb
    · obtain ⟨-, rfl⟩ := Prod.mk.inj (Option.some.inj hc)
      exact hsame hp hM.path
    · obtain ⟨⟨p, u⟩, hr, hc⟩ := Option.map_eq_some_iff.mp hc
      obtain ⟨-, rfl⟩ := Prod.mk.inj hc
      by_cases hl : ∃ j, Located R h a j
      · obtain ⟨j, hl⟩ := hl
        obtain ⟨-, N, hN⟩ := removed hp hb hl hr
        obtain rfl := hM.path.unique (hN.path hp)
        exact removed_leaves hN (position_mem hp j)
      · obtain ⟨-, rfl⟩ := release_missing hb (not_exists.mp hl) hr
        exact hsame hp hM.path

lemma initial_kept (R : Region) (words : ℤ → Marker) :
    Kept R (spareWords R words) ⟨heapInit R words, []⟩ [R.bstart] :=
  ⟨Rejections.initial_sound R words, fun _ hz _ => (mem_spareWords.mp hz).2⟩

lemma Kept.nothing {c : Pool} (hk : Kept R D c L) (hlive : c.live = []) (hz : z ∈ D) :
    recorded (c.heap.marks z) = 0 := by
  by_cases hL : z ∈ L
  · by_contra hne
    unfold recorded at hne
    split_ifs at hne with hfree
    · exact hne rfl
    obtain ⟨pre, post, rfl⟩ := List.append_of_mem hL
    have hbegins : Begins R (blocks c.heap.marks (pre ++ z :: post))
        (R.hstart + total Prod.fst (blocks c.heap.marks pre)) := by
      refine ⟨_, _, Nat.pos_of_ne_zero hne, rfl, ?_⟩
      rw [blocks_append, blocks_cons, block, Bool.eq_false_iff.mpr hfree]
      exact At.intro
    obtain ⟨n, hn⟩ := (hk.sound.live _).mpr hbegins
    rw [hlive] at hn
    exact List.not_mem_nil hn
  · rw [hk.rest z hz hL, recorded_empty]

end Emptying

lemma Call.operate {c d : Pool} (hd : Call R c e d) : Operate R c.heap e d.heap := by
  cases hd with
  | allocated hc => exact .allocated hc
  | released hc => exact .released hc

lemma tidy_balanced (hr : Run (fun h e t => Tidy R h e ∧ Operate R h e t) (heapInit R words) es h) :
    Enclosed R (spareWords R words) h ∧ Balanced R words h := by
  refine hr.invariant (I := fun h => Enclosed R (spareWords R words) h ∧ Balanced R words h) ?_
    ⟨initial_enclosed R words, initial_balanced R words⟩
  rintro h e t ⟨hE, hb⟩ ⟨htidy, ho⟩
  exact ⟨operate_enclosed ho hE, (operate_balanced ho hE hb).mpr htidy⟩

/-- In every tidy run the books balance, and the next call keeps them so exactly if it is tidy. If the
calls are careful too, `heap_remaining` is back at its first value once every block is released. -/
theorem heap_accounting (R : Region) (words : ℤ → Marker) :
    (∀ es h, Run (fun h e t => Tidy R h e ∧ Operate R h e t) (heapInit R words) es h →
      Balanced R words h ∧ h.heapRemaining ≤ (heapInit R words).heapRemaining ∧
        ∀ e t, Operate R h e t → (Balanced R words t ↔ Tidy R h e)) ∧
    ∀ es c, Run (fun c e d => (Tidy R c.heap e ∧ Careful R c e) ∧ Call R c e d)
        ⟨heapInit R words, []⟩ es c →
      c.live = [] → c.heap.heapRemaining = (heapInit R words).heapRemaining := by
  constructor
  · intro es h hr
    obtain ⟨hE, hb⟩ := tidy_balanced hr
    exact ⟨hb, hb ▸ Nat.le_add_right _ _, fun e t ho => operate_balanced ho hE hb⟩
  · intro es c hr hlive
    obtain ⟨⟨hE, hb⟩, L, hk⟩ : (Enclosed R (spareWords R words) c.heap ∧ Balanced R words c.heap) ∧
        ∃ L, Kept R (spareWords R words) c L := by
      refine hr.invariant (I := fun c => (Enclosed R (spareWords R words) c.heap ∧
        Balanced R words c.heap) ∧ ∃ L, Kept R (spareWords R words) c L) ?_
          ⟨⟨initial_enclosed R words, initial_balanced R words⟩, _, initial_kept R words⟩
      rintro c e d ⟨⟨hE, hb⟩, L, hk⟩ ⟨⟨htidy, hcare⟩, hd⟩
      have ho := Call.operate hd
      exact ⟨⟨operate_enclosed ho hE, (operate_balanced ho hE hb).mpr htidy⟩, hk.call hcare hd⟩
    rw [Balanced, Finset.sum_eq_zero fun z hz => hk.nothing hlive hz, add_zero] at hb
    exact hb

section Instances

def operate (R : Region) (fuel : ℕ) (h : Heap) : Request → Option Heap
  | .allocate size => (heapAllocate R fuel h size).map Prod.snd
  | .release address => (svcServiceGheapRelease R fuel h address).map Prod.snd

lemma operate_sound {fuel : ℕ} (h : Heap) (e : Request) (t : Heap)
    (ho : operate R fuel h e = some t) : Operate R h e t := by
  cases e with
  | allocate size =>
    obtain ⟨⟨p, u⟩, hc, rfl⟩ := Option.map_eq_some_iff.mp ho
    exact .allocated hc
  | release address =>
    obtain ⟨⟨status, u⟩, hc, rfl⟩ := Option.map_eq_some_iff.mp ho
    exact .released hc

def tidy (R : Region) (h : Heap) : Request → Bool
  | .allocate _ => h.marks (-1) = .empty
  | .release address => Roomy h ∧ HoldsAt R h address

lemma joined_small (hr : Roomy h) (hj : j < h.blistSize) (hq : Precedes h q (position h j)) :
    joinedSize h q (position h j) ≤ 32768 := by
  obtain ⟨i, rfl, hi, hfirst⟩ := hq
  have hlt : i < j := by
    by_contra hle
    exact hfirst j (not_lt.mp hle) rfl
  have hsizes := hr i (hlt.trans hj)
  have hnext : position h (i + 2) = h.next (position h j) := by rw [position_succ, hi]
  rw [hi, hnext] at hsizes
  unfold joinedSize
  omega

lemma tidy_sound (htidy : tidy R h e = true) : Tidy R h e := by
  cases e with
  | allocate size =>
    have hpos := R.kilobytes_pos
    refine fun _ j _ => Or.inr ⟨-1, le_rfl, ?_, of_decide_eq_true htidy, fun y hy hlt => ?_⟩
    · unfold Region.bstart Region.words
      omega
    · omega
  | release address =>
    obtain ⟨hroom, hheld⟩ := of_decide_eq_true htidy
    refine fun _ j hl => ⟨fun hfree => ?_, fun q hq _ _ => Or.inl (joined_small hroom hl.lt hq)⟩
    exact absurd ((hheld.finds j hl).symm.trans hfree) (by decide)

def operateTidy (R : Region) (fuel : ℕ) (h : Heap) (e : Request) : Option Heap :=
  if tidy R h e = true then operate R fuel h e else none

lemma operateTidy_sound {fuel : ℕ} (h : Heap) (e : Request) (t : Heap)
    (ho : operateTidy R fuel h e = some t) : Tidy R h e ∧ Operate R h e t := by
  unfold operateTidy at ho
  split_ifs at ho with htidy
  exact ⟨tidy_sound htidy, operate_sound h e t ho⟩

def callTidy (R : Region) (fuel : ℕ) (c : Pool) (e : Request) : Option Pool :=
  if tidy R c.heap e = true then call R fuel c e else none

lemma callTidy_sound {fuel : ℕ} (c : Pool) (e : Request) (d : Pool)
    (hc : callTidy R fuel c e = some d) : (Tidy R c.heap e ∧ Careful R c e) ∧ Call R c e d := by
  unfold callTidy at hc
  split_ifs at hc with htidy
  obtain ⟨hcare, hd⟩ := call_sound c e d hc
  exact ⟨⟨tidy_sound htidy, hcare⟩, hd⟩

def reusing : List Request :=
  [.allocate 100, .allocate 4, .release 0x20001000, .allocate 40, .release 0x20001064]

def draining : List Request := reusing ++ [.release 0x20001000]

theorem heap_accounting_reusing :
    (∃ h, Run (fun h e t => Tidy kilobyte h e ∧ Operate kilobyte h e t) fresh.heap reusing h ∧
      h.heapRemaining + 40 = fresh.heap.heapRemaining ∧ Balanced kilobyte (fun _ => .empty) h) ∧
    ∃ c, Run (fun c e d => (Tidy kilobyte c.heap e ∧ Careful kilobyte c e) ∧ Call kilobyte c e d)
      fresh draining c ∧ c.heap.blistSize = 1 ∧ c.heap.heapRemaining = fresh.heap.heapRemaining := by
  have hreuse : ((exec (operateTidy kilobyte 300) fresh.heap reusing).any fun h =>
      decide (h.heapRemaining + 40 = fresh.heap.heapRemaining)) = true := by decide +kernel
  have hdrain : ((exec (callTidy kilobyte 300) fresh draining).any fun c =>
      decide (c.live = [] ∧ c.heap.blistSize = 1)) = true := by decide +kernel
  obtain ⟨h, hr, hrem⟩ := exec_any_run operateTidy_sound hreuse
  obtain ⟨c, hc, hlive, hcount⟩ := exec_any_run callTidy_sound hdrain
  exact ⟨⟨h, hr, hrem, ((heap_accounting _ _).1 _ _ hr).1⟩,
    c, hc, hcount, (heap_accounting _ _).2 _ _ hc hlive⟩

/-- The second release of the first block gives its 100 bytes back once more. -/
theorem heap_accounting_fails : ∃ h, Run (Operate kilobyte) fresh.heap
    [.allocate 100, .allocate 4, .release 0x20001000, .release 0x20001000] h ∧
      fresh.heap.heapRemaining < h.heapRemaining ∧ ¬ Balanced kilobyte (fun _ => .empty) h := by
  have hsome : ((exec (operate kilobyte 300) fresh.heap
      [.allocate 100, .allocate 4, .release 0x20001000, .release 0x20001000]).any fun h =>
        decide (fresh.heap.heapRemaining < h.heapRemaining)) = true := by decide +kernel
  obtain ⟨h, hr, hrem⟩ := exec_any_run operate_sound hsome
  refine ⟨h, hr, hrem, fun hb => ?_⟩
  have hle : h.heapRemaining ≤ fresh.heap.heapRemaining := hb ▸ Nat.le_add_right _ _
  exact absurd hle (not_le.mpr hrem)

end Instances

end Skibios.Allocator.Accounting

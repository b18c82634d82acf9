import Skibios.Allocator.Accounting

/-! How far the blocks reach into the RAM. -/

namespace Skibios.Allocator.Bounds

open Function Library.Words Library.Runs Library.Orbits
open Markers Paths Walks Outcomes Pools Layouts Overlap Reach Accounting

/-- `DEVICE_SRAM_START + DEVICE_SRAM_SIZE` -/
def sramEnd : ℕ := 0x20000000 + 0x40000

def RoomBehind (R : Region) (h : Heap) (n : ℕ) : Prop :=
  ∀ k, FirstVisit h.next h.fsllStart k → (∀ i < k, position h i ≠ h.fsllEnd) →
    addressAt R h (k + 1) + n ≤ sramEnd

/-- A request that is neither refused nor left without a marker is not rounded up to zero, and it
fits behind the other blocks if it fits nowhere else. -/
def Fitting (R : Region) (h : Heap) : Request → Prop
  | .allocate size => Accepted h size →
      (∃ j < h.blistSize, Fits h (wordAlign size) (position h j)) ∨ Spare R h →
      size ≤ 4294967292 ∧ ((∀ j < h.blistSize, ¬ Fits h (wordAlign size) (position h j)) →
        RoomBehind R h (wordAlign size))
  | .release _ => True

def bytes (S : Finset ℤ) (m : ℤ → Marker) : ℕ := ∑ z ∈ S, (m z).size

structure Within (R : Region) (S : Finset ℤ) (h : Heap) : Prop where
  closed : Closed S h
  words : ∀ z ∈ S, 4 ∣ (h.marks z).size
  bound : h.blistSize ≠ 0 → R.hstart + bytes S h.marks ≤ sramEnd

variable {R : Region} {D S : Finset ℤ} {h t u : Heap} {m m' : ℤ → Marker} {words : ℤ → Marker}
  {a i j k n p r3 : ℕ} {d q x z : ℤ} {c : Pool} {e : Request} {es : List Request}

lemma addressAt_eq (R : Region) (h : Heap) (j : ℕ) :
    addressAt R h j = R.hstart + ∑ i ∈ Finset.range j, (h.marks (position h i)).size := by
  induction j with
  | zero => simp [addressAt]
  | succ j ih => rw [addressAt, ih, Finset.sum_range_succ, add_assoc]

lemma addressAt_le (hC : Closed S h) (hj : FirstVisit h.next h.fsllStart j) :
    addressAt R h (j + 1) ≤ R.hstart + bytes S h.marks := by
  rw [addressAt_eq]
  apply Nat.add_le_add_left
  exact sum_orbit_le (fun z => (h.marks z).size) hC.start hC.next hj

lemma bytes_update (hx : x ∈ S) (v : Marker) :
    bytes S (update m x v) + (m x).size = bytes S m + v.size := sum_update Marker.size hx

lemma words_update (h4 : ∀ z ∈ S, 4 ∣ (m z).size) {v : Marker} (hv : 4 ∣ v.size) :
    ∀ z ∈ S, 4 ∣ (update m x v z).size := by
  intro z hz
  rcases eq_or_ne z x with rfl | hne
  · rwa [update_self]
  · rw [update_of_ne hne]
    exact h4 z hz

lemma size_allocated (hn : n < 32768) : (⟨uint16 n, d⟩ : Marker).size = n :=
  (Prod.mk.inj (block_allocated hn)).1

lemma size_free (hn : n < 32768) : (⟨uint16 (n + 32768), d⟩ : Marker).size = n :=
  (Prod.mk.inj (block_free hn)).1

lemma size_empty : Marker.empty.size = 0 := rfl

lemma wordAlign_dvd (size : ℕ) : 4 ∣ wordAlign size := by
  unfold wordAlign uint32
  split_ifs <;> omega

lemma le_wordAlign {size : ℕ} (hs : size ≤ 4294967292) : size ≤ wordAlign size := by
  unfold wordAlign uint32
  split_ifs <;> omega

lemma wordAlign_wraps {size : ℕ} (hs : size ≤ wordAlign size) : size ≤ 4294967292 := by
  unfold wordAlign uint32 at hs
  split_ifs at hs <;> omega

section Allocation

lemma chosen_first (hc : Chosen h n j) : FirstVisit h.next h.fsllStart j := by
  intro i hi he
  have hsame : position h i = position h j := he
  exact hc.first i hi (hsame ▸ hc.fits)

lemma chosen_le (hW : Within R S h) (hc : Chosen h n j) : addressAt R h j + n ≤ sramEnd := by
  have hb : h.blistSize ≠ 0 := Nat.ne_zero_of_lt hc.lt
  have hend := addressAt_le (R := R) hW.closed (chosen_first hc)
  have hbound := hW.bound hb
  have hroom := hc.fits.2
  change addressAt R h j + (h.marks (position h j)).size ≤ _ at hend
  omega

lemma whole_within (hW : Within R S h) (x : ℤ) :
    Within R S (h.setHalf x (h.marks x).size) := by
  have hsize : ∀ z, ((h.setHalf x (h.marks x).size).marks z).size = (h.marks z).size := by
    intro z
    change (update h.marks x { h.marks x with half := uint16 (h.marks x).size } z).size = _
    rcases eq_or_ne z x with rfl | hne
    · rw [update_self]
      exact size_allocated (size_lt _)
    · rw [update_of_ne hne]
  refine ⟨⟨hW.closed.start, fun z hz => ?_⟩, fun z hz => ?_, fun hb => ?_⟩
  · rw [setHalf_next]
    exact hW.closed.next z hz
  · rw [hsize]
    exact hW.words z hz
  · have hbytes : bytes S (h.setHalf x (h.marks x).size).marks = bytes S h.marks :=
      Finset.sum_congr rfl fun z _ => hsize z
    rw [hbytes]
    exact hW.bound hb

lemma cut_bytes (hE : Enclosed R D h) (hxD : x ∈ D) (hf : Fits h n x) (hz : Lowest R h z)
    (hx : x ∈ S) (hzS : z ∈ S) : bytes S (cut h x z n).marks = bytes S h.marks := by
  have hlt := size_lt (h.marks x)
  have hroom := hf.2
  have hrest := bytes_update (m := h.marks) hzS
    ⟨uint16 ((h.marks x).size - n + 32768), h.next x - z⟩
  rw [size_free (by omega), hz.empty, size_empty] at hrest
  have hfirst := bytes_update (m := update h.marks z
    ⟨uint16 ((h.marks x).size - n + 32768), h.next x - z⟩) hx ⟨uint16 n, z - x⟩
  rw [size_allocated (by omega), update_of_ne (fits_ne hf hz.empty)] at hfirst
  rw [cut_marks hE hxD hf hz]
  omega

lemma cut_within (hE : Enclosed R D h) (hW : Within R S h) (hc : Chosen h n j) (hz : Lowest R h z)
    (hn : 4 ∣ n) : Within R (insert z S) (cut h (position h j) z n) := by
  have hxD := hE.position j
  have hx := hW.closed.position j
  have hlt := size_lt (h.marks (position h j))
  have hroom := hc.fits.2
  have hb : h.blistSize ≠ 0 := Nat.ne_zero_of_lt hc.lt
  obtain ⟨hnx, hnz, hnw⟩ := cut_next hE hxD hc.fits hz
  have hmarks := cut_marks hE hxD hc.fits hz
  have hlink := cut_link hE hxD hc.fits hz
  have hf := hc.fits
  generalize position h j = x at *
  have hold : ∀ w ∈ insert z S, 4 ∣ (h.marks w).size := by
    intro w hw
    rcases Finset.mem_insert.mp hw with rfl | hw
    · rw [hz.empty]
      exact dvd_zero 4
    · exact hW.words w hw
  have hbytes : bytes (insert z S) h.marks = bytes S h.marks := by
    apply Finset.sum_insert_of_eq_zero_if_notMem
    intro _
    rw [hz.empty, size_empty]
  refine ⟨⟨?_, fun w hw => ?_⟩, fun w hw => ?_, fun _ => ?_⟩
  · rw [hlink]
    exact Finset.mem_insert_of_mem hW.closed.start
  · by_cases hwx : w = x
    · rw [hwx, hnx]
      exact Finset.mem_insert_self z S
    · by_cases hwz : w = z
      · rw [hwz, hnz]
        exact Finset.mem_insert_of_mem (hW.closed.next x hx)
      · rw [hnw w hwx hwz]
        exact Finset.mem_insert_of_mem (hW.closed.next w (Finset.mem_of_mem_insert_of_ne hw hwz))
  · rw [hmarks]
    refine words_update (words_update hold ?_) ?_ w hw
    · rw [size_free (by omega)]
      exact Nat.dvd_sub (hW.words x hx) hn
    · rwa [size_allocated (by omega)]
  · rw [cut_bytes hE hxD hf hz (Finset.mem_insert_of_mem hx) (Finset.mem_insert_self z S), hbytes]
    exact hW.bound hb

lemma append_size (hn : n < 32768) : ((appendMarker h z n).marks z).size = n := by
  rcases eq_or_ne z h.fsllEnd with rfl | hne
  · rw [appendMarker_end, update_self]
    exact size_allocated hn
  · rw [appendMarker_marks hne, update_of_ne hne, update_self]
    exact size_allocated hn

lemma append_size_of_ne {w : ℤ} (hw : w ≠ z) :
    ((appendMarker h z n).marks w).size = (h.marks w).size := by
  rcases eq_or_ne w h.fsllEnd with rfl | hne
  · rw [appendMarker_marks hw.symm, update_self]
    rfl
  · rw [append_frame hne hw]

section Walk

variable (he : h.marks z = .empty) (hj : position (appendMarker h z n) j = z)
  (hfirst : ∀ i < j, position (appendMarker h z n) i ≠ z)
include hfirst

lemma append_agree (hi : i < j) : position (appendMarker h z n) i = position h i := by
  obtain ⟨hlast, hother⟩ := append_next (h := h) (z := z) (n := n)
  refine agree_of_last (x := z) (fun w => ?_) hfirst hi
  by_cases hw : w = h.fsllEnd
  · rw [hw]
    exact Or.inr hlast
  · exact Or.inl (hother w hw)

lemma append_before (hi : i + 1 < j) : position h i ≠ h.fsllEnd := by
  intro hend
  apply hfirst (i + 1) hi
  rw [position_succ, append_agree hfirst (by omega), hend]
  exact append_next.1

lemma append_address (hi : i ≤ j) : addressAt R (appendMarker h z n) i = addressAt R h i := by
  induction i with
  | zero => rfl
  | succ i ih =>
    rw [addressAt, addressAt, ih (by omega), append_size_of_ne (hfirst i (by omega)),
      append_agree hfirst (by omega)]

include hj

lemma walk_firstVisit : FirstVisit (appendMarker h z n).next (appendMarker h z n).fsllStart j := by
  intro i hi hsame
  exact hfirst i hi (hsame.trans hj)

lemma append_firstVisit (hk : k < j) : FirstVisit h.next h.fsllStart k := by
  intro i hi hsame
  have hne := (walk_firstVisit hj hfirst).ne hi hk.le
  have hi' := append_agree hfirst (hi.trans hk)
  have hk' := append_agree hfirst hk
  exact hne (hi'.trans (hsame.trans hk'.symm))

lemma append_position (hend : ∀ i < j, position h i ≠ h.fsllEnd) : position h j = z := by
  cases j with
  | zero => exact hj
  | succ i =>
    rw [position_succ, append_agree hfirst (by omega)] at hj
    rw [position_succ, ← append_next.2 _ (hend i (by omega))]
    exact hj

include he

lemma room_iff : addressAt R (appendMarker h z n) j + n ≤ sramEnd ↔ RoomBehind R h n := by
  constructor
  · intro hroom k hk hend
    rw [append_address hfirst le_rfl] at hroom
    suffices hle : addressAt R h (k + 1) ≤ addressAt R h j by omega
    rcases lt_or_ge k j with hlt | hge
    · exact addressAt_mono R h hlt
    · have hstop := append_position hj hfirst fun i hi => hend i (hi.trans_le hge)
      have hstuck : h.next z = z := next_of_tail (by rw [he]; rfl)
      have hkz : position h k = z := iterate_stuck hstop hstuck hge
      obtain rfl : k = j := by
        by_contra hne
        exact hk j (by omega) (hstop.trans hkz.symm)
      rw [addressAt, hstop, he, size_empty, add_zero]
  · intro hroom
    rw [append_address hfirst le_rfl]
    cases j with
    | zero =>
      have hfit := hroom 0 .zero (by simp)
      rw [addressAt] at hfit
      omega
    | succ k =>
      refine hroom k (append_firstVisit hj hfirst (by omega)) fun i hi => ?_
      exact append_before hfirst (by omega)

lemma append_within (hW : Within R S h) (hn : n < 32768) (h4 : 4 ∣ n)
    (hroom : addressAt R (appendMarker h z n) j + n ≤ sramEnd) :
    Within R ((Finset.range (j + 1)).image fun i => position (appendMarker h z n) i)
      { appendMarker h z n with blistSize := k } := by
  have hstuck : (appendMarker h z n).next (position (appendMarker h z n) j) =
      position (appendMarker h z n) j := by
    rw [hj]
    by_cases hend : z = h.fsllEnd
    · rw [hend]
      exact append_next.1
    · rw [append_next.2 z hend]
      exact next_of_tail (by rw [he]; rfl)
  refine ⟨⟨?_, orbit_closed hstuck⟩, fun w hw => ?_, fun _ => ?_⟩
  · exact Finset.mem_image.mpr ⟨0, Finset.mem_range.mpr (by omega), rfl⟩
  · obtain ⟨i, hi, rfl⟩ := Finset.mem_image.mp hw
    rcases Nat.lt_succ_iff_lt_or_eq.mp (Finset.mem_range.mp hi) with hi | rfl
    · change 4 ∣ ((appendMarker h z n).marks (position (appendMarker h z n) i)).size
      rw [append_size_of_ne (hfirst i hi), append_agree hfirst hi]
      exact hW.words _ (hW.closed.position i)
    · change 4 ∣ ((appendMarker h z n).marks (position (appendMarker h z n) i)).size
      rwa [hj, append_size hn]
  · have hbytes : bytes ((Finset.range (j + 1)).image fun i => position (appendMarker h z n) i)
        (appendMarker h z n).marks = ∑ i ∈ Finset.range (j + 1),
          ((appendMarker h z n).marks (position (appendMarker h z n) i)).size :=
      sum_image_orbit _ (walk_firstVisit hj hfirst)
    change R.hstart + bytes _ (appendMarker h z n).marks ≤ sramEnd
    rw [hbytes, ← addressAt_eq, addressAt, hj, append_size hn]
    exact hroom

end Walk

end Allocation

section Release

lemma freed_within (hf : Freed h x m r3) (hx : x ∈ S) (hC : Closed S h)
    (h4 : ∀ z ∈ S, 4 ∣ (h.marks z).size) :
    bytes S m ≤ bytes S h.marks ∧ ∀ z ∈ S, 4 ∣ (m z).size := by
  have hlt := size_lt (h.marks x)
  cases hf with
  | last =>
    have hsum := bytes_update (m := h.marks) hx .empty
    rw [size_empty] at hsum
    exact ⟨by omega, words_update h4 (dvd_zero 4)⟩
  | alone =>
    have hsum := bytes_update (m := h.marks) hx
      ⟨uint16 ((h.marks x).size + 32768), (h.marks x).offset⟩
    rw [size_free hlt] at hsum
    refine ⟨by omega, words_update h4 ?_⟩
    rw [size_free hlt]
    exact h4 x hx
  | merged h0 hy hs =>
    have hnext := hC.next x hx
    have hsum := bytes_update (m := h.marks) hx ⟨uint16 ((h.marks x).size +
      (h.marks (h.next x)).size + 32768), h.next (h.next x) - x⟩
    have hclear := bytes_update (m := update h.marks x ⟨uint16 ((h.marks x).size +
      (h.marks (h.next x)).size + 32768), h.next (h.next x) - x⟩) hnext .empty
    rw [size_free (by omega)] at hsum
    rw [update_of_ne (next_ne h0), size_empty] at hclear
    refine ⟨by omega, words_update (words_update h4 ?_) (dvd_zero 4)⟩
    rw [size_free (by omega)]
    exact Nat.dvd_add (h4 x hx) (h4 _ hnext)

lemma freed_register (hf : Freed h x m r3) (hx : x ∈ S) (hC : Closed S h)
    (h4 : ∀ z ∈ S, 4 ∣ (h.marks z).size) : m x = .empty ∨ 4 ∣ r3 ∧
      (r3 = (m x).size + 32768 ∨ 65536 ≤ r3 ∧ r3 < (m x).size + 65536) := by
  have hlt := size_lt (h.marks x)
  have hlt' := size_lt (h.marks (h.next x))
  have hdvd := h4 x hx
  have hdvd' := h4 _ (hC.next x hx)
  cases hf with
  | last => exact Or.inl (update_self ..)
  | alone h0 hy =>
    right
    rw [update_self, size_free hlt, freeSize]
    rcases hy with hy | hy
    · rw [if_neg (by simp [hy])]
      omega
    · split_ifs <;> omega
  | merged h0 hy hs =>
    right
    rw [update_of_ne (next_ne h0).symm, update_self, size_free (by omega)]
    omega

lemma merged_within (hm : Merged m r3 x q m') (hx : x ∈ S) (hq : q ∈ S) (hne : q ≠ x)
    (hr : m x = .empty ∨ 4 ∣ r3 ∧
      (r3 = (m x).size + 32768 ∨ 65536 ≤ r3 ∧ r3 < (m x).size + 65536))
    (h4 : ∀ z ∈ S, 4 ∣ (m z).size) : bytes S m' ≤ bytes S m ∧ ∀ z ∈ S, 4 ∣ (m' z).size := by
  cases hm with
  | dropped =>
    have hsum := bytes_update (m := m) hq ⟨(m q).half, 0⟩
    exact ⟨(Nat.add_right_cancel hsum).le, words_update h4 (h4 q hq)⟩
  | apart => exact ⟨le_rfl, h4⟩
  | merged he hfree =>
    obtain ⟨hdvd, hr⟩ := hr.resolve_left he
    have hlt := size_lt (m x)
    have hltq := size_lt (m q)
    have hdvdq := h4 q hq
    have hsum := bytes_update (m := m) hq ⟨uint16 (r3 + (m q).size), x - q + (m x).offset⟩
    have hclear := bytes_update (m := update m q
      ⟨uint16 (r3 + (m q).size), x - q + (m x).offset⟩) hx .empty
    rw [update_of_ne hne.symm, size_empty] at hclear
    have hsize : (⟨uint16 (r3 + (m q).size), x - q + (m x).offset⟩ : Marker).size =
        (r3 + (m q).size) % 65536 % 32768 := rfl
    rw [hsize] at hsum
    refine ⟨by omega, words_update (words_update h4 ?_) (dvd_zero 4)⟩
    rw [hsize]
    omega

lemma unlinked_within (ho : Unlinked R h a t) (hb : h.blistSize ≠ 0) (hW : Within R S h) :
    Within R S t := by
  have hC := ho.closed hW.closed
  have hbound := hW.bound hb
  cases ho with
  | missing => exact hW
  | @first j k r3 m _ hf =>
    obtain ⟨hle, h4⟩ := freed_within hf (hW.closed.position j) hW.closed hW.words
    exact ⟨hC, h4, fun _ => (Nat.add_le_add_left hle _).trans hbound⟩
  | @joined j k r3 q d m m' _ hf hq hkept hm =>
    have hx := hW.closed.position j
    obtain ⟨hle, h4⟩ := freed_within hf hx hW.closed hW.words
    obtain ⟨hle', h4'⟩ := merged_within hm hx (precedes_mem hq hW.closed) hq.ne
      (freed_register hf hx hW.closed hW.words) h4
    exact ⟨hC, h4', fun _ => (Nat.add_le_add_left (hle'.trans hle) _).trans hbound⟩

end Release

lemma initial_within (R : Region) (words : ℤ → Marker) :
    Within R (spareWords R words) (heapInit R words) := by
  refine ⟨(initial_enclosed R words).toClosed, fun z hz => ?_, fun hb => absurd rfl hb⟩
  rw [(mem_spareWords.mp hz).2]
  exact dvd_zero 4

lemma Within.charge (hW : Within R S h) (p n : ℕ) : Within R S (charge h p n) := by
  unfold Reach.charge
  split_ifs
  · exact hW
  · exact ⟨⟨hW.closed.start, hW.closed.next⟩, hW.words, hW.bound⟩

lemma obtained_within (ho : Obtained R h n p t) (hE : Enclosed R D h) (hW : Within R S h)
    (hn : n < 32768) (h4 : 4 ∣ n) (hroom : (∀ j < h.blistSize, ¬ Fits h n (position h j)) →
      Spare R h → RoomBehind R h n) : ∃ S, Within R S t := by
  cases ho with
  | whole => exact ⟨S, whole_within hW _⟩
  | split hc _ hz => exact ⟨_, cut_within hE hW hc hz h4⟩
  | full => exact ⟨S, hW⟩
  | appended hnone hz hs hj hfirst =>
    have hinside := (room_iff hz.empty hj hfirst).mpr (hroom hnone hs)
    exact ⟨_, append_within hz.empty hj hfirst hW hn h4 hinside⟩

lemma obtained_inside (ho : Obtained R h n p t) (hW : Within R S h) (hp : p ≠ 0) :
    R.hstart ≤ p ∧ ((∃ j < h.blistSize, Fits h n (position h j)) ∨ Spare R h) ∧
      (p + n ≤ sramEnd ↔
        ((∀ j < h.blistSize, ¬ Fits h n (position h j)) → RoomBehind R h n)) := by
  cases ho with
  | @whole j hc | @split j z hc =>
    refine ⟨hstart_le R h j, Or.inl ⟨j, hc.lt, hc.fits⟩, ?_⟩
    exact iff_of_true (chosen_le hW hc) fun hnone => absurd hc.fits (hnone j hc.lt)
  | full => exact absurd rfl hp
  | appended hnone hz hs hj hfirst =>
    refine ⟨hstart_le R _ _, Or.inr hs, (room_iff hz.empty hj hfirst).trans ?_⟩
    exact ⟨fun hroom _ => hroom, fun hroom => hroom hnone⟩

lemma operate_within (ho : Operate R h e t) (hfit : Fitting R h e) (hE : Enclosed R D h)
    (hW : Within R S h) : ∃ S, Within R S t := by
  cases ho with
  | @allocated _ size fuel p hc =>
    obtain ⟨-, rfl, -⟩ | ⟨hacc, u, ho, rfl⟩ := heapAllocate_obtained hc
    · exact ⟨S, hW⟩
    · have hn : wordAlign size < 32768 := by
        have hle := hacc.1
        omega
      obtain ⟨S', hW'⟩ := obtained_within ho hE hW hn (wordAlign_dvd size) fun hnone hs =>
        (hfit hacc (Or.inr hs)).2 hnone
      exact ⟨S', hW'.charge _ _⟩
  | released hc =>
    unfold svcServiceGheapRelease at hc
    split_ifs at hc with hb
    · obtain ⟨-, rfl⟩ := Prod.mk.inj (Option.some.inj hc)
      exact ⟨S, hW⟩
    · obtain ⟨⟨_, u⟩, hr, hc⟩ := Option.map_eq_some_iff.mp hc
      obtain ⟨-, rfl⟩ := Prod.mk.inj hc
      exact ⟨S, unlinked_within (released_unlinked hE hb hr) hb hW⟩

lemma serve_operate {d : Pool} (hs : Serve R c e d) : Operate R c.heap e d.heap := by
  cases hs with
  | allocated hc => exact .allocated hc
  | released _ hc => exact .released hc

theorem blocks_inside_sram {size fuel : ℕ}
    (hr : Run (fun c e d => Fitting R c.heap e ∧ Serve R c e d) ⟨heapInit R words, []⟩ es c)
    (hc : heapAllocate R fuel c.heap size = some (p, t)) (hp : p ≠ 0) :
    (Fitting R c.heap (.allocate size) → R.hstart ≤ p ∧ p + size ≤ sramEnd) ∧
      (size ≤ wordAlign size → p + wordAlign size ≤ sramEnd →
        Fitting R c.heap (.allocate size)) := by
  obtain ⟨hE, S, hW⟩ : Enclosed R (spareWords R words) c.heap ∧ ∃ S, Within R S c.heap := by
    refine hr.invariant
      (I := fun c => Enclosed R (spareWords R words) c.heap ∧ ∃ S, Within R S c.heap) ?_
      ⟨initial_enclosed R words, _, initial_within R words⟩
    rintro c e d ⟨hE, S, hW⟩ ⟨hfit, hs⟩
    have ho := serve_operate hs
    exact ⟨operate_enclosed ho hE, operate_within ho hfit hE hW⟩
  obtain ⟨rfl, -, -⟩ | ⟨hacc, u, ho, rfl⟩ := heapAllocate_obtained hc
  · exact absurd rfl hp
  obtain ⟨hstart, hfound, hiff⟩ := obtained_inside ho hW hp
  constructor
  · intro hfit
    obtain ⟨hsize, hroom⟩ := hfit hacc hfound
    have hend := hiff.mpr hroom
    have hle := le_wordAlign hsize
    exact ⟨hstart, by omega⟩
  · intro hle hend _ _
    exact ⟨wordAlign_wraps hle, hiff.mp hend⟩

section Instances

/-- The heap has the last 100 bytes of the RAM. -/
def nearEnd : Region := { kilobyte with heapStart := sramEnd - 100, heapStart_pos := by decide }

def emptied : Pool := ⟨heapInit nearEnd fun _ => .empty, []⟩

def fragmenting : List Request := [.allocate 40, .allocate 40, .release (sramEnd - 100)]

def fitting (R : Region) (c : Pool) : Request → Bool
  | .allocate size => size ≤ 4294967292 ∧
      position c.heap (c.heap.blistSize - 1 + 1) = position c.heap (c.heap.blistSize - 1) ∧
      addressAt R c.heap (c.heap.blistSize - 1 + 1) + wordAlign size ≤ sramEnd
  | .release _ => true

lemma room_of_stuck (hstuck : position h (j + 1) = position h j)
    (hend : addressAt R h (j + 1) + n ≤ sramEnd) : RoomBehind R h n := by
  intro k hk _
  rw [position_succ] at hstuck
  have hle : k ≤ j := by
    by_contra hlt
    have hlt := not_le.mp hlt
    exact hk j hlt (iterate_stuck rfl hstuck hlt.le).symm
  have hmono := addressAt_mono R h (Nat.succ_le_succ hle)
  exact (Nat.add_le_add_right hmono n).trans hend

lemma fitting_sound (c : Pool) (e : Request) (hf : fitting R c e = true) : Fitting R c.heap e := by
  cases e with
  | allocate size =>
    obtain ⟨hsize, hstuck, hend⟩ := of_decide_eq_true hf
    exact fun _ _ => ⟨hsize, fun _ => room_of_stuck hstuck hend⟩
  | release => trivial

theorem blocks_inside_sram_split : ∃ c p t,
    Run (fun c e d => Fitting nearEnd c.heap e ∧ Serve nearEnd c e d) emptied fragmenting c ∧
      heapAllocate nearEnd 300 c.heap 20 = some (p, t) ∧ p ≠ 0 ∧
      nearEnd.hstart ≤ p ∧ p + 20 ≤ sramEnd := by
  have hsome : ((exec (guarded (fitting nearEnd) nearEnd 300) emptied fragmenting).any fun c =>
      decide (fitting nearEnd c (.allocate 20) = true ∧
        ((heapAllocate nearEnd 300 c.heap 20).any fun r => r.1 ≠ 0) = true)) = true := by
    decide +kernel
  obtain ⟨c, hr, hfit, hany⟩ := exec_any_run (guarded_sound fitting_sound) hsome
  obtain ⟨⟨p, t⟩, hc, hp⟩ := (Option.any_eq_true _ _).mp hany
  have hp : p ≠ 0 := of_decide_eq_true hp
  exact ⟨c, p, t, hr, hc, hp, (blocks_inside_sram hr hc hp).1 (fitting_sound c _ hfit)⟩

/-- 60 bytes are left, but not at the end: a block of 60 bytes reaches 40 bytes beyond the RAM. -/
theorem blocks_inside_sram_fails : ∃ c p t, Run (Serve nearEnd) emptied fragmenting c ∧
    heapAllocate nearEnd 300 c.heap 60 = some (p, t) ∧ p ≠ 0 ∧ p + 60 = sramEnd + 40 := by
  have hsome : ((exec (serve nearEnd 300) emptied fragmenting).any fun c =>
      decide (((heapAllocate nearEnd 300 c.heap 60).any fun r =>
        r.1 ≠ 0 ∧ r.1 + 60 = sramEnd + 40) = true)) = true := by decide +kernel
  obtain ⟨c, hr, hany⟩ := exec_any_run serve_sound hsome
  obtain ⟨⟨p, t⟩, hc, hp⟩ := (Option.any_eq_true _ _).mp hany
  obtain ⟨hp, hend⟩ := of_decide_eq_true hp
  exact ⟨c, p, t, hr, hc, hp, hend⟩

end Instances

end Skibios.Allocator.Bounds

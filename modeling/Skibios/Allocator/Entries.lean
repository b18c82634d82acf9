import Skibios.Allocator.Overlap

/-! The markers of the list as entries, each with its slot, its size and its flag: the address of a
block is where its entry stands. -/

namespace Skibios.Allocator.Entries

open Function Library.Words Library.Chains Library.Segments Markers Paths Walks Layouts Overlap

structure Entry where
  slot : ℤ
  block : ℕ × Bool

namespace Entry

def size (e : Entry) : ℕ := e.block.1

def free (e : Entry) : Bool := e.block.2

def freeSize (e : Entry) : ℕ := if e.free = true then e.size else 0

end Entry

def entry (f : ℤ → Marker) (z : ℤ) : Entry := ⟨z, block (f z)⟩

def entries (f : ℤ → Marker) (L : List ℤ) : List Entry := L.map (entry f)

def freeBytes (E : List Entry) : ℕ := total Entry.freeSize E

def marked (E : List Entry) : ℕ := used (E.map Entry.block)

structure Chained (R : Region) (h : Heap) (L : List ℤ) : Prop where
  path : Path R h L
  inside : ∀ z ∈ L, 0 ≤ z
  count : L.length = h.blistSize
  sizes : ∀ z ∈ L, 4 ≤ (h.marks z).size ∧ (h.marks z).size ≤ 0x7FFC
  rest : ∀ z, 0 ≤ z → z ≤ R.bstart → z ∉ L → h.marks z = .empty

structure WellFormed (R : Region) (h : Heap) (L : List ℤ) : Prop extends Chained R h L where
  aligned : ∀ z ∈ L, 4 ∣ (h.marks z).size
  allocated : (h.marks h.fsllEnd).free = false

variable {R : Region} {h t : Heap} {L M pre post : List ℤ} {E E' F P Q mid mid' : List Entry}
  {f : ℤ → Marker} {e : Entry} {m : Marker} {x y z d : ℤ} {i j k k' p s v : ℕ}

@[simp] lemma entries_nil : entries f [] = [] := rfl

@[simp] lemma entries_cons : entries f (z :: L) = ⟨z, block (f z)⟩ :: entries f L := rfl

@[simp] lemma entries_append : entries f (L ++ M) = entries f L ++ entries f M := List.map_append

lemma entries_update (hz : z ∉ L) : entries (update f z m) L = entries f L := by
  apply List.map_congr_left
  intro y hy
  have hne : y ≠ z := fun he => hz (he ▸ hy)
  rw [entry, entry, update_of_ne hne]

lemma entries_offset : entries (update f z { f z with offset := d }) L = entries f L := by
  apply List.map_congr_left
  intro y _
  rw [entry, entry]
  rcases eq_or_ne y z with rfl | hne
  · rw [update_self]
    rfl
  · rw [update_of_ne hne]

lemma entries_block : (entries f L).map Entry.block = blocks f L := by
  rw [entries, List.map_map]
  rfl

lemma total_entries : total Entry.size (entries f L) = total Prod.fst (blocks f L) := by
  rw [← entries_block, total, total, List.map_map]
  rfl

@[simp] lemma freeBytes_nil : freeBytes [] = 0 := rfl

@[simp] lemma freeBytes_cons : freeBytes (e :: E) = e.freeSize + freeBytes E := total_cons

@[simp] lemma freeBytes_append : freeBytes (E ++ F) = freeBytes E + freeBytes F := total_append

@[simp] lemma marked_append : marked (E ++ F) = marked E + marked F := by
  simp [marked]

lemma marked_entries (hs : ∀ z ∈ L, 0 < (f z).size) : marked (entries f L) = L.length := by
  rw [marked, entries_block]
  exact used_blocks hs

lemma at_entries (he : At Entry.size (entries f L) p e) : ∃ pre post, L = pre ++ e.slot :: post ∧
    block (f e.slot) = e.block ∧ total Prod.fst (blocks f pre) = p := by
  obtain ⟨pre, z, post, rfl, rfl, hp⟩ := he.of_map
  exact ⟨pre, post, rfl, rfl, total_entries.symm.trans hp⟩

/-- The allocated entries stay where they are, and the free bytes and the count of the markers go
over from one list to the other. -/
structure Keeps (E : List Entry) (k : ℕ) (E' : List Entry) (k' : ℕ) : Prop where
  kept : ∀ p e, e.free = false → 0 < e.size → At Entry.size E p e → At Entry.size E' p e
  bytes : freeBytes E' = freeBytes E
  count : k = marked E → k' = marked E'

lemma Keeps.refl (E : List Entry) (k : ℕ) : Keeps E k E k := ⟨fun _ _ _ _ => id, rfl, id⟩

lemma Keeps.trans {k'' : ℕ} (h : Keeps E k E' k') (h' : Keeps E' k' F k'') : Keeps E k F k'' :=
  ⟨fun p e hf hs hat => h'.kept p e hf hs (h.kept p e hf hs hat), h'.bytes.trans h.bytes,
    fun hk => h'.count (h.count hk)⟩

lemma Keeps.reshape (hfree : ∀ e ∈ mid, e.free = false → e.size = 0)
    (hlen : total Entry.size mid' = total Entry.size mid) (hbytes : freeBytes mid' = freeBytes mid)
    (hk : k' = k + marked mid' - marked mid) :
    Keeps (P ++ mid ++ Q) k (P ++ mid' ++ Q) k' := by
  constructor
  · intro p e hf hs hat
    apply hat.replace (Or.inl hlen)
    rintro q ⟨front, back, rfl, -⟩
    have hzero := hfree e (by simp) hf
    omega
  · simp [hbytes]
  · intro hle
    rw [marked_append, marked_append] at hle ⊢
    omega

section Instances

def Checked (R : Region) (h : Heap) (L : List ℤ) : Prop :=
  L.IsChain (fun y z => h.next y = z) ∧ L.Nodup ∧ L.head? = some h.fsllStart ∧
    L.getLast? = some h.fsllEnd ∧ (h.marks h.fsllEnd).offset = 0 ∧
    (∀ z ∈ L, 0 ≤ z ∧ z ≤ R.bstart ∧ 4 ≤ (h.marks z).size ∧ 4 ∣ (h.marks z).size) ∧
    L.length = h.blistSize ∧ (∀ n < R.words, (n : ℤ) ∉ L → h.marks n = .empty) ∧
    (h.marks h.fsllEnd).free = false

instance (R : Region) (h : Heap) (L : List ℤ) : Decidable (Checked R h L) :=
  inferInstanceAs (Decidable (_ ∧ _))

lemma Checked.wellFormed (hc : Checked R h L) : WellFormed R h L := by
  obtain ⟨hlinked, hnodup, hfirst, hlast, htail, hmarks, hcount, hrest, hfree⟩ := hc
  refine ⟨⟨⟨hlinked, hnodup, hfirst, hlast, htail, fun z hz => ?_⟩, fun z hz => (hmarks z hz).1,
    hcount, fun z hz => ?_, fun z h0 hz hmem => ?_⟩, fun z hz => (hmarks z hz).2.2.2, hfree⟩
  · obtain ⟨h0, hle, -⟩ := hmarks z hz
    exact ⟨by omega, hle⟩
  · obtain ⟨-, -, h4, hdvd⟩ := hmarks z hz
    have hlt := size_lt (h.marks z)
    omega
  · lift z to ℕ using h0
    apply hrest z _ hmem
    unfold Region.bstart at hz
    omega

end Instances

end Skibios.Allocator.Entries

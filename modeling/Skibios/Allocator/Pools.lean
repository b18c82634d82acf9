import Skibios.Allocator.Outcomes
import Skibios.Library.Runs

/-! Sequences of `heap_allocate` and `heap_release`. -/

namespace Skibios.Allocator.Pools

open Library.Words Library.Loops Library.Runs Markers Paths Walks Outcomes

/-- The heap, with the address and the rounded size of each block that has been returned and not
yet released. -/
structure Pool where
  heap : Heap
  live : List (ℕ × ℕ)

inductive Request
  | allocate (size : ℕ)
  | release (address : ℕ)

def handOut (live : List (ℕ × ℕ)) (p n : ℕ) : List (ℕ × ℕ) :=
  if p = 0 then live else (p, n) :: live

inductive Serve (R : Region) : Pool → Request → Pool → Prop
  | allocated {h t : Heap} {live : List (ℕ × ℕ)} {size fuel p : ℕ}
      (hc : heapAllocate R fuel h size = some (p, t)) :
      Serve R ⟨h, live⟩ (.allocate size) ⟨t, handOut live p (wordAlign size)⟩
  | released {h t : Heap} {live : List (ℕ × ℕ)} {fuel p n status : ℕ} (hl : (p, n) ∈ live)
      (hc : svcServiceGheapRelease R fuel h p = some (status, t)) :
      Serve R ⟨h, live⟩ (.release p) ⟨t, live.erase (p, n)⟩

def Accepted (h : Heap) (size : ℕ) : Prop := wordAlign size ≤ 32767 ∧ wordAlign size ≤ h.heapRemaining

instance (h : Heap) (size : ℕ) : Decidable (Accepted h size) :=
  inferInstanceAs (Decidable (_ ∧ _))

/-- An accepted request splits no last marker, and takes the last marker's word only for a split
of the marker before it. -/
def SafelySplit (R : Region) (c : Pool) : Request → Prop
  | .allocate size => Accepted c.heap size → SplitSafe R c.heap (wordAlign size)
  | .release _ => True

def serve (R : Region) (fuel : ℕ) (c : Pool) : Request → Option Pool
  | .allocate size => (heapAllocate R fuel c.heap size).map fun (p, t) =>
    ⟨t, handOut c.live p (wordAlign size)⟩
  | .release p => (c.live.find? fun b => b.1 = p).bind fun b =>
    (svcServiceGheapRelease R fuel c.heap p).map fun (_, t) => ⟨t, c.live.erase b⟩

variable {R : Region} {c d : Pool} {e : Request} {h t : Heap} {size fuel p : ℕ} {words : ℤ → Marker}

lemma serve_sound (c : Pool) (e : Request) (d : Pool) (hs : serve R fuel c e = some d) :
    Serve R c e d := by
  obtain ⟨h, live⟩ := c
  cases e with
  | allocate size =>
    obtain ⟨⟨p, t⟩, hc, rfl⟩ := Option.map_eq_some_iff.mp hs
    exact .allocated hc
  | release p =>
    obtain ⟨⟨q, n⟩, hb, hs⟩ := Option.bind_eq_some_iff.mp hs
    obtain ⟨⟨status, t⟩, hc, rfl⟩ := Option.map_eq_some_iff.mp hs
    obtain rfl : q = p := by simpa using List.find?_some hb
    exact .released (List.mem_of_find?_eq_some hb) hc

lemma heapAllocate_cases (hc : heapAllocate R fuel h size = some (p, t)) :
    (p = 0 ∧ t = h) ∨ Accepted h size ∧ ∃ u, Allocated R h (wordAlign size) p u ∧
      t = { u with heapRemaining := t.heapRemaining } := by
  unfold heapAllocate at hc
  split_ifs at hc with hbig hroom
  · obtain ⟨rfl, rfl⟩ := Prod.mk.inj (Option.some.inj hc)
    exact Or.inl ⟨rfl, rfl⟩
  · obtain ⟨rfl, rfl⟩ := Prod.mk.inj (Option.some.inj hc)
    exact Or.inl ⟨rfl, rfl⟩
  · obtain ⟨⟨q, u⟩, hf, hc⟩ := Option.map_eq_some_iff.mp hc
    obtain ⟨rfl, rfl⟩ := Prod.mk.inj hc
    refine Or.inr ⟨⟨not_lt.mp hbig, not_lt.mp hroom⟩, u, allocated hf, ?_⟩
    split_ifs <;> rfl

lemma initial_path (R : Region) (words : ℤ → Marker) : Path R (heapInit R words) [R.bstart] := by
  have hpos := R.kilobytes_pos
  have hwords : 256 ≤ R.words := by
    unfold Region.words
    omega
  refine ⟨List.IsChain.singleton _, List.nodup_singleton _, rfl, rfl, ?_, ?_⟩
  · have hclear : (heapInit R words).marks R.bstart = .empty := by
      apply if_pos
      unfold Region.bstart
      omega
    change ((heapInit R words).marks R.bstart).offset = 0
    rw [hclear]
    rfl
  · intro z hz
    rw [List.mem_singleton] at hz
    subst hz
    unfold Region.bstart
    omega

lemma serve_path (hd : Serve R c e d) (hs : SafelySplit R c e)
    (hp : ∃ L, Path R c.heap L) : ∃ L, Path R d.heap L := by
  obtain ⟨L, hp⟩ := hp
  cases hd with
  | allocated hc =>
    obtain ⟨-, rfl⟩ | ⟨hacc, u, ha, ht⟩ := heapAllocate_cases hc
    · exact ⟨L, hp⟩
    · obtain ⟨M, hM⟩ := ha.path hp (hs hacc)
      refine ⟨M, ?_⟩
      dsimp only
      rw [ht]
      exact hM.congr rfl rfl fun _ _ => rfl
  | released hl hc =>
    unfold svcServiceGheapRelease at hc
    split_ifs at hc with hb
    · obtain ⟨-, rfl⟩ := Prod.mk.inj (Option.some.inj hc)
      exact ⟨L, hp⟩
    · obtain ⟨⟨status, u⟩, hr, hc⟩ := Option.map_eq_some_iff.mp hc
      obtain ⟨-, rfl⟩ := Prod.mk.inj hc
      obtain ⟨M, hM⟩ := released hp hb hr
      exact ⟨M, hM.path hp⟩

section Instances

def kilobyte : Region := ⟨1, 0x20001000, by decide, by decide, by decide⟩

def fresh : Pool := ⟨heapInit kilobyte fun _ => .empty, []⟩

def guarded (ok : Pool → Request → Bool) (R : Region) (fuel : ℕ) (c : Pool) (e : Request) :
    Option Pool :=
  if ok c e = true then serve R fuel c e else none

lemma guarded_sound {ok : Pool → Request → Bool} {P : Pool → Request → Prop}
    (hok : ∀ c e, ok c e = true → P c e) (c : Pool) (e : Request) (d : Pool)
    (hs : guarded ok R fuel c e = some d) : P c e ∧ Serve R c e d := by
  unfold guarded at hs
  split_ifs at hs with hc
  exact ⟨hok c e hc, serve_sound c e d hs⟩

def Apart (h : Heap) (n : ℕ) : Prop :=
  ∀ j < h.blistSize, Fits h n (position h j) →
    position h j ≠ h.fsllEnd ∧ h.marks h.fsllEnd ≠ .empty

instance (h : Heap) (n : ℕ) : Decidable (Apart h n) := inferInstanceAs (Decidable (∀ j < _, _))

lemma Apart.safe {n : ℕ} (ha : Apart h n) : SplitSafe R h n := by
  intro j z hc _ hz
  obtain ⟨hne, hend⟩ := ha j hc.lt hc.fits
  exact ⟨hne, fun he => absurd (he ▸ hz.empty) hend⟩

def apart (c : Pool) : Request → Bool
  | .allocate size => Apart c.heap (wordAlign size)
  | .release _ => true

lemma apart_safe (R : Region) (c : Pool) (e : Request) (h : apart c e = true) : SafelySplit R c e := by
  cases e with
  | allocate size => exact fun _ => (of_decide_eq_true h).safe
  | release => trivial

def splitting : List Request :=
  [.allocate 4, .allocate 100, .allocate 4, .release 0x20001004, .allocate 40]

/-- The last marker is free when 40 of its 100 bytes are allocated, and then the other 60. -/
def tangling : List Request :=
  [.allocate 4, .allocate 100, .allocate 4, .release 0x20001004, .release 0x20001068,
    .allocate 40, .allocate 60]

end Instances

end Skibios.Allocator.Pools

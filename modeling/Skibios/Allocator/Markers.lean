import Mathlib.Logic.Function.Basic
import Skibios.Library.Loops
import Skibios.Library.Words

/-! The heap of `heap.c` and `svr_heap.c`: the assembly routines over the markers of the
bookkeeping region. A marker's address is written as the number of words between it and the start
of the region, so SDIV by 4 and LSL #2 disappear. -/

namespace Skibios.Allocator.Markers

open Function Library.Words Library.Loops

/-- One word of the region: the size with `FREE_HEADER_MASK` in the low half, the distance to the
next marker in the high half. -/
structure Marker where
  half : ℕ
  offset : ℤ
  deriving DecidableEq

def Marker.empty : Marker := ⟨0, 0⟩

/-- LDRH and BIC with `FREE_HEADER_MASK`. -/
def Marker.size (m : Marker) : ℕ := m.half % 32768

/-- LDRH and TST with `FREE_HEADER_MASK`. -/
def Marker.free (m : Marker) : Bool := m.half / 32768 % 2 = 1

/-- What the linker and `param.h` fix. The region has whole kilobytes and is part of the kernel
section, which has at most 64. -/
structure Region where
  kilobytes : ℕ
  heapStart : ℕ
  kilobytes_pos : 0 < kilobytes
  kilobytes_le : kilobytes ≤ 64
  heapStart_pos : 0 < heapStart

namespace Region

variable (R : Region)

/-- `HEAP_BOOKEEPING_SIZE` -/
def words : ℕ := R.kilobytes * 256

/-- `bstart_addr` after `heap_init`. -/
def bstart : ℤ := R.words - 1

/-- `hstart_addr` with its alignment step. -/
def hstart : ℕ := R.heapStart + R.heapStart % 4

end Region

structure Heap where
  marks : ℤ → Marker
  fsllStart : ℤ
  fsllEnd : ℤ
  blistSize : ℕ
  heapRemaining : ℕ

/-- The clearing loop counts down to 1: it leaves the first word of the region alone and clears the
one behind the last. -/
def heapInit (R : Region) (words : ℤ → Marker) : Heap where
  marks z := if 1 ≤ z ∧ z ≤ R.words then .empty else words z
  fsllStart := R.bstart
  fsllEnd := R.bstart
  blistSize := 0
  heapRemaining := sub32 (0x20000000 + 0x40000) R.hstart

namespace Heap

variable (h : Heap)

def next (z : ℤ) : ℤ := z + (h.marks z).offset

/-- STRH to the low half. -/
def setHalf (z : ℤ) (v : ℕ) : Heap :=
  { h with marks := update h.marks z { h.marks z with half := uint16 v } }

/-- STRH to the high half, of a value that has been checked to fit. -/
def setOffset (z d : ℤ) : Heap := { h with marks := update h.marks z { h.marks z with offset := d } }

def clear (z : ℤ) : Heap := { h with marks := update h.marks z .empty }

end Heap

/-- The CMN and CMP against 0x8000. -/
def InRange (d : ℤ) : Prop := -32768 < d ∧ d < 32768

instance (d : ℤ) : Decidable (InRange d) := inferInstanceAs (Decidable (_ ∧ _))

/-- The walk over the list: the marker, the markers left to visit and the address of its block.
Sums of at most 16385 sizes stay below 2^32. -/
structure Cursor where
  r1 : ℤ
  left : ℕ
  r5 : ℕ

def Cursor.first (R : Region) (h : Heap) : Cursor := ⟨h.fsllStart, h.blistSize, R.hstart⟩

def searchTurn (h : Heap) (size : ℕ) (c : Cursor) : Turn Cursor (Option Cursor) :=
  if c.left = 0 then .leave none
  else if (h.marks c.r1).free = true ∧ size ≤ (h.marks c.r1).size then .leave (some c)
  else .again ⟨h.next c.r1, c.left - 1, c.r5 + (h.marks c.r1).size⟩

/-- The search for an empty word below `bstart_addr`; it starts one word below the region. -/
def splitTurn (R : Region) (h : Heap) (r6 : ℕ) : Turn ℕ (Option ℤ) :=
  if r6 = 0 then .leave none
  else if h.marks (R.bstart - r6) = .empty then .leave (some (R.bstart - r6))
  else .again (r6 - 1)

/-- Links the word `r2` in behind `r1` with the `r3` bytes that are left over. -/
def splitMarker (h : Heap) (r1 r2 : ℤ) (r3 : ℕ) : Heap × ℕ :=
  let r4 := r1 - r2 + (h.marks r1).offset
  if ¬ InRange r4 then (h, r3)
  else
    let t := { h with marks := update h.marks r2 ⟨uint16 (r3 + 32768), r4⟩ }
    if ¬ InRange (r2 - r1) then (t.clear r2, r3)
    else ({ t.setOffset r1 (r2 - r1) with blistSize := t.blistSize + 1 }, 0)

/-- `none` if a loop has not ended after `fuel` turns. -/
def searchFreeMarker (R : Region) (fuel : ℕ) (h : Heap) (size : ℕ) : Option (ℕ × Heap) :=
  (runLoop (searchTurn h size) fuel (.first R h)).bind fun
  | none => some (0, h)
  | some c =>
    let r3 := (h.marks c.r1).size - size
    if r3 = 0 then some (c.r5, h.setHalf c.r1 (r3 + size))
    else (runLoop (splitTurn R h) fuel R.words).map fun
      | none => (c.r5, h.setHalf c.r1 (r3 + size))
      | some r2 =>
        let t := splitMarker h c.r1 r2 r3
        (c.r5, t.1.setHalf c.r1 (t.2 + size))

/-- The count grows by 4 for each word, and a word that is out of reach is tried again. -/
def addTurn (R : Region) (h : Heap) (c : ℤ × ℕ) : Turn (ℤ × ℕ) (Option ℤ) :=
  if c.2 = R.words then .leave none
  else if h.marks c.1 = .empty then
    if InRange (c.1 - h.fsllEnd) then .leave (some c.1) else .again (c.1, c.2 + 4)
  else .again (c.1 - 1, c.2 + 4)

/-- The walk from `fsll_start` to the new marker. -/
def walkTurn (h : Heap) (r1 : ℤ) (c : ℤ × ℕ) : Turn (ℤ × ℕ) ℕ :=
  if c.1 = r1 then .leave c.2 else .again (h.next c.1, c.2 + (h.marks c.1).size)

def appendMarker (h : Heap) (r1 : ℤ) (size : ℕ) : Heap :=
  { (h.setHalf r1 size).setOffset h.fsllEnd (r1 - h.fsllEnd) with fsllEnd := r1 }

def addNewAllocatedMarker (R : Region) (fuel : ℕ) (h : Heap) (size : ℕ) : Option (ℕ × Heap) :=
  (runLoop (addTurn R h) fuel (R.bstart, 0)).bind fun
  | none => some (0, h)
  | some r1 =>
    let t := appendMarker h r1 size
    (runLoop (walkTurn t r1) fuel (t.fsllStart, R.hstart)).map fun r5 =>
      (r5, { t with blistSize := t.blistSize + 1 })

def findTurn (h : Heap) (address : ℕ) (c : Cursor) : Turn Cursor (Option ℤ) :=
  if c.r5 = address then .leave (some c.r1)
  else if c.left - 1 = 0 then .leave none
  else .again ⟨h.next c.r1, c.left - 1, c.r5 + (h.marks c.r1).size⟩

/-- R3 and R6 beside the heap. -/
structure Registers where
  heap : Heap
  r3 : ℕ
  r6 : ℕ

/-- Stores the merged marker in `z` and makes its neighbour an empty word. -/
def mergeMarkers (h : Heap) (z y : ℤ) (d : ℤ) (v : ℕ) : Heap := ((h.setOffset z d).setHalf z v).clear y

/-- From `proc` to `skip`: the last marker is deleted, a free marker behind `r1` is merged into it. -/
def joinNext (c : Registers) (r1 : ℤ) : Registers :=
  let h := c.heap
  let r4 := (h.marks r1).offset
  if r4 = 0 then ⟨h.clear r1, c.r3, c.r6 - 1⟩
  else
    let r2 := r1 + r4
    if (h.marks r2).free = false then c
    else
      let r3 := c.r3 + (h.marks r2).size
      if 0xFFFF ≤ r3 then ⟨h, r3, c.r6⟩
      else
        let r0 := r2 - r1 + (h.marks r2).offset
        if ¬ InRange r0 then ⟨h, r3, c.r6⟩
        else ⟨mergeMarkers h r1 r2 r0 r3, r3, c.r6 - 1⟩

/-- The search for the marker that points to `r1`. -/
def predTurn (h : Heap) (r1 : ℤ) (c : ℤ × ℤ) : Turn (ℤ × ℤ) ℤ :=
  if c.1 = r1 then .leave c.2 else .again (h.next c.1, c.1)

/-- From `club` to `uexit`: `r1` has been deleted, or is merged into a free marker before it. -/
def joinPred (c : Registers) (r1 r2 : ℤ) : Registers :=
  let h := c.heap
  if h.marks r1 = .empty then ⟨{ h.setOffset r2 0 with fsllEnd := r2 }, c.r3, c.r6⟩
  else if (h.marks r2).free = false then c
  else
    let r3 := c.r3 + (h.marks r2).size
    let r4 := r1 - r2 + (h.marks r1).offset
    if ¬ InRange r4 then c else ⟨mergeMarkers h r2 r1 r4 r3, r3, c.r6 - 1⟩

/-- `r1` is marked free, and its bytes are given back. -/
def freeMarker (h : Heap) (r1 : ℤ) : Registers :=
  let r3 := (h.marks r1).size
  ⟨{ h.setHalf r1 (r3 + 32768) with heapRemaining := uint32 (h.heapRemaining + r3) }, r3 + 32768,
    h.blistSize⟩

def releaseAllocatedMarker (R : Region) (fuel : ℕ) (h : Heap) (address : ℕ) : Option (ℕ × Heap) :=
  (runLoop (findTurn h address) fuel (.first R h)).bind fun
  | none => some (0, h)
  | some r1 =>
    let c := joinNext (freeMarker h r1) r1
    if c.heap.fsllStart = r1 then some (c.r6, { c.heap with blistSize := c.r6 })
    -- R2 is set before it is read
    else (runLoop (predTurn c.heap r1) fuel (c.heap.fsllStart, r1)).map fun r2 =>
      let d := joinPred c r1 r2
      (d.r6, { d.heap with blistSize := d.r6 })

def errorNone : ℕ := 0
def errorWrongHeapPointer : ℕ := 8
def errorEmptyHeap : ℕ := 9

def svcServiceGheapRelease (R : Region) (fuel : ℕ) (h : Heap) (address : ℕ) : Option (ℕ × Heap) :=
  if h.blistSize = 0 then some (errorEmptyHeap, h)
  else (releaseAllocatedMarker R fuel h address).map fun (status, t) =>
    (if status = 0 ∧ t.blistSize ≠ 0 then errorWrongHeapPointer else errorNone, t)

/-- A null pointer of `search_free_marker` is followed by a second attempt. -/
def findMarker (R : Region) (fuel : ℕ) (h : Heap) (size : ℕ) : Option (ℕ × Heap) :=
  if h.blistSize = 0 then addNewAllocatedMarker R fuel h size
  else (searchFreeMarker R fuel h size).bind fun (address, t) =>
    if address = 0 then addNewAllocatedMarker R fuel t size else some (address, t)

def svcServiceGheapAllocate (R : Region) (fuel : ℕ) (h : Heap) (size : ℕ) : Option (ℕ × Heap) :=
  (findMarker R fuel h size).map fun (address, t) =>
    (address, if address = 0 then t else { t with heapRemaining := sub32 t.heapRemaining size })

/-- `size` rounded up to whole words, on `uint32_t`. -/
def wordAlign (size : ℕ) : ℕ := uint32 (size + if size % 4 = 0 then 0 else 4 - size % 4)

/-- The checks of `heap_allocate`, then the service. -/
def heapAllocate (R : Region) (fuel : ℕ) (h : Heap) (size : ℕ) : Option (ℕ × Heap) :=
  if 32767 < wordAlign size then some (0, h)
  else if h.heapRemaining < wordAlign size then some (0, h)
  else svcServiceGheapAllocate R fuel h (wordAlign size)

end Skibios.Allocator.Markers

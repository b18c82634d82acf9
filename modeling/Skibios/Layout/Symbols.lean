import Skibios.Layout.Objgen
import Skibios.Library.Texts

/-! Stage 4 of `run_objgen`: the bytes of kernel variables, read off the symbol table of the build for
one task and the text of `kvar.c`. -/

namespace Skibios.Layout.Symbols

open Objgen Library.Texts

def kdat : Text := ".kdat".toList
def kbss : Text := ".kbss".toList
def ksection : Text := "KSECTION".toList
def taskCountMacro : Text := "MAX_TASK_COUNT".toList

/-- The characters at which `str.split` splits. -/
def isSpace (c : Char) : Bool :=
  [9, 10, 11, 12, 13, 28, 29, 30, 31, 32, 0x85, 0xA0, 0x1680, 0x2028, 0x2029, 0x202F, 0x205F,
    0x3000].contains c.toNat || (0x2000 ≤ c.toNat && c.toNat ≤ 0x200A)

/-- `int` of a column of digits and lower-case letters; `none` is the `ValueError`. -/
def pyInt (s : Text) : Option ℕ := if IsNumeral 10 s then some (numeral 10 s) else none

/-- `columns[3]`, `columns[4]` and `columns[5]`. -/
structure Row where
  sectionName : Text
  size : Text
  name : Text

/-- A line of the symbol table, unless the loop goes on to the next. -/
def readRow (line : Text) : Option Row :=
  match words isSpace line with
  | [_, _, _, sectionName, size, name] =>
    if name = kdat ∨ name = kbss then none
    else if sectionName = kdat ∨ sectionName = kbss then some ⟨sectionName, size, name⟩
    else none
  | _ => none

def rows (objdump : List Text) : List Row := objdump.filterMap readRow

def Marked (line : Text) : Prop := ksection <:+: line ∧ taskCountMacro <:+: line

instance (line : Text) : Decidable (Marked line) := inferInstanceAs (Decidable (_ ∧ _))

/-- One turn of the loop over `kvar_lines`, where the size of the symbol is `n`. -/
def addLine (row : Row) (n : ℕ) (R : Resources) (line : Text) : Resources :=
  if Marked line ∧ row.name <:+: line then
    if row.sectionName = kdat then { R with mpcArrayKdatSize := R.mpcArrayKdatSize + n }
    else { R with mpcArrayKbssSize := R.mpcArrayKbssSize + n }
  else R

def addRow (kvar : List Text) (R : Resources) (row : Row) : Option Resources :=
  (pyInt row.size).map fun n => kvar.foldl (addLine row n)
    (if row.sectionName = kdat then { R with upcKdatSize := R.upcKdatSize + n }
    else { R with upcKbssSize := R.upcKbssSize + n })

def analyse (objdump kvar : List Text) : Option Resources :=
  (rows objdump).foldlM (addRow kvar) ⟨0, 0, 0, 0⟩

/-- How often the loop takes the symbol for an array. -/
def arrayLines (kvar : List Text) (name : Text) : ℕ :=
  kvar.countP fun line => Marked line ∧ name <:+: line

section Declarations

def isIdentifier (c : Char) : Bool := c.isAlphanum || c == '_'

/-- The declarator of a line: what stands between the attribute and `=` or `;`. -/
def declarator (line : Text) : Option Text :=
  (after "KSECTION(".toList line).map fun rest =>
    ((rest.dropWhile (· ≠ ')')).drop 1).takeWhile fun c => c ≠ '=' ∧ c ≠ ';'

/-- What stands between each `[` and the `]` behind it. -/
def subscripts : Text → List Text
  | [] => []
  | c :: rest => if c = '[' then rest.takeWhile (· ≠ ']') :: subscripts rest else subscripts rest

/-- The name a line declares, and whether as an array over the tasks: `MAX_TASK_COUNT` alone is one of
its subscripts. -/
def declared (line : Text) : Option (Text × Bool) :=
  (declarator line).map fun text =>
    ((text.dropWhile fun c => isSpace c ∨ c = '*').takeWhile isIdentifier,
      decide (∃ s ∈ subscripts text, words isSpace s = [taskCountMacro]))

def IsArray (kvar : List Text) (name : Text) : Prop := ∃ line ∈ kvar, declared line = some (name, true)

instance (kvar : List Text) (name : Text) : Decidable (IsArray kvar name) :=
  inferInstanceAs (Decidable (∃ line ∈ kvar, _))

/-- The tables and texts of a build: the sizes are hexadecimal, and `kvar.c` declares each symbol
once. -/
structure Declares (objdump kvar : List Text) : Prop where
  sizes : ∀ row ∈ rows objdump, IsNumeral 16 row.size
  once : ∀ row ∈ rows objdump, (kvar.countP fun line => (declared line).map Prod.fst = some row.name) = 1

def kernelBytes (objdump kvar : List Text) (tasks : ℕ) : ℕ :=
  ((rows objdump).map fun row =>
    numeral 16 row.size * if IsArray kvar row.name then tasks else 1).sum

end Declarations

variable {objdump kvar : List Text} {line name : Text} {R R' : Resources} {row : Row} {l : List Row}
  {n : ℕ} {b : Bool}

lemma subscript_within {s text : Text} (h : s ∈ subscripts text) : s <:+: text := by
  induction text with
  | nil => cases h
  | cons c rest ih =>
    rw [subscripts] at h
    split_ifs at h
    · rcases List.mem_cons.mp h with rfl | h
      · exact (List.takeWhile_prefix _).isInfix.trans (List.suffix_cons c rest).isInfix
      · exact (ih h).trans (List.suffix_cons c rest).isInfix
    · exact (ih h).trans (List.suffix_cons c rest).isInfix

lemma declared_infix (h : declared line = some (name, b)) :
    ksection <:+: line ∧ name <:+: line ∧ (b = true → taskCountMacro <:+: line) := by
  obtain ⟨text, htext, hd⟩ := Option.map_eq_some_iff.mp h
  obtain ⟨rfl, rfl⟩ := Prod.mk.inj hd
  obtain ⟨rest, hrest, rfl⟩ := Option.map_eq_some_iff.mp htext
  obtain ⟨hopen, hin⟩ := after_infix hrest
  set text := ((rest.dropWhile (· ≠ ')')).drop 1).takeWhile fun c => c ≠ '=' ∧ c ≠ ';'
  have htext : text <:+: line := (List.takeWhile_prefix _).isInfix.trans
    ((List.drop_suffix 1 _).isInfix.trans ((List.dropWhile_suffix _).isInfix.trans hin))
  refine ⟨?_, ?_, fun hb => ?_⟩
  · refine List.IsInfix.trans ?_ hopen
    decide
  · exact (List.takeWhile_prefix _).isInfix.trans ((List.dropWhile_suffix _).isInfix.trans htext)
  · obtain ⟨s, hs, hw⟩ := of_decide_eq_true hb
    have hword : taskCountMacro ∈ words isSpace s := by simp [hw]
    exact (word_within hword).trans ((subscript_within hs).trans htext)

section Totals

def counted (R : Resources) : ℕ := R.upcKbssSize + R.upcKdatSize

def countedArrays (R : Resources) : ℕ := R.mpcArrayKbssSize + R.mpcArrayKdatSize

lemma kstackSize_eq (D : Device) (R : Resources) (P : Params) : kstackSize D R P =
    P.upperRegionSize * 1024 - (countedArrays R * ⌊maxTaskCount P⌋₊ +
      (counted R - countedArrays R) + D.intcnt * 4) := by
  simp only [kstackSize, counted, countedArrays]
  push_cast
  ring

lemma addLine_counts (row : Row) (n : ℕ) (R : Resources) (line : Text) :
    counted (addLine row n R line) = counted R ∧ countedArrays (addLine row n R line) =
      countedArrays R + if Marked line ∧ row.name <:+: line then n else 0 := by
  unfold addLine counted countedArrays
  split_ifs
  · exact ⟨rfl, by dsimp only; omega⟩
  · exact ⟨rfl, by dsimp only; omega⟩
  · exact ⟨rfl, rfl⟩

lemma foldl_addLine (row : Row) (n : ℕ) (R : Resources) (kvar : List Text) :
    counted (kvar.foldl (addLine row n) R) = counted R ∧
    countedArrays (kvar.foldl (addLine row n) R) = countedArrays R + arrayLines kvar row.name * n := by
  induction kvar generalizing R with
  | nil => simp [arrayLines]
  | cons line kvar ih =>
    obtain ⟨hc, ha⟩ := addLine_counts row n R line
    obtain ⟨hc', ha'⟩ := ih (addLine row n R line)
    rw [List.foldl_cons, hc', ha', hc, ha]
    refine ⟨rfl, ?_⟩
    simp only [arrayLines, List.countP_cons, decide_eq_true_eq]
    split_ifs <;> ring

lemma addRow_counts (h : addRow kvar R row = some R') : IsNumeral 10 row.size ∧
    counted R' = counted R + numeral 10 row.size ∧
    countedArrays R' = countedArrays R + arrayLines kvar row.name * numeral 10 row.size := by
  obtain ⟨n, hn, rfl⟩ := Option.map_eq_some_iff.mp h
  unfold pyInt at hn
  split_ifs at hn with hnum
  obtain rfl := Option.some.inj hn
  obtain ⟨hc, ha⟩ := foldl_addLine row (numeral 10 row.size)
    (if row.sectionName = kdat then { R with upcKdatSize := R.upcKdatSize + numeral 10 row.size }
      else { R with upcKbssSize := R.upcKbssSize + numeral 10 row.size }) kvar
  rw [hc, ha]
  refine ⟨hnum, ?_, ?_⟩
  · unfold counted
    split_ifs <;> dsimp only <;> omega
  · unfold countedArrays
    split_ifs <;> rfl

lemma foldlM_counts (h : l.foldlM (addRow kvar) R = some R') : (∀ row ∈ l, IsNumeral 10 row.size) ∧
    counted R' = counted R + (l.map fun row => numeral 10 row.size).sum ∧
    countedArrays R' = countedArrays R +
      (l.map fun row => arrayLines kvar row.name * numeral 10 row.size).sum := by
  induction l generalizing R with
  | nil =>
    obtain rfl := Option.some.inj h
    simp
  | cons row l ih =>
    obtain ⟨R₁, h₁, hl⟩ := Option.bind_eq_some_iff.mp h
    obtain ⟨hnum, hc, ha⟩ := addRow_counts h₁
    obtain ⟨hnums, hc', ha'⟩ := ih hl
    rw [hc', ha', hc, ha]
    simp only [List.forall_mem_cons, List.map_cons, List.sum_cons]
    exact ⟨⟨hnum, hnums⟩, by omega, by omega⟩

lemma foldlM_runs (h : ∀ row ∈ l, IsNumeral 10 row.size) (R : Resources) :
    ∃ R', l.foldlM (addRow kvar) R = some R' := by
  induction l generalizing R with
  | nil => exact ⟨R, rfl⟩
  | cons row l ih =>
    obtain ⟨hrow, hl⟩ := List.forall_mem_cons.mp h
    have hint : pyInt row.size = some (numeral 10 row.size) := if_pos hrow
    rw [List.foldlM_cons, addRow, hint]
    exact ih hl _

end Totals

end Skibios.Layout.Symbols

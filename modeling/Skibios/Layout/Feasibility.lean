import Skibios.Layout.Symbols
import Skibios.Library.Counting

/-! Whether the kernel variables fit when `run_objgen` says that they do. -/

namespace Skibios.Layout.Feasibility

open Objgen Symbols Library.Texts Library.Counting

/-- An array is counted as one once and nothing else is; what is accepted leaves room for the vector
table, the kernel variables at their true size and 1024 bytes of stack. -/
structure Sound (objdump kvar : List Text) : Prop where
  arrays : ∀ row ∈ rows objdump, arrayLines kvar row.name = if IsArray kvar row.name then 1 else 0
  fits : ∀ R D P S, analyse objdump kvar = some R → runObjgen D R P = .ok S →
    D.intcnt * 4 + kernelBytes objdump kvar ⌊S.maxTaskCount⌋₊ + 1024 ≤ P.upperRegionSize * 1024

/-- A line marked as an array that has the name of a symbol somewhere declares that symbol, and
either `int` stops at the letter of a size or every size is the same in both bases. -/
structure Readable (objdump kvar : List Text) : Prop where
  lines : ∀ row ∈ rows objdump, ∀ line ∈ kvar, Marked line → row.name <:+: line →
    declared line = some (row.name, true)
  sizes : (∃ row ∈ rows objdump, ∃ d ∈ row.size, 10 ≤ digit d) ∨
    ∀ row ∈ rows objdump, numeral 16 row.size < 10

variable {objdump kvar : List Text} {name : Text} {R : Resources} {D : Device} {P : Params}
  {S : Sections} {row : Row} {l : List Row} {tasks : ℕ}

section Classification

lemma arrays_once (h : (kvar.countP fun line => (declared line).map Prod.fst = some name) = 1) :
    (kvar.countP fun line => declared line = some (name, true)) = if IsArray kvar name then 1 else 0 := by
  have hle : (kvar.countP fun line => declared line = some (name, true)) ≤ 1 := by
    rw [← h]
    refine List.countP_mono_left fun line _ hd => ?_
    rw [of_decide_eq_true hd]
    simp
  split_ifs with harr
  · obtain ⟨line, hline, hd⟩ := harr
    have hpos : 0 < kvar.countP fun line => declared line = some (name, true) :=
      List.countP_pos_iff.mpr ⟨line, hline, decide_eq_true hd⟩
    omega
  · refine List.countP_eq_zero.mpr fun line hline hd => ?_
    exact harr ⟨line, hline, of_decide_eq_true hd⟩

lemma arrayLines_iff (h : (kvar.countP fun line => (declared line).map Prod.fst = some name) = 1) :
    arrayLines kvar name = (if IsArray kvar name then 1 else 0) ↔
      ∀ line ∈ kvar, Marked line → name <:+: line → declared line = some (name, true) := by
  rw [← arrays_once h, arrayLines, countP_eq_iff]
  · simp only [decide_eq_true_eq, and_imp]
  · intro line _ hd
    obtain ⟨hmark, hname, harr⟩ := declared_infix (of_decide_eq_true hd)
    exact decide_eq_true ⟨⟨hmark, harr rfl⟩, hname⟩

end Classification

section Sums

lemma kernelBytes_eq (tasks : ℕ)
    (ha : ∀ row ∈ rows objdump, arrayLines kvar row.name = if IsArray kvar row.name then 1 else 0)
    (hs : ∀ row ∈ rows objdump, numeral 10 row.size = numeral 16 row.size)
    (hR : analyse objdump kvar = some R) : (kernelBytes objdump kvar tasks : ℤ) =
      countedArrays R * tasks + (counted R - countedArrays R) := by
  obtain ⟨-, hc, harr⟩ := foldlM_counts hR
  rw [hc, harr, kernelBytes]
  simp only [counted, countedArrays, Nat.add_zero, Nat.zero_add]
  generalize rows objdump = l at ha hs
  induction l with
  | nil => simp
  | cons row l ih =>
    have ih := ih (fun r hr => ha r (List.mem_cons_of_mem row hr))
      fun r hr => hs r (List.mem_cons_of_mem row hr)
    simp only [List.map_cons, List.sum_cons, Nat.cast_add, ih, ha row List.mem_cons_self,
      hs row List.mem_cons_self]
    split_ifs <;> push_cast <;> ring

lemma sum_gap (hle : ∀ row ∈ l, numeral 10 row.size ≤ numeral 16 row.size)
    (hgap : ∃ row ∈ l, numeral 10 row.size + 6 ≤ numeral 16 row.size) :
    (l.map fun row => numeral 10 row.size).sum + 6 ≤ (l.map fun row => numeral 16 row.size).sum := by
  induction l with
  | nil =>
    obtain ⟨row, hrow, -⟩ := hgap
    cases hrow
  | cons row l ih =>
    obtain ⟨hrow, hl⟩ := List.forall_mem_cons.mp hle
    have hsum : (l.map fun row => numeral 10 row.size).sum ≤ (l.map fun row => numeral 16 row.size).sum :=
      List.sum_le_sum hl
    simp only [List.map_cons, List.sum_cons]
    obtain ⟨r, hr, hr'⟩ := hgap
    rcases List.mem_cons.mp hr with rfl | hr
    · omega
    · have := ih hl ⟨r, hr, hr'⟩
      omega

end Sums

section Configurations

lemma accepted (h : runObjgen D R P = .ok S) :
    S.maxTaskCount = maxTaskCount P ∧ 1024 ≤ kstackSize D R P := by
  rw [runObjgen] at h
  split_ifs at h with hcount hstack
  obtain rfl := Except.ok.inj h
  exact ⟨rfl, not_lt.mp hstack⟩

/-- Room for one stack, next to an upper region of `upper` KB. -/
def oneTask (upper : ℕ) : Params := ⟨0, upper + 1, upper, 0, 1024⟩

lemma oneTask_count (upper : ℕ) : maxTaskCount (oneTask upper) = 1 := by
  simp only [maxTaskCount, oneTask]
  push_cast
  ring

lemma oneTask_accepted {upper : ℕ} (h : D.intcnt * 4 + counted R + 1024 ≤ upper * 1024) :
    ∃ S, runObjgen D R (oneTask upper) = .ok S ∧ S.maxTaskCount = 1 := by
  have hk : ¬ kstackSize D R (oneTask upper) < 1024 := by
    rw [kstackSize_eq, oneTask_count, Nat.floor_one]
    simp only [oneTask]
    push_cast
    omega
  rw [runObjgen, if_neg (by rw [oneTask_count]; exact lt_irrefl 1), if_neg hk]
  exact ⟨_, rfl, oneTask_count upper⟩

lemma short_accepted {b : ℕ} (h : counted R + 4 ≤ b) : ∃ D P S,
    runObjgen D R P = .ok S ∧ S.maxTaskCount = 1 ∧ P.upperRegionSize * 1024 < D.intcnt * 4 + b + 1024 := by
  let upper := counted R / 1024 + 2
  let D : Device := ⟨((upper : ℤ) * 1024 - 1024 - counted R) / 4, 0, 0⟩
  have hupper : upper = counted R / 1024 + 2 := rfl
  have hD : D.intcnt = ((upper : ℤ) * 1024 - 1024 - counted R) / 4 := rfl
  obtain ⟨S, hS, hone⟩ : ∃ S, runObjgen D R (oneTask upper) = .ok S ∧ S.maxTaskCount = 1 :=
    oneTask_accepted (by omega)
  refine ⟨D, oneTask upper, S, hS, hone, ?_⟩
  rw [hD]
  simp only [oneTask]
  omega

end Configurations

section Soundness

lemma numerals (h : ∀ d ∈ row.size, digit d < 10) :
    numeral 10 row.size = numeral 16 row.size ∧ numeral 16 row.size < 10 ∨
      10 ≤ numeral 16 row.size ∧ numeral 10 row.size + 6 ≤ numeral 16 row.size :=
  numeral_gap (by decide) (by decide) h

lemma Readable.sound (hd : Declares objdump kvar) (h : Readable objdump kvar) : Sound objdump kvar := by
  have harr : ∀ row ∈ rows objdump, arrayLines kvar row.name = if IsArray kvar row.name then 1 else 0 :=
    fun row hrow => (arrayLines_iff (hd.once row hrow)).mpr (h.lines row hrow)
  refine ⟨harr, fun R D P S hR hS => ?_⟩
  obtain ⟨hmax, hstack⟩ := accepted hS
  have hdecimal := (foldlM_counts hR).1
  have hsame : ∀ row ∈ rows objdump, numeral 10 row.size = numeral 16 row.size := by
    intro row hrow
    rcases h.sizes with ⟨r, hr, d, hdig, hletter⟩ | hsmall
    · exact absurd ((hdecimal r hr).2 d hdig) (not_lt.mpr hletter)
    · rcases numerals (hdecimal row hrow).2 with ⟨heq, -⟩ | ⟨hten, -⟩
      · exact heq
      · have := hsmall row hrow
        omega
  rw [kernelBytes_eq _ harr hsame hR, hmax]
  rw [kstackSize_eq] at hstack
  omega

lemma Sound.readable (hd : Declares objdump kvar) (h : Sound objdump kvar) : Readable objdump kvar := by
  refine ⟨fun row hrow => (arrayLines_iff (hd.once row hrow)).mp (h.arrays row hrow), ?_⟩
  by_contra hno
  push Not at hno
  obtain ⟨hdigits, row, hrow, hlarge⟩ := hno
  have hdecimal : ∀ r ∈ rows objdump, IsNumeral 10 r.size := fun r hr => ⟨(hd.sizes r hr).1, hdigits r hr⟩
  obtain ⟨R, hR⟩ : ∃ R, analyse objdump kvar = some R := foldlM_runs hdecimal _
  obtain ⟨-, hc, -⟩ := foldlM_counts hR
  have hgap := sum_gap (l := rows objdump)
    (fun r hr => by rcases numerals (hdigits r hr) with ⟨heq, -⟩ | ⟨-, hgap⟩ <;> omega)
    ⟨row, hrow, by rcases numerals (hdigits row hrow) with ⟨-, hlt⟩ | ⟨-, hgap⟩ <;> omega⟩
  have hbytes : kernelBytes objdump kvar 1 = ((rows objdump).map fun row => numeral 16 row.size).sum := by
    simp only [kernelBytes, ite_self, mul_one]
  obtain ⟨D, P, S, hS, hone, hover⟩ := short_accepted (R := R) (b := kernelBytes objdump kvar 1) (by
    rw [hbytes, hc]
    simp only [counted]
    omega)
  have hfits := h.fits R D P S hR hS
  rw [hone, Nat.floor_one] at hfits
  omega

theorem feasibility_sound (h : Declares objdump kvar) : Sound objdump kvar ↔ Readable objdump kvar :=
  ⟨Sound.readable h, Readable.sound h⟩

end Soundness

section Small

def smallTable : List Text :=
  ["00000004 g     O .kbss\t00000004 task_id\n".toList,
    "00000008 g     O .kbss\t00000002 priority_Array\n".toList]

def smallLines : List Text :=
  ["volatile uint32_t  KSECTION(.kbss) task_id[MAX_TASK_COUNT];\n".toList,
    "volatile uint8_t   KSECTION(.kbss) priority_Array[ MAX_TASK_COUNT ][2];\n".toList]

lemma small_rows : rows smallTable = [⟨kbss, "00000004".toList, "task_id".toList⟩,
    ⟨kbss, "00000002".toList, "priority_Array".toList⟩] := by rfl

lemma small_declared : Declares smallTable smallLines := by
  constructor
  · rw [small_rows]
    simp only [List.forall_mem_cons, List.not_mem_nil, false_imp_iff, implies_true, and_true]
    exact ⟨by decide, by decide⟩
  · rw [small_rows]
    simp only [List.forall_mem_cons, List.not_mem_nil, false_imp_iff, implies_true, and_true]
    exact ⟨by decide +kernel, by decide +kernel⟩

lemma small_readable : Readable smallTable smallLines := by
  constructor
  · rw [small_rows]
    simp only [smallLines, List.forall_mem_cons, List.not_mem_nil, false_imp_iff, implies_true, and_true]
    refine ⟨⟨?_, ?_⟩, ?_, ?_⟩ <;> decide +kernel
  · right
    rw [small_rows]
    simp only [List.forall_mem_cons, List.not_mem_nil, false_imp_iff, implies_true, and_true]
    decide +kernel

theorem feasibility_sound_small : Sound smallTable smallLines :=
  (feasibility_sound small_declared).mpr small_readable

end Small

section BaseTask

def symbolTable : List Text :=
  ["SYMBOL TABLE:\n".toList, "00000000 l    d  .kbss\t00000000 .kbss\n".toList,
    "00000004 g     O .kbss\t00000004 task_id\n".toList,
    "00000008 g     O .kbss\t00000020 base_task\n".toList]

def kvarLines : List Text :=
  ["volatile uint32_t  KSECTION(.kbss) task_id[MAX_TASK_COUNT];\n".toList,
    "task_t    KSECTION(.kbss) base_task;\n".toList]

lemma symbols_rows : rows symbolTable = [⟨kbss, "00000004".toList, "task_id".toList⟩,
    ⟨kbss, "00000020".toList, "base_task".toList⟩] := by rfl

lemma symbols_declared : Declares symbolTable kvarLines := by
  constructor
  · rw [symbols_rows]
    simp only [List.forall_mem_cons, List.not_mem_nil, false_imp_iff, implies_true, and_true]
    exact ⟨by decide, by decide⟩
  · rw [symbols_rows]
    simp only [List.forall_mem_cons, List.not_mem_nil, false_imp_iff, implies_true, and_true]
    exact ⟨by decide +kernel, by decide +kernel⟩

/-- 96 stacks of 512 bytes below an upper region of 2 KB, for 155 interrupts. -/
def fullDevice : Device := ⟨155, 0x20000000, 262144⟩

def fullParams : Params := ⟨0x20000000, 51, 2, 1, 512⟩

lemma fullParams_count : maxTaskCount fullParams = 96 := by norm_num [maxTaskCount, fullParams]

lemma symbols_counted : analyse symbolTable kvarLines = some ⟨24, 0, 4, 0⟩ := by
  rw [analyse, symbols_rows]
  rfl

lemma symbols_bytes : kernelBytes symbolTable kvarLines 96 = 416 := by
  rw [kernelBytes, symbols_rows]
  decide +kernel

lemma full_accepted : ∃ S, runObjgen fullDevice ⟨24, 0, 4, 0⟩ fullParams = .ok S ∧
    S.maxTaskCount = 96 := by
  have hk : kstackSize fullDevice ⟨24, 0, 4, 0⟩ fullParams = 1024 := by
    rw [kstackSize, fullParams_count]
    norm_num [fullDevice, fullParams]
  rw [runObjgen, fullParams_count, hk, if_neg (by norm_num), if_neg (by norm_num)]
  exact ⟨_, rfl, rfl⟩

/-- The 32 bytes of the base task are read as 20, and the stack is left with 1012. -/
theorem feasibility_sound_fails : Declares symbolTable kvarLines ∧ ¬ Sound symbolTable kvarLines := by
  refine ⟨symbols_declared, fun h => ?_⟩
  obtain ⟨S, hS, hcount⟩ := full_accepted
  have hfits := h.fits _ _ _ S symbols_counted hS
  rw [hcount, show ⌊(96 : ℚ)⌋₊ = 96 from Nat.floor_natCast 96, symbols_bytes] at hfits
  revert hfits
  decide

end BaseTask

end Skibios.Layout.Feasibility

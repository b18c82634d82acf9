import Skibios.Kernel.TaskServices
import Skibios.Library.Powers
import Mathlib.Algebra.Order.Floor.Semifield
import Mathlib.Data.Rat.Floor

/-! The layout of the kernel section: `objgen.py` and the device attribute script of the ARM port.
A quotient is a rational number; on a double it is the same up to 2^53. -/

namespace Skibios.Layout.Objgen

open Library.Words Library.Powers

/-- The parameter file: sizes in KB, the stack of a task in bytes. -/
structure Params where
  kernelSramAddress : ℕ
  kernelSectionSize : ℕ
  upperRegionSize : ℕ
  ghmbRegionSize : ℕ
  taskStackSize : ℕ

/-- The device file. -/
structure Device where
  intcnt : ℤ
  sramAddr : ℕ
  sramSize : ℕ

/-- The bytes of kernel data counted in a build for one task, all of them and those of the arrays
over the tasks. -/
structure Resources where
  upcKbssSize : ℕ
  upcKdatSize : ℕ
  mpcArrayKbssSize : ℕ
  mpcArrayKdatSize : ℕ

inductive ObjgenError
  | noMemoryForProcessStack
  | kernelStackSizeViolation

structure Sections where
  maxTaskCount : ℚ
  kernelBaseAddress : ℤ
  appBaseAddress : ℕ
  ghmbAddress : ℤ
  procHeapAddress : ℕ
  kernelStackEndAddress : ℤ

def maxTaskCount (P : Params) : ℚ :=
  (((P.kernelSectionSize : ℤ) - (P.upperRegionSize + P.ghmbRegionSize)) * 1024 : ℤ) / P.taskStackSize

/-- What is left of the upper region behind the vector table and the kernel variables. -/
def kstackSize (D : Device) (R : Resources) (P : Params) : ℤ :=
  let tasks : ℤ := ⌊maxTaskCount P⌋₊
  P.upperRegionSize * 1024 - (R.mpcArrayKbssSize * tasks + R.mpcArrayKdatSize * tasks +
    (R.upcKbssSize - R.mpcArrayKbssSize) + (R.upcKdatSize - R.mpcArrayKdatSize) + D.intcnt * 4)

/-- Stages 5 and 6 of `run_objgen`. -/
def runObjgen (D : Device) (R : Resources) (P : Params) : Except ObjgenError Sections :=
  if maxTaskCount P < 1 then .error .noMemoryForProcessStack
  else if kstackSize D R P < 1024 then .error .kernelStackSizeViolation
  else
    let appBaseAddress := P.kernelSramAddress + P.kernelSectionSize * 1024
    let procHeapAddress := P.kernelSramAddress + P.upperRegionSize * 1024
    .ok {
      maxTaskCount := maxTaskCount P
      kernelBaseAddress := P.kernelSramAddress + D.intcnt * 4
      appBaseAddress := appBaseAddress
      ghmbAddress := appBaseAddress - P.ghmbRegionSize * 1024
      procHeapAddress := procHeapAddress
      kernelStackEndAddress := procHeapAddress - 4 }

/-- The constants `generate_param_header` works out. -/
structure ParamHeader where
  numOfInterrupts : ℤ
  maxTaskCount : ℕ
  taskStackSize : ℕ
  heapBookeepingSize : ℕ

def generateParamHeader (D : Device) (P : Params) (S : Sections) : ParamHeader where
  numOfInterrupts := D.intcnt
  maxTaskCount := ⌊S.maxTaskCount⌋₊
  taskStackSize := ⌊(P.taskStackSize : ℚ) / 4⌋₊
  heapBookeepingSize := P.ghmbRegionSize * 256

/-- The `while` loop of `next_power_of_2`. -/
def countShifts (number pos : ℕ) : ℕ :=
  if 0 < number then countShifts (number >>> 1) (pos + 1) else pos
termination_by number
decreasing_by
  rw [Nat.shiftRight_one]
  omega

def nextPowerOf2 (number : ℕ) : ℕ :=
  let power := 2 ^ countShifts number 0
  if number * 2 = power then number else power

/-- The sub-regions of the kernel region that are switched off. -/
def srdBit (kernelSectionSize : ℕ) : ℕ :=
  let region := nextPowerOf2 kernelSectionSize
  let srdShift : ℚ := (((region : ℤ) - kernelSectionSize) * 8 : ℤ) / region
  255 &&& 255 <<< ⌊8 - srdShift⌋₊

def outOfBound : String :=
  "<kernel_sram_address> is out of bound with device xml specified sram region"

def notAligned : String :=
  "<kernel_sram_address> is not in par with ARM M3/M4 mpu region alignment requirement"

/-- The checks of `arch_specific_objgen` and the `srd_bit` it goes on with. -/
def archSpecificObjgen (D : Device) (P : Params) : Except String ℕ :=
  if P.kernelSramAddress < D.sramAddr then .error outOfBound
  else if D.sramAddr + D.sramSize ≤ P.kernelSramAddress then .error outOfBound
  else if P.kernelSramAddress % (nextPowerOf2 P.kernelSectionSize * 1024) ≠ 0 then .error notAligned
  else .ok (srdBit P.kernelSectionSize)

/-- The `MPU_REGION_SIZE_*` constant; for any other size the macro is empty. -/
def pstackSizeToString : ℕ → Option ℕ
  | 512 => some 0b01000
  | 1024 => some 0b01001
  | _ => none

def kernelRegionToString (size : ℕ) : Option ℕ :=
  match nextPowerOf2 size with
  | 8 => some 0b01100
  | 16 => some 0b01101
  | 32 => some 0b01110
  | 64 => some 0b01111
  | _ => none

def mpuShareable : ℕ := 0x00040000
def mpuCacheable : ℕ := 0x00020000
def mpuExecuteNever : ℕ := 0x10000000
def mpuRegionEnable : ℕ := 0x00000001
def mpuApPrwUro : ℕ := 0b010
def mpuApPrwUrw : ℕ := 0b011
def mpuKernelDefault : ℕ := mpuShareable ||| mpuCacheable ||| mpuExecuteNever

/-- `mpu_table` as the compiler stores it: two words for each task. -/
def generatePcsMpuTable (P : Params) (S : Sections) : Option (List ℕ) :=
  (pstackSizeToString P.taskStackSize).map fun size =>
    (List.range ⌊S.maxTaskCount⌋₊).flatMap fun i =>
      [uint32 (S.procHeapAddress + i * P.taskStackSize + 23),
       size <<< 1 ||| mpuKernelDefault ||| mpuApPrwUrw <<< 24 ||| mpuRegionEnable]

variable {D : Device} {P : Params} {R : Resources} {S : Sections} {k n pos srd : ℕ}

lemma countShifts_eq (n pos : ℕ) : countShifts n pos = pos + n.size := by
  induction n, pos using countShifts.induct with
  | case1 n pos h ih =>
    have hsize : n.size = (n >>> 1).size + 1 := by
      refine le_antisymm (Nat.size_le.mpr ?_) (Nat.lt_size.mpr ?_)
      · have := Nat.lt_size_self (n >>> 1)
        rw [Nat.shiftRight_one] at *
        rw [pow_succ]
        omega
      · rcases Nat.eq_zero_or_pos (n >>> 1) with h0 | h0
        · rw [h0, Nat.size_zero]
          exact h
        · have hpos := Nat.size_pos.mpr h0
          have hpow : 2 ^ ((n >>> 1).size - 1) ≤ n >>> 1 := Nat.lt_size.mp (by omega)
          have hdouble : 2 ^ (n >>> 1).size = 2 ^ ((n >>> 1).size - 1) * 2 := by
            rw [← pow_succ, Nat.sub_add_cancel hpos]
          rw [Nat.shiftRight_one] at *
          omega
    rw [countShifts, if_pos h, ih, hsize]
    omega
  | case2 n pos h =>
    obtain rfl : n = 0 := by omega
    rw [countShifts, if_neg h, Nat.size_zero, add_zero]

lemma nextPowerOf2_eq (hl : n ≤ 2 ^ k) (hu : 2 ^ k < 2 * n) : nextPowerOf2 n = 2 ^ k := by
  rw [nextPowerOf2, countShifts_eq, zero_add]
  have hsize : n.size ≤ k + 1 := Nat.size_le.mpr (by rw [pow_succ]; omega)
  have hsize' : k ≤ n.size := by
    rcases Nat.eq_zero_or_pos k with rfl | hk
    · exact Nat.zero_le _
    · have hpow : 2 ^ (k - 1) ≤ n := by
        have : 2 ^ k = 2 ^ (k - 1) * 2 := by rw [← pow_succ, Nat.sub_add_cancel hk]
        omega
      have := Nat.lt_size.mpr hpow
      omega
  obtain heq | heq : n.size = k ∨ n.size = k + 1 := by omega
  · have hne : n ≠ 2 ^ k := by
      have := Nat.lt_size_self n
      rw [heq] at this
      exact this.ne
    rw [heq, if_neg (by omega)]
  · have hge : 2 ^ k ≤ n := Nat.lt_size.mp (by omega)
    rw [heq, if_pos (by rw [pow_succ]; omega)]
    exact le_antisymm hl hge

lemma exists_power (hn : 0 < n) : ∃ k, n ≤ 2 ^ k ∧ 2 ^ k < 2 * n := by
  have hsize := Nat.size_pos.mpr hn
  have hpow : 2 ^ (n.size - 1) ≤ n := Nat.lt_size.mp (by omega)
  have hpow' : n < 2 ^ (n.size - 1) * 2 := by
    rw [← pow_succ, Nat.sub_add_cancel hsize]
    exact Nat.lt_size_self n
  rcases hpow.eq_or_lt with h | h
  · exact ⟨n.size - 1, h.ge, by omega⟩
  · refine ⟨n.size, (Nat.lt_size_self n).le, ?_⟩
    have : 2 ^ n.size = 2 ^ (n.size - 1) * 2 := by rw [← pow_succ, Nat.sub_add_cancel hsize]
    omega

lemma nextPowerOf2_isLeast (hn : 0 < n) : IsLeast {p | n ≤ p ∧ ∃ j, p = 2 ^ j} (nextPowerOf2 n) := by
  obtain ⟨k, hl, hu⟩ := exists_power hn
  rw [nextPowerOf2_eq hl hu]
  exact pow_isLeast hl hu

end Skibios.Layout.Objgen

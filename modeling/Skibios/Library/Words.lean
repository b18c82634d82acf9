import Mathlib.Algebra.Order.Group.Nat
import Mathlib.Data.Nat.Bitwise
import Mathlib.Tactic.NormNum

/-! Fixed-width machine arithmetic on natural numbers and integers. -/

namespace Skibios.Library.Words

def uint8 (x : ℕ) : ℕ := x % 256
def uint16 (x : ℕ) : ℕ := x % 65536
def uint32 (x : ℕ) : ℕ := x % 4294967296

/-- The value an `int8_t` holds after `x` has been stored in it. -/
def int8 (x : ℤ) : ℤ := (x + 128) % 256 - 128

/-- `a - b` on `uint32_t`. -/
def sub32 (a b : ℕ) : ℕ := uint32 (uint32 a + (4294967296 - uint32 b))

lemma int8_eq {x : ℤ} (hl : -128 ≤ x) (hu : x ≤ 127) : int8 x = x := by
  unfold int8
  omega

lemma uint8_eq {x : ℕ} (h : x < 256) : uint8 x = x := Nat.mod_eq_of_lt h
lemma uint16_eq {x : ℕ} (h : x < 65536) : uint16 x = x := Nat.mod_eq_of_lt h
lemma uint32_eq {x : ℕ} (h : x < 4294967296) : uint32 x = x := Nat.mod_eq_of_lt h

lemma uint8_lt (x : ℕ) : uint8 x < 256 := Nat.mod_lt _ (by norm_num)
lemma uint16_lt (x : ℕ) : uint16 x < 65536 := Nat.mod_lt _ (by norm_num)
lemma uint32_lt (x : ℕ) : uint32 x < 4294967296 := Nat.mod_lt _ (by norm_num)

lemma sub32_eq {a b : ℕ} (hba : b ≤ a) (ha : a < 4294967296) : sub32 a b = a - b := by
  unfold sub32 uint32
  omega

lemma shift_or_eq {i c : ℕ} (hc : c < 65536) : i <<< 16 ||| c = i * 65536 + c := by
  rw [← Nat.shiftLeft_add_eq_or_of_lt (by simpa using hc), Nat.shiftLeft_eq]

lemma packed_slot {i c : ℕ} (hc : c < 65536) : (i * 65536 + c) >>> 16 = i := by
  rw [Nat.shiftRight_eq_div_pow]
  omega

end Skibios.Library.Words

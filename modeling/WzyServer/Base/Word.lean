import Mathlib.Tactic.Common
import Mathlib.Data.Int.ModEq

set_option autoImplicit false

namespace WzyServer.Word

-- Conversions between the C integer types of a 64-bit Linux target: a value
-- that does not fit is reduced modulo the width, as the compiler does.
def toInt (value : Int) : Int := value.bmod (2 ^ 32)

def toSize (value : Int) : Nat := (value % 2 ^ 64).toNat

-- strtol saturates a decimal that no 64-bit long can hold.
def toLong (value : Int) : Int := max (-2 ^ 63) (min value (2 ^ 63 - 1))

theorem to_int_small (value : Int) (lower : -2 ^ 31 ≤ value) (upper : value < 2 ^ 31) : toInt value = value := by
  unfold toInt
  rw [Int.bmod_eq_of_le] <;> omega

theorem to_size_small (value : Int) (lower : 0 ≤ value) (upper : value < 2 ^ 64) : (toSize value : Int) = value := by
  unfold toSize
  omega

theorem to_int_bounds (value : Int) : -2 ^ 31 ≤ toInt value ∧ toInt value < 2 ^ 31 := by
  have lower := Int.le_bmod (x := value) (m := 2 ^ 32) (by decide)
  have upper := Int.bmod_lt (x := value) (m := 2 ^ 32) (by decide)
  unfold toInt
  omega

theorem to_int_wrapped (value : Int) (lower : 2 ^ 31 ≤ value) (upper : value < 2 ^ 32) : toInt value = value - 2 ^ 32 := by
  unfold toInt
  rw [Int.bmod]
  omega

theorem to_int_add_left (a b : Int) : toInt (toInt a + b) = toInt (a + b) := Int.bmod_add_bmod

theorem to_int_add_right (a b : Int) : toInt (a + toInt b) = toInt (a + b) := Int.add_bmod_bmod

theorem to_int_eq_zero (value : Int) : toInt value = 0 ↔ 2 ^ 32 ∣ value := by
  unfold toInt
  constructor
  · intro zero
    rw [Int.bmod] at zero
    omega
  · intro multiple
    rw [Int.bmod]
    omega

end WzyServer.Word

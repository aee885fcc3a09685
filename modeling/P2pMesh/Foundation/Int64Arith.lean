import Mathlib.Algebra.Ring.Int.Defs
import Mathlib.Order.Defs.LinearOrder

/-! # Signed words of 64 bits as integers

Sums, differences, doubles and negations of `Int64`, whose values as integers are exact as
long as they fit the type.
-/

namespace Foundation

/-- An integer that is the value of a word. -/
def FitsInt64 (value : Int) : Prop :=
  -2 ^ 63 ≤ value ∧ value < 2 ^ 63

instance (value : Int) : Decidable (FitsInt64 value) :=
  inferInstanceAs (Decidable (_ ∧ _))

/-- The range of an `int`. -/
theorem toInt_range (x : Int64) : -2 ^ 63 ≤ x.toInt ∧ x.toInt < 2 ^ 63 :=
  ⟨Int64.le_toInt x, Int64.toInt_lt x⟩

/-- A sum that fits does not wrap around. -/
theorem toInt_add_of_fits {x y : Int64} (low : -2 ^ 63 ≤ x.toInt + y.toInt)
    (high : x.toInt + y.toInt < 2 ^ 63) : (x + y).toInt = x.toInt + y.toInt := by
  rw [Int64.toInt_add]
  exact Int.bmod_eq_of_le (by omega) (by omega)

/-- A sum that is too large for the type comes out negative. -/
theorem toInt_add_of_overflow {x y : Int64} (large : 2 ^ 63 ≤ x.toInt + y.toInt) :
    (x + y).toInt = x.toInt + y.toInt - 2 ^ 64 := by
  have left := toInt_range x
  have right := toInt_range y
  rw [Int64.toInt_add, Int.bmod]
  split <;> omega

/-- A difference that fits does not wrap around. -/
theorem toInt_sub_of_fits {x y : Int64} (low : -2 ^ 63 ≤ x.toInt - y.toInt)
    (high : x.toInt - y.toInt < 2 ^ 63) : (x - y).toInt = x.toInt - y.toInt := by
  rw [Int64.toInt_sub]
  exact Int.bmod_eq_of_le (by omega) (by omega)

/-- A double that fits does not wrap around. -/
theorem toInt_mul_two_of_fits {x : Int64} (low : -2 ^ 62 ≤ x.toInt) (high : x.toInt < 2 ^ 62) :
    (x * 2).toInt = x.toInt * 2 := by
  have two : (2 : Int64).toInt = 2 := rfl
  rw [Int64.toInt_mul, two]
  exact Int.bmod_eq_of_le (by omega) (by omega)

/-- Every `int` but the least one has its negative. -/
theorem toInt_neg_of_fits {x : Int64} (fits : -2 ^ 63 < x.toInt) : (-x).toInt = -x.toInt := by
  have range := toInt_range x
  rw [Int64.toInt_neg]
  exact Int.bmod_eq_of_le (by omega) (by omega)

/-- A number that fits is an `int`. -/
theorem toInt_ofInt_of_fits {value : Int} (fits : FitsInt64 value) :
    (Int64.ofInt value).toInt = value := by
  obtain ⟨low, high⟩ := fits
  have size : (Int64.size : Int) = 2 ^ 64 := rfl
  rw [Int64.toInt_ofInt]
  exact Int.bmod_eq_of_le (by omega) (by omega)

/-- The word of an integer has its value exactly when it fits. -/
theorem toInt_ofInt_eq_iff (value : Int) :
    (Int64.ofInt value).toInt = value ↔ FitsInt64 value := by
  refine ⟨fun same => ?_, toInt_ofInt_of_fits⟩
  have range := toInt_range (Int64.ofInt value)
  rwa [same] at range

/-- The value of a word differs from the integer by a multiple of `2 ^ 64`. -/
theorem exists_toInt_ofInt (value : Int) :
    ∃ wraps : Int, (Int64.ofInt value).toInt = value - 2 ^ 64 * wraps := by
  have size : (Int64.size : Int) = 2 ^ 64 := rfl
  have split := Int.bmod_add_bdiv value Int64.size
  rw [size] at split
  rw [Int64.toInt_ofInt]
  exact ⟨value.bdiv Int64.size, by omega⟩

end Foundation

import P2pMesh.Foundation.BigEndian
import Mathlib.Data.List.TakeWhile
import Mathlib.Data.Nat.Bitwise

/-! # Leading bits of byte strings

The bits of a byte string, the most significant one of the first byte first. They are the
bits of the number that the string encodes (`Foundation.bitAt_eq_testBit`), so the first
bits of a string are clear exactly when its number is below a power of two
(`Foundation.beNat_lt_two_pow_iff`). A scan that stops at the first index without a property
passes a number of indices exactly when they all have it
(`Foundation.le_length_takeWhile_range_iff`).
-/

namespace Foundation

/-- The bit at a place of a byte string. -/
def bitAt (bytes : Bytes) (i : Nat) : Bool :=
  (bytes.getD (i / 8) 0).toNat.testBit (7 - i % 8)

theorem toNat_one_shiftLeft {place : Nat} (inRange : place < 8) :
    ((1 : UInt8) <<< UInt8.ofNat place).toNat = 2 ^ place := by
  have small : place % 2 ^ 8 % 8 = place := by omega
  have power : 2 ^ place < 2 ^ 8 := Nat.pow_lt_pow_right Nat.one_lt_two inRange
  rw [UInt8.toNat_shiftLeft, UInt8.toNat_ofNat', small, UInt8.toNat_one, Nat.one_shiftLeft,
    Nat.mod_eq_of_lt power]

/-- A bit of a byte by way of a mask. -/
theorem and_shiftLeft_bne_zero (byte : UInt8) {place : Nat} (inRange : place < 8) :
    (byte &&& (1 <<< UInt8.ofNat place) != 0) = byte.toNat.testBit place := by
  have value : (byte &&& (1 <<< UInt8.ofNat place)).toNat =
      (byte.toNat.testBit place).toNat * 2 ^ place := by
    rw [UInt8.toNat_and, toNat_one_shiftLeft inRange, Nat.and_two_pow]
  rw [Bool.eq_iff_iff, bne_iff_ne, ne_eq, ← UInt8.toNat_inj, value, UInt8.toNat_zero,
    Nat.mul_eq_zero, or_iff_left (Nat.two_pow_pos place).ne', Bool.toNat_eq_zero,
    Bool.not_eq_false]

theorem pow_length_eq (bytes : Bytes) : 256 ^ bytes.length = 2 ^ (8 * bytes.length) :=
  (Nat.pow_mul 2 8 bytes.length).symm

/-- The bits of a string are those of its number, counted from the other end. -/
theorem bitAt_eq_testBit {bytes : Bytes} {i : Nat} (inside : i < 8 * bytes.length) :
    bitAt bytes i = (beNat bytes).testBit (8 * bytes.length - 1 - i) := by
  induction bytes generalizing i with
  | nil => exact absurd inside (Nat.not_lt_zero i)
  | cons byte bytes ih =>
      have small := beNat_lt bytes
      rw [pow_length_eq] at small
      rw [beNat_cons, pow_length_eq, Nat.mul_comm byte.toNat, Nat.testBit_two_pow_mul_add _ small,
        List.length_cons]
      rw [List.length_cons] at inside
      by_cases first : i < 8
      · have index : i / 8 = 0 ∧ i % 8 = i := by omega
        have place : ¬ 8 * (bytes.length + 1) - 1 - i < 8 * bytes.length := by omega
        have shifted : 8 * (bytes.length + 1) - 1 - i - 8 * bytes.length = 7 - i := by omega
        rw [if_neg place, shifted, bitAt, index.1, index.2, List.getD_cons_zero]
      · obtain ⟨j, rfl⟩ := Nat.exists_eq_add_of_le (Nat.not_lt.mp first)
        have index : (8 + j) / 8 = j / 8 + 1 ∧ (8 + j) % 8 = j % 8 := by omega
        have place : 8 * (bytes.length + 1) - 1 - (8 + j) = 8 * bytes.length - 1 - j := by omega
        have below : 8 * bytes.length - 1 - j < 8 * bytes.length := by omega
        rw [place, if_pos below, ← ih (by omega), bitAt, bitAt, index.1, index.2,
          List.getD_cons_succ]

/-- The first bits are clear exactly when the number is below the power of two that the
other bits leave room for. -/
theorem beNat_lt_two_pow_iff (bytes : Bytes) {n : Nat} (fits : n ≤ 8 * bytes.length) :
    beNat bytes < 2 ^ (8 * bytes.length - n) ↔ ∀ i < n, bitAt bytes i = false := by
  constructor
  · intro small i leading
    rw [bitAt_eq_testBit (by omega)]
    apply Nat.testBit_lt_two_pow
    exact Nat.lt_of_lt_of_le small (Nat.pow_le_pow_right Nat.two_pos (by omega))
  · intro clear
    apply Nat.lt_pow_two_of_testBit
    intro place high
    by_cases inside : place < 8 * bytes.length
    · -- A place this high is that of one of the first bits.
      have leading := clear (8 * bytes.length - 1 - place) (by omega)
      have back : 8 * bytes.length - 1 - (8 * bytes.length - 1 - place) = place := by omega
      rwa [bitAt_eq_testBit (by omega), back] at leading
    · have whole := beNat_lt bytes
      rw [pow_length_eq] at whole
      apply Nat.testBit_lt_two_pow
      exact Nat.lt_of_lt_of_le whole
        (Nat.pow_le_pow_right Nat.two_pos (Nat.not_lt.mp inside))

/-- The leading positions with a property are at least as many as hold it from the start. -/
theorem le_length_takeWhile_range_iff {p : Nat → Bool} {n bound : Nat} (fits : n ≤ bound) :
    n ≤ ((List.range bound).takeWhile p).length ↔ ∀ i < n, p i = true := by
  constructor
  · intro long i below
    have inside : i < ((List.range bound).takeWhile p).length := Nat.lt_of_lt_of_le below long
    have same : ((List.range bound).takeWhile p)[i] = i := by
      rw [(List.takeWhile_prefix p).getElem inside, List.getElem_range]
    have passed := List.mem_takeWhile_imp (List.getElem_mem inside)
    rwa [same] at passed
  · intro all
    obtain ⟨rest, rfl⟩ := Nat.exists_eq_add_of_le fits
    rw [List.range_add,
      List.takeWhile_append_of_pos fun i member => all i (List.mem_range.mp member),
      List.length_append, List.length_range]
    exact Nat.le_add_right n _

end Foundation

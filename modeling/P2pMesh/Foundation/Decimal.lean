import P2pMesh.Foundation.BigEndian
import Mathlib.Algebra.Ring.Int.Defs
import Mathlib.Algebra.Order.Ring.Int

/-! # Decimal numbers in byte strings

The text of an integer, and the reading of one in 64 bits with an optional sign. What is
written is read back (`Foundation.atoi_itoa`).
-/

namespace Foundation

/-- The bytes of the decimal digits. -/
def isDigit (byte : UInt8) : Bool :=
  0x30 ≤ byte && byte ≤ 0x39

/-- The decimal digits of a number. -/
def digits (n : Nat) : Bytes :=
  (Nat.toDigits 10 n).map fun c => UInt8.ofNat c.toNat

/-- The text of an integer, as `%d` prints it. -/
def itoa : Int → Bytes
  | .ofNat n => digits n
  | .negSucc n => 0x2D :: digits (n + 1)

/-- The number that decimal digits stand for. -/
def digitsValue (text : Bytes) : Nat :=
  text.foldl (fun n byte => 10 * n + (byte.toNat - 0x30)) 0

/-- `strconv.Atoi`, without its error: digits after an optional sign, in 64 bits. -/
def atoi (s : Bytes) : Option Int :=
  let negative := s.head? = some 0x2D
  let text := if negative ∨ s.head? = some 0x2B then s.drop 1 else s
  if text = [] ∨ text.any (!isDigit ·) then none
  else if negative then
    if digitsValue text ≤ 2 ^ 63 then some (-(digitsValue text : Int)) else none
  else if digitsValue text < 2 ^ 63 then some (digitsValue text) else none

theorem toNat_digitChar {c : Char} (isDigit : c.isDigit = true) :
    (UInt8.ofNat c.toNat).toNat = c.toNat ∧ 0x30 ≤ c.toNat ∧ c.toNat ≤ 0x39 := by
  simp only [Char.isDigit, Bool.and_eq_true, decide_eq_true_eq] at isDigit
  obtain ⟨low, high⟩ := isDigit
  have lower : 0x30 ≤ c.toNat := low
  have upper : c.toNat ≤ 0x39 := high
  refine ⟨?_, lower, upper⟩
  rw [UInt8.toNat_ofNat']
  exact Nat.mod_eq_of_lt (by omega)

/-- A number is written with digits. -/
theorem isDigit_of_mem_digits {n : Nat} {byte : UInt8} (member : byte ∈ digits n) :
    isDigit byte = true := by
  obtain ⟨c, listed, rfl⟩ := List.mem_map.mp member
  have digit := Nat.isDigit_of_mem_toDigits (by decide) (by decide) listed
  obtain ⟨same, low, high⟩ := toNat_digitChar digit
  simp only [isDigit, Bool.and_eq_true, decide_eq_true_eq, UInt8.le_iff_toNat_le, same]
  exact ⟨low, high⟩

theorem digits_ne_nil (n : Nat) : digits n ≠ [] :=
  fun empty => Nat.toDigits_ne_nil (List.map_eq_nil_iff.mp empty)

theorem digitsValue_map {text : List Char} (all : ∀ c ∈ text, c.isDigit = true) (start : Nat) :
    (text.map fun c => UInt8.ofNat c.toNat).foldl (fun n byte => 10 * n + (byte.toNat - 0x30))
      start = Nat.ofDigitChars 10 text start := by
  induction text generalizing start with
  | nil => rfl
  | cons c text ih =>
      obtain ⟨own, others⟩ := List.forall_mem_cons.mp all
      rw [List.map_cons, List.foldl_cons, ih others, (toNat_digitChar own).1]
      rfl

/-- The digits of a number have its value. -/
theorem digitsValue_digits (n : Nat) : digitsValue (digits n) = n := by
  have all : ∀ c ∈ Nat.toDigits 10 n, c.isDigit = true :=
    fun c member => Nat.isDigit_of_mem_toDigits (by decide) (by decide) member
  rw [digitsValue, digits, digitsValue_map all]
  exact Nat.ofDigitChars_toDigits (by decide) (by decide)

theorem digits_valid (n : Nat) : ¬ (digits n = [] ∨ (digits n).any (!isDigit ·)) := by
  rw [not_or]
  refine ⟨digits_ne_nil n, ?_⟩
  simp only [List.any_eq_true, Bool.not_eq_true', not_exists, not_and, Bool.not_eq_false]
  exact fun byte member => isDigit_of_mem_digits member

/-- A number of 63 bits is read back. -/
theorem atoi_digits {n : Nat} (small : n < 2 ^ 63) : atoi (digits n) = some (n : Int) := by
  have head : ∀ byte, isDigit byte = false → (digits n).head? ≠ some byte := by
    intro byte other first
    rw [isDigit_of_mem_digits (List.mem_of_mem_head? first)] at other
    cases other
  have minus := head 0x2D (by decide)
  have plus := head 0x2B (by decide)
  simp only [atoi, minus, plus, or_self, ↓reduceIte, digits_valid, digitsValue_digits, small]

/-- A negative number of 64 bits is read back. -/
theorem atoi_neg_digits {n : Nat} (small : n ≤ 2 ^ 63) :
    atoi (0x2D :: digits n) = some (-(n : Int)) := by
  simp only [atoi, List.head?_cons, true_or, ↓reduceIte, List.drop_one, List.tail_cons,
    digits_valid, digitsValue_digits, small]

/-- The text of an integer in 64 bits is read back. -/
theorem atoi_itoa {n : Int} (low : -2 ^ 63 ≤ n) (high : n < 2 ^ 63) : atoi (itoa n) = some n := by
  cases n with
  | ofNat n =>
      rw [itoa, atoi_digits (by simp only [Int.ofNat_eq_natCast] at high; omega)]
      rfl
  | negSucc n =>
      rw [itoa, atoi_neg_digits (by omega)]
      rfl

/-- A number of 63 bits has nineteen digits at most. -/
theorem length_digits_le {n : Nat} (small : n ≤ 2 ^ 63) : (digits n).length ≤ 19 := by
  rw [digits, List.length_map, Nat.length_toDigits_le_iff (by decide) (by decide)]
  exact Nat.lt_of_le_of_lt small (by decide)

/-- A number of 64 bits is written with twenty bytes at most. -/
theorem length_itoa_le {n : Int} (low : -2 ^ 63 ≤ n) (high : n < 2 ^ 63) :
    (itoa n).length ≤ 20 := by
  cases n with
  | ofNat n =>
      have short : (digits n).length ≤ 19 :=
        length_digits_le (by simp only [Int.ofNat_eq_natCast] at high; omega)
      exact Nat.le_succ_of_le short
  | negSucc n =>
      have short : (digits (n + 1)).length ≤ 19 := length_digits_le (by omega)
      exact Nat.succ_le_succ short

/-- The text of an integer has digits and a sign. -/
theorem mem_itoa {n : Int} {byte : UInt8} (member : byte ∈ itoa n) :
    isDigit byte = true ∨ byte = 0x2D := by
  cases n with
  | ofNat n => exact .inl (isDigit_of_mem_digits member)
  | negSucc n =>
      rcases List.mem_cons.mp member with rfl | member
      · exact .inr rfl
      · exact .inl (isDigit_of_mem_digits member)

end Foundation

import P2pMesh.Foundation.BigEndian
import Mathlib.Data.Nat.Digits.Defs

/-! # Base32

`base32.StdEncoding`: five bytes are written as eight digits. A shorter last group is
written with the digits its bits need, the last of them filled up with zeros, and padded
to eight characters. The digits are those of the number that the bytes encode
(`Foundation.Base32.number_values`), so the first digits of two strings of one length
agree just when their first bits do (`Foundation.Base32.take_encode_eq_iff`).
-/

namespace Foundation.Base32

/-- The digit for a value below 32: `A` to `Z`, then `2` to `7`. -/
def digit (value : Nat) : UInt8 :=
  if value < 26 then UInt8.ofNat (65 + value) else UInt8.ofNat (24 + value)

/-- The values of the digits of five bytes. -/
def group (a b c d e : UInt8) : List Nat :=
  [a.toNat / 8, a.toNat % 8 * 4 + b.toNat / 64, b.toNat / 2 % 32, b.toNat % 2 * 16 + c.toNat / 16,
    c.toNat % 16 * 2 + d.toNat / 128, d.toNat / 4 % 32, d.toNat % 4 * 8 + e.toNat / 32,
    e.toNat % 32]

/-- The values of the digits that are written for a byte string. A short last group has no
digits for the bytes it lacks. -/
def values : Bytes → List Nat
  | [] => []
  | [a] => (group a 0 0 0 0).take 2
  | [a, b] => (group a b 0 0 0).take 4
  | [a, b, c] => (group a b c 0 0).take 5
  | [a, b, c, d] => (group a b c d 0).take 7
  | a :: b :: c :: d :: e :: rest => group a b c d e ++ values rest

/-- `StdPadding`. -/
def padding : UInt8 := 61

/-- `EncodeToString`: the last group is padded to eight characters. -/
def encode (bytes : Bytes) : Bytes :=
  (values bytes).map digit ++ List.replicate ((8 - (values bytes).length % 8) % 8) padding

/-- The bits of the last digit that no byte fills. -/
def spare (bytes : Bytes) : Nat :=
  5 * (values bytes).length - 8 * bytes.length

/-- Eight bits of a byte are spread over digits of five. -/
theorem length_values (bytes : Bytes) : (values bytes).length = (8 * bytes.length + 4) / 5 := by
  induction bytes using values.induct with
  | case1 => simp [values]
  | case2 | case3 | case4 | case5 => simp [values, group]
  | case6 a b c d e rest ih =>
      simp only [values, group, List.length_append, List.length_cons, List.length_nil, ih]
      omega

/-- The digits have the bits of the bytes and the spare ones of the last digit. -/
theorem five_mul_length_values (bytes : Bytes) :
    5 * (values bytes).length = 8 * bytes.length + spare bytes := by
  have length := length_values bytes
  rw [spare]
  omega

/-- A full group leaves no bits over. -/
theorem spare_group (a b c d e : UInt8) (rest : Bytes) :
    spare (a :: b :: c :: d :: e :: rest) = spare rest := by
  simp only [spare, length_values, List.length_cons]
  omega

theorem group_lt (a b c d e : UInt8) : ∀ value ∈ group a b c d e, value < 32 := by
  have := a.toNat_lt
  have := b.toNat_lt
  have := c.toNat_lt
  have := d.toNat_lt
  have := e.toNat_lt
  simp only [group, List.mem_cons, List.not_mem_nil, or_false, forall_eq_or_imp, forall_eq]
  omega

/-- A digit has five bits. -/
theorem values_lt (bytes : Bytes) : ∀ value ∈ values bytes, value < 32 := by
  intro value member
  induction bytes using values.induct with
  | case1 => cases member
  | case2 | case3 | case4 | case5 => exact group_lt _ _ _ _ _ value (List.mem_of_mem_take member)
  | case6 a b c d e rest ih =>
      rcases List.mem_append.mp member with first | later
      · exact group_lt a b c d e value first
      · exact ih later

section Number

/-- The number that digit values encode, the most significant digit first. -/
def number (digits : List Nat) : Nat :=
  Nat.ofDigits 32 digits.reverse

/-- Digits are appended as in every positional system. -/
theorem number_append (left right : List Nat) :
    number (left ++ right) = number left * 32 ^ right.length + number right := by
  rw [number, List.reverse_append, Nat.ofDigits_append, List.length_reverse, number, number]
  ring

/-- The first digits encode a quotient of the number. -/
theorem number_take {digits : List Nat} (small : ∀ value ∈ digits, value < 32) (count : Nat) :
    number (digits.take count) = number digits / 32 ^ (digits.length - count) := by
  have reversed : ∀ value ∈ digits.reverse, value < 32 := fun value member =>
    small value (List.mem_reverse.mp member)
  rw [number, number, Nat.ofDigits_div_pow_eq_ofDigits_drop _ (by decide) _ reversed,
    List.reverse_take]

/-- Digit values of one length are determined by their number. -/
theorem eq_of_number_eq {left right : List Nat} (length : left.length = right.length)
    (leftSmall : ∀ value ∈ left, value < 32) (rightSmall : ∀ value ∈ right, value < 32)
    (same : number left = number right) : left = right := by
  refine List.reverse_injective (Nat.ofDigits_inj_of_len_eq (by decide) ?_ ?_ ?_ same)
  · rw [List.length_reverse, List.length_reverse, length]
  · exact fun value member => leftSmall value (List.mem_reverse.mp member)
  · exact fun value member => rightSmall value (List.mem_reverse.mp member)

/-- A full group of digits is the number of its five bytes. -/
theorem number_group (a b c d e : UInt8) : number (group a b c d e) = beNat [a, b, c, d, e] := by
  have := b.toNat_lt
  have := c.toNat_lt
  have := d.toNat_lt
  have := e.toNat_lt
  simp only [number, group, List.reverse_cons, List.reverse_nil, List.nil_append,
    List.cons_append, Nat.ofDigits_cons, Nat.ofDigits_nil, beNat, List.foldl_cons, List.foldl_nil]
  omega

/-- The digits encode the number of the bytes, with zeros for the spare bits. -/
theorem number_values (bytes : Bytes) :
    number (values bytes) = beNat bytes * 2 ^ spare bytes := by
  induction bytes using values.induct with
  | case1 => rfl
  | case2 | case3 | case4 | case5 =>
      rw [values, number_take (group_lt _ _ _ _ _), number_group]
      simp only [beNat, group, List.foldl_cons, List.foldl_nil, spare, length_values,
        List.length_cons, List.length_nil, UInt8.toNat_zero]
      omega
  | case6 a b c d e rest ih =>
      have width : 32 ^ (values rest).length = 256 ^ rest.length * 2 ^ spare rest := by
        calc 32 ^ (values rest).length = 2 ^ (5 * (values rest).length) := by rw [Nat.pow_mul]
          _ = 2 ^ (8 * rest.length) * 2 ^ spare rest := by
              rw [five_mul_length_values, Nat.pow_add]
          _ = 256 ^ rest.length * 2 ^ spare rest := by rw [Nat.pow_mul]
      have split : beNat (a :: b :: c :: d :: e :: rest) =
          beNat [a, b, c, d, e] * 256 ^ rest.length + beNat rest :=
        beNat_append [a, b, c, d, e] rest
      rw [values, number_append, number_group, ih, spare_group, split, width]
      ring

/-- The first digits encode the first bits of the string. -/
theorem number_take_values (bytes : Bytes) {count : Nat} (inside : 5 * count ≤ 8 * bytes.length) :
    number ((values bytes).take count) = beNat bytes / 2 ^ (8 * bytes.length - 5 * count) := by
  have length := five_mul_length_values bytes
  have rest : 5 * ((values bytes).length - count) =
      8 * bytes.length - 5 * count + spare bytes := by omega
  calc number ((values bytes).take count)
      = beNat bytes * 2 ^ spare bytes / 32 ^ ((values bytes).length - count) := by
        rw [number_take (values_lt bytes), number_values]
    _ = beNat bytes * 2 ^ spare bytes / 2 ^ (5 * ((values bytes).length - count)) := by
        rw [Nat.pow_mul]
    _ = beNat bytes * 2 ^ spare bytes / (2 ^ (8 * bytes.length - 5 * count) * 2 ^ spare bytes) := by
        rw [rest, Nat.pow_add]
    _ = beNat bytes / 2 ^ (8 * bytes.length - 5 * count) :=
        Nat.mul_div_mul_right _ _ (Nat.two_pow_pos _)

/-- The first digits of two strings of one length agree just when the bits they are
written for do. -/
theorem take_values_eq_iff {left right : Bytes} (length : left.length = right.length)
    {count : Nat} (inside : 5 * count ≤ 8 * left.length) :
    (values left).take count = (values right).take count ↔
      beNat left / 2 ^ (8 * left.length - 5 * count) =
        beNat right / 2 ^ (8 * right.length - 5 * count) := by
  rw [← number_take_values left inside, ← number_take_values right (length ▸ inside)]
  refine ⟨congrArg number, eq_of_number_eq ?_ ?_ ?_⟩
  · rw [List.length_take, List.length_take, length_values, length_values, length]
  · exact fun value member => values_lt left value (List.mem_of_mem_take member)
  · exact fun value member => values_lt right value (List.mem_of_mem_take member)

end Number

section Characters

/-- The letters and digits of the encoding. -/
def isDigit (byte : UInt8) : Bool :=
  (65 ≤ byte && byte ≤ 90) || (50 ≤ byte && byte ≤ 55)

/-- The value of a digit. -/
def digitValue (byte : UInt8) : Nat :=
  if byte < 65 then byte.toNat - 24 else byte.toNat - 65

/-- Digits are written with the alphabet and read back. -/
theorem digit_spec {value : Nat} (small : value < 32) :
    isDigit (digit value) = true ∧ digitValue (digit value) = value := by
  have all : ∀ value < 32, isDigit (digit value) = true ∧ digitValue (digit value) = value := by
    decide
  exact all value small

/-- An encoding is in ASCII. -/
theorem lt_of_mem_encode {bytes : Bytes} {byte : UInt8} (member : byte ∈ encode bytes) :
    byte < 128 := by
  have ascii : ∀ value < 32, digit value < 128 := by decide
  rcases List.mem_append.mp member with written | padded
  · obtain ⟨value, listed, rfl⟩ := List.mem_map.mp written
    exact ascii value (values_lt bytes value listed)
  · rw [List.eq_of_mem_replicate padded]
    decide

/-- The characters that the bits of a string fill are digits. -/
theorem take_encode {bytes : Bytes} {count : Nat} (inside : 5 * count ≤ 8 * bytes.length) :
    (encode bytes).take count = ((values bytes).take count).map digit := by
  have length := length_values bytes
  rw [encode, List.take_append_of_le_length (by rw [List.length_map]; omega), List.map_take]

example : encode (ascii "foobar") = ascii "MZXW6YTBOI======" := by
  decide

/-- The digits before the padding are of the alphabet. -/
theorem isDigit_of_mem_take_encode {bytes : Bytes} {count : Nat}
    (inside : 5 * count ≤ 8 * bytes.length) {byte : UInt8}
    (member : byte ∈ (encode bytes).take count) : isDigit byte = true := by
  rw [take_encode inside] at member
  obtain ⟨value, listed, rfl⟩ := List.mem_map.mp member
  exact (digit_spec (values_lt bytes value (List.mem_of_mem_take listed))).1

/-- The first characters of two strings of one length agree just when the bits they are
written for do. -/
theorem take_encode_eq_iff {left right : Bytes} (length : left.length = right.length)
    {count : Nat} (inside : 5 * count ≤ 8 * left.length) :
    (encode left).take count = (encode right).take count ↔
      beNat left / 2 ^ (8 * left.length - 5 * count) =
        beNat right / 2 ^ (8 * right.length - 5 * count) := by
  have read : ∀ bytes : Bytes,
      (((values bytes).take count).map digit).map digitValue = (values bytes).take count := by
    intro bytes
    rw [List.map_map, List.map_congr_left (g := id), List.map_id]
    intro value listed
    exact (digit_spec (values_lt bytes value (List.mem_of_mem_take listed))).2
  rw [take_encode inside, take_encode (length ▸ inside), ← take_values_eq_iff length inside]
  constructor
  · intro same
    rw [← read left, same, read right]
  · exact congrArg (List.map digit)

end Characters

end Foundation.Base32

import P2pMesh.Foundation.BigEndian

/-! # Base64 for URLs without padding

`base64.RawURLEncoding`: three bytes are written as four digits, and a last group of
one or two bytes as two or three digits. The decoder skips line breaks and does not look
at the bits that a short last group leaves over. What was encoded is decoded again
(`Foundation.Base64.decode_encode`).
-/

namespace Foundation.Base64

/-- The digit for a value below 64. -/
def digit (value : Nat) : UInt8 :=
  if value < 26 then UInt8.ofNat (65 + value)
  else if value < 52 then UInt8.ofNat (71 + value)
  else if value < 62 then UInt8.ofNat (value - 4)
  else if value = 62 then 45
  else 95

/-- The value of a digit of the alphabet for URLs. -/
def digitValue (byte : UInt8) : Option Nat :=
  if 65 ≤ byte ∧ byte ≤ 90 then some (byte.toNat - 65)
  else if 97 ≤ byte ∧ byte ≤ 122 then some (byte.toNat - 71)
  else if 48 ≤ byte ∧ byte ≤ 57 then some (byte.toNat + 4)
  else if byte = 45 then some 62
  else if byte = 95 then some 63
  else none

/-- The values of the digits that are written for a byte string. -/
def values : Bytes → List Nat
  | [] => []
  | [a] => [a.toNat / 4, a.toNat % 4 * 16]
  | [a, b] => [a.toNat / 4, a.toNat % 4 * 16 + b.toNat / 16, b.toNat % 16 * 4]
  | a :: b :: c :: rest =>
      a.toNat / 4 :: (a.toNat % 4 * 16 + b.toNat / 16) :: (b.toNat % 16 * 4 + c.toNat / 64) ::
        c.toNat % 64 :: values rest

/-- `EncodeToString`. -/
def encode (bytes : Bytes) : Bytes :=
  (values bytes).map digit

/-- The bytes of groups of digit values. -/
def joinValues : List Nat → Option Bytes
  | [] => some []
  | [_] => none
  | [p, q] => some [UInt8.ofNat (p * 4 + q / 16)]
  | [p, q, r] => some [UInt8.ofNat (p * 4 + q / 16), UInt8.ofNat (q % 16 * 16 + r / 4)]
  | p :: q :: r :: s :: rest =>
      (joinValues rest).map fun bytes =>
        UInt8.ofNat (p * 4 + q / 16) :: UInt8.ofNat (q % 16 * 16 + r / 4) ::
          UInt8.ofNat (r % 4 * 64 + s) :: bytes

/-- The bytes that a decoder passes over. -/
def isLineBreak (byte : UInt8) : Bool :=
  byte = 10 || byte = 13

/-- `DecodeString`; `none` when it returns an error. -/
def decode (text : Bytes) : Option Bytes :=
  ((text.filter fun byte => !isLineBreak byte).mapM digitValue).bind joinValues

/-- A digit of the URL alphabet is read back. -/
theorem digitValue_digit {value : Nat} (small : value < 64) :
    digitValue (digit value) = some value := by
  have all : ∀ value < 64, digitValue (digit value) = some value := by decide
  exact all value small

/-- A digit has six bits. -/
theorem values_lt (bytes : Bytes) : ∀ value ∈ values bytes, value < 64 := by
  induction bytes using values.induct with
  | case1 => exact nofun
  | case2 a =>
      have := a.toNat_lt
      simp only [values, List.mem_cons, List.not_mem_nil, or_false, forall_eq_or_imp, forall_eq]
      omega
  | case3 a b =>
      have := a.toNat_lt
      have := b.toNat_lt
      simp only [values, List.mem_cons, List.not_mem_nil, or_false, forall_eq_or_imp, forall_eq]
      omega
  | case4 a b c rest ih =>
      have := a.toNat_lt
      have := b.toNat_lt
      have := c.toNat_lt
      simp only [values, List.mem_cons, forall_eq_or_imp]
      refine ⟨by omega, by omega, by omega, by omega, ih⟩

theorem ofNat_eq {value : Nat} {byte : UInt8} (same : value = byte.toNat) :
    UInt8.ofNat value = byte := by
  rw [same, UInt8.ofNat_toNat]

/-- Joining the digits of bytes gives the bytes. -/
theorem joinValues_values (bytes : Bytes) : joinValues (values bytes) = some bytes := by
  induction bytes using values.induct with
  | case1 => rfl
  | case2 a =>
      have first : a.toNat / 4 * 4 + a.toNat % 4 * 16 / 16 = a.toNat := by omega
      simp only [values, joinValues, ofNat_eq first]
  | case3 a b =>
      have := b.toNat_lt
      have first : a.toNat / 4 * 4 + (a.toNat % 4 * 16 + b.toNat / 16) / 16 = a.toNat := by omega
      have second : (a.toNat % 4 * 16 + b.toNat / 16) % 16 * 16 + b.toNat % 16 * 4 / 4 =
          b.toNat := by omega
      simp only [values, joinValues, ofNat_eq first, ofNat_eq second]
  | case4 a b c rest ih =>
      have := b.toNat_lt
      have := c.toNat_lt
      have first : a.toNat / 4 * 4 + (a.toNat % 4 * 16 + b.toNat / 16) / 16 = a.toNat := by omega
      have second : (a.toNat % 4 * 16 + b.toNat / 16) % 16 * 16 +
          (b.toNat % 16 * 4 + c.toNat / 64) / 4 = b.toNat := by omega
      have third : (b.toNat % 16 * 4 + c.toNat / 64) % 4 * 64 + c.toNat % 64 = c.toNat := by omega
      simp only [values, joinValues, ih, Option.map_some, ofNat_eq first, ofNat_eq second,
        ofNat_eq third]

/-- Every encoded byte is a digit. -/
theorem exists_digitValue {bytes : Bytes} {byte : UInt8} (member : byte ∈ encode bytes) :
    ∃ value, digitValue byte = some value := by
  obtain ⟨value, mem, rfl⟩ := List.mem_map.mp member
  exact ⟨value, digitValue_digit (values_lt bytes value mem)⟩

/-- A byte that is no digit does not occur in an encoding. -/
theorem not_mem_encode {byte : UInt8} (other : digitValue byte = none) (bytes : Bytes) :
    byte ∉ encode bytes := by
  intro member
  obtain ⟨value, isDigit⟩ := exists_digitValue member
  rw [other] at isDigit
  cases isDigit

/-- A list of digits is read back. -/
theorem mapM_digitValue {list : List Nat} (small : ∀ value ∈ list, value < 64) :
    (list.map digit).mapM digitValue = some list := by
  induction list with
  | nil => rfl
  | cons value list ih =>
      have first := digitValue_digit (small value List.mem_cons_self)
      have rest := ih fun other member => small other (List.mem_cons_of_mem value member)
      simp only [List.map_cons, List.mapM_cons, first, rest]
      rfl

/-- What was encoded is decoded again. -/
theorem decode_encode (bytes : Bytes) : decode (encode bytes) = some bytes := by
  have unbroken : (encode bytes).filter (fun byte => !isLineBreak byte) = encode bytes := by
    apply List.filter_eq_self.mpr
    intro byte member
    obtain ⟨value, isDigit⟩ := exists_digitValue member
    by_contra broken
    simp only [isLineBreak, Bool.not_eq_true', Bool.not_eq_false, Bool.or_eq_true,
      decide_eq_true_eq] at broken
    rcases broken with rfl | rfl <;> cases isDigit
  rw [decode, unbroken, encode, mapM_digitValue (values_lt bytes)]
  exact joinValues_values bytes

example : encode (ascii "foob") = ascii "Zm9vYg" := by decide

end Foundation.Base64

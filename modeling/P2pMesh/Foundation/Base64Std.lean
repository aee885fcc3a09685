import P2pMesh.Foundation.Base64

/-! # Base64 with padding

`base64.StdEncoding`, in which `encoding/json` writes a `[]byte`: the digits for 62 and 63 are
others than those for URLs, and a short last group is filled up. The decoder skips line breaks,
wants the right padding, and does not look at the bits that a short last group leaves over. What
was encoded is decoded again (`Foundation.Base64.decodeStd_encodeStd`).
-/

namespace Foundation.Base64

/-- The byte that fills the last group. -/
def padChar : UInt8 := 61

/-- The digit for a value below 64. -/
def stdDigit (value : Nat) : UInt8 :=
  if value = 62 then 43 else if value = 63 then 47 else digit value

/-- The value of a digit of the standard alphabet. -/
def stdDigitValue (byte : UInt8) : Option Nat :=
  if byte = 43 then some 62
  else if byte = 47 then some 63
  else if byte = 45 ∨ byte = 95 then none
  else digitValue byte

/-- What fills up a last group of so many digits. -/
def padding (digits : Nat) : Bytes :=
  List.replicate ((4 - digits % 4) % 4) padChar

/-- `EncodeToString`. -/
def encodeStd (bytes : Bytes) : Bytes :=
  (values bytes).map stdDigit ++ padding (values bytes).length

/-- `Decode` of a text without line breaks. -/
def decodeDigits (text : Bytes) : Option Bytes :=
  let digits := text.takeWhile (· ≠ padChar)
  if text.drop digits.length = padding digits.length ∧ digits.length % 4 ≠ 1 then
    (digits.mapM stdDigitValue).bind joinValues
  else none

/-- `Decode`; `none` when it returns an error. -/
def decodeStd (text : Bytes) : Option Bytes :=
  decodeDigits (text.filter fun byte => !isLineBreak byte)

/-- A digit of the standard alphabet is read back. -/
theorem stdDigitValue_stdDigit {value : Nat} (small : value < 64) :
    stdDigitValue (stdDigit value) = some value := by
  have all : ∀ value < 64, stdDigitValue (stdDigit value) = some value := by decide
  exact all value small

/-- A list of digits is read back. -/
theorem mapM_stdDigitValue {list : List Nat} (small : ∀ value ∈ list, value < 64) :
    (list.map stdDigit).mapM stdDigitValue = some list := by
  induction list with
  | nil => rfl
  | cons value list ih =>
      have first := stdDigitValue_stdDigit (small value List.mem_cons_self)
      have rest := ih fun other member => small other (List.mem_cons_of_mem value member)
      simp only [List.map_cons, List.mapM_cons, first, rest]
      rfl

/-- No text of bytes leaves a single digit in the last group. -/
theorem length_values_mod (bytes : Bytes) : (values bytes).length % 4 ≠ 1 := by
  induction bytes using values.induct with
  | case1 => decide
  | case2 a => simp [values]
  | case3 a b => simp [values]
  | case4 a b c rest ih =>
      simp only [values, List.length_cons]
      omega

/-- An encoding is at most twice as long, and three bytes more. -/
theorem length_encodeStd_le (bytes : Bytes) :
    (encodeStd bytes).length ≤ 2 * bytes.length + 3 := by
  have digits (bytes : Bytes) : (values bytes).length ≤ 2 * bytes.length := by
    induction bytes using values.induct with
    | case1 => exact Nat.le_refl _
    | case2 a => exact Nat.le_refl _
    | case3 a b => exact Nat.le_succ _
    | case4 a b c rest ih =>
        simp only [values, List.length_cons]
        omega
  have written := digits bytes
  simp only [encodeStd, padding, List.length_append, List.length_map, List.length_replicate]
  omega

/-- The bytes of an encoding are digits and padding. -/
theorem mem_encodeStd {bytes : Bytes} {byte : UInt8} (member : byte ∈ encodeStd bytes) :
    byte = padChar ∨ (stdDigitValue byte).isSome = true := by
  rcases List.mem_append.mp member with written | filled
  · obtain ⟨value, mem, rfl⟩ := List.mem_map.mp written
    rw [stdDigitValue_stdDigit (values_lt bytes value mem)]
    exact Or.inr rfl
  · exact Or.inl (List.eq_of_mem_replicate filled)

/-- What was encoded is decoded again. -/
theorem decodeStd_encodeStd (bytes : Bytes) : decodeStd (encodeStd bytes) = some bytes := by
  have unbroken : (encodeStd bytes).filter (fun byte => !isLineBreak byte) = encodeStd bytes := by
    apply List.filter_eq_self.mpr
    intro byte member
    by_contra broken
    simp only [isLineBreak, Bool.not_eq_true', Bool.not_eq_false, Bool.or_eq_true,
      decide_eq_true_eq] at broken
    rcases mem_encodeStd member with pad | isDigit
    · rcases broken with rfl | rfl <;> cases pad
    · rcases broken with rfl | rfl <;> cases isDigit
  have digits : ∀ byte ∈ (values bytes).map stdDigit, decide (byte ≠ padChar) = true := by
    intro byte member
    obtain ⟨value, mem, rfl⟩ := List.mem_map.mp member
    apply decide_eq_true
    intro pad
    have read := stdDigitValue_stdDigit (values_lt bytes value mem)
    rw [pad] at read
    cases read
  have front : (encodeStd bytes).takeWhile (· ≠ padChar) = (values bytes).map stdDigit := by
    rw [encodeStd, List.takeWhile_append_of_pos digits, padding, List.takeWhile_replicate]
    simp
  have filled : (encodeStd bytes).drop ((values bytes).map stdDigit).length =
      padding ((values bytes).map stdDigit).length := by
    rw [List.length_map]
    exact List.drop_left' (List.length_map _)
  have whole : ((values bytes).map stdDigit).length % 4 ≠ 1 := by
    rw [List.length_map]
    exact length_values_mod bytes
  rw [decodeStd, unbroken, decodeDigits, front, if_pos ⟨filled, whole⟩,
    mapM_stdDigitValue (values_lt bytes)]
  exact joinValues_values bytes

example : encodeStd (ascii "foob") = ascii "Zm9vYg==" := by decide

end Foundation.Base64

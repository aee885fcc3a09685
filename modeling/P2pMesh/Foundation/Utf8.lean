import P2pMesh.Foundation.BigEndian
import Mathlib.Data.List.ReduceOption

/-! # Code points of a byte string

A byte string is read as UTF-8 one code point at a time, and a byte that starts no
well-formed encoding is read by itself as a gap. Reading an encoded list of
characters returns it (`Foundation.runes_encodeRunes`), and a byte string that reads
without gaps is the encoding of what was read (`Foundation.encodeRunes_runes`).
-/

namespace Foundation

/-- `utf8.DecodeRune`: the first code point, unless the first byte starts none. -/
def decodeRune (bytes : Bytes) : Option Char :=
  bytes.toByteArray.utf8DecodeChar? 0

/-- The UTF-8 encoding of characters. -/
def encodeRunes (chars : List Char) : Bytes :=
  chars.flatMap String.utf8EncodeChar

/-- The code points of a byte string; every byte uses at most one unit of fuel. -/
def runesWithin : Nat → Bytes → List (Option Char)
  | 0, _ => []
  | _, [] => []
  | fuel + 1, byte :: rest =>
      match decodeRune (byte :: rest) with
      | none => none :: runesWithin fuel rest
      | some c => some c :: runesWithin fuel ((byte :: rest).drop c.utf8Size)

/-- The code points of a byte string; each byte that starts none is a gap. -/
def runes (bytes : Bytes) : List (Option Char) :=
  runesWithin bytes.length bytes

/-- What stands for a gap where a character is needed. -/
def replacement : Char := Char.ofNat 0xFFFD

/-- `utf8.ValidString`. -/
def validUtf8 (bytes : Bytes) : Bool :=
  (runes bytes).all Option.isSome

/-- An ASCII character is one byte. -/
theorem utf8EncodeChar_ascii {byte : UInt8} (small : byte < 128) :
    String.utf8EncodeChar (Char.ofNat byte.toNat) = [byte] := by
  have all : ∀ n < 128, String.utf8EncodeChar (Char.ofNat n) = [UInt8.ofNat n] := by
    decide +kernel
  rw [all byte.toNat (UInt8.lt_iff_toNat_lt.mp small), UInt8.ofNat_toNat]

/-- A character that was encoded is decoded, whatever follows. -/
theorem decodeRune_encode (c : Char) (rest : Bytes) :
    decodeRune (String.utf8EncodeChar c ++ rest) = some c := by
  unfold decodeRune
  rw [List.toByteArray_append]
  exact ByteArray.utf8DecodeChar?_utf8EncodeChar_append

/-- Bytes that decode to a character start with its encoding. -/
theorem eq_of_decodeRune {bytes : Bytes} {c : Char} (decoded : decodeRune bytes = some c) :
    bytes = String.utf8EncodeChar c ++ bytes.drop c.utf8Size := by
  obtain ⟨rest, split⟩ := ByteArray.exists_of_utf8DecodeChar?_eq_some decoded
  have lists := congrArg (fun array => array.data.toList) split
  simp only [List.data_toByteArray, ByteArray.data_append, Array.toList_append] at lists
  conv_rhs => rw [lists, List.drop_left' (String.length_utf8EncodeChar c)]
  exact lists

/-- The fuel that the length gives is enough. -/
theorem runesWithin_eq (bytes : Bytes) {fuel : Nat} (enough : bytes.length ≤ fuel) :
    runesWithin fuel bytes = runes bytes := by
  induction fuel using Nat.strongRecOn generalizing bytes with
  | _ fuel ih =>
      cases bytes with
      | nil => cases fuel <;> rfl
      | cons byte rest =>
          obtain ⟨fuel, rfl⟩ := Nat.exists_eq_add_of_le' (Nat.one_le_of_lt enough)
          rw [List.length_cons] at enough
          unfold runes
          rw [List.length_cons]
          cases decoded : decodeRune (byte :: rest) with
          | none =>
              simp only [runesWithin, decoded]
              rw [ih fuel (by omega) rest (by omega)]
              rfl
          | some c =>
              have positive := c.utf8Size_pos
              have shorter : ((byte :: rest).drop c.utf8Size).length ≤ rest.length := by
                rw [List.length_drop, List.length_cons]
                omega
              simp only [runesWithin, decoded]
              rw [ih fuel (by omega) _ (by omega), ih rest.length (by omega) _ shorter]

/-- A byte that starts no character is one error. -/
theorem runes_cons_of_none {byte : UInt8} {rest : Bytes}
    (decoded : decodeRune (byte :: rest) = none) :
    runes (byte :: rest) = none :: runes rest := by
  simp only [runes, List.length_cons, runesWithin, decoded]

/-- A character that was encoded is the next rune. -/
theorem runes_encode_append (c : Char) (rest : Bytes) :
    runes (String.utf8EncodeChar c ++ rest) = some c :: runes rest := by
  have decoded := decodeRune_encode c rest
  have size := String.length_utf8EncodeChar c
  have positive := c.utf8Size_pos
  obtain ⟨byte, more, encoded⟩ : ∃ byte more, String.utf8EncodeChar c = byte :: more :=
    List.exists_cons_of_length_pos (by omega)
  have dropped : (byte :: (more ++ rest)).drop c.utf8Size = rest := by
    rw [← List.cons_append, ← encoded, List.drop_left' size]
  rw [encoded, List.cons_append] at decoded ⊢
  rw [runes, List.length_cons]
  simp only [runesWithin, decoded, dropped]
  rw [runesWithin_eq rest (by simp)]

/-- A byte string is empty, or its first byte starts no character, or it starts with the
encoding of one. -/
@[elab_as_elim]
theorem reading_induction {motive : Bytes → Prop} (nil : motive [])
    (gap : ∀ first rest, decodeRune (first :: rest) = none → motive rest →
      motive (first :: rest))
    (rune : ∀ c rest, motive rest → motive (String.utf8EncodeChar c ++ rest)) (bytes : Bytes) :
    motive bytes := by
  induction length : bytes.length using Nat.strongRecOn generalizing bytes with
  | _ size ih =>
      cases bytes with
      | nil => exact nil
      | cons first rest =>
          rw [List.length_cons] at length
          cases decoded : decodeRune (first :: rest) with
          | none => exact gap first rest decoded (ih rest.length (by omega) rest rfl)
          | some c =>
              have positive := c.utf8Size_pos
              have shorter : ((first :: rest).drop c.utf8Size).length < size := by
                rw [List.length_drop, List.length_cons]
                omega
              rw [eq_of_decodeRune decoded]
              exact rune c _ (ih _ shorter _ rfl)

/-- Reading an encoded list of characters returns it. -/
theorem runes_encodeRunes (chars : List Char) : runes (encodeRunes chars) = chars.map some := by
  induction chars with
  | nil => rfl
  | cons c chars ih =>
      rw [encodeRunes, List.flatMap_cons, runes_encode_append, List.map_cons]
      exact congrArg (some c :: ·) ih

/-- A byte string without gaps is the encoding of the characters read from it. -/
theorem encodeRunes_runes {bytes : Bytes} (valid : validUtf8 bytes = true) :
    encodeRunes ((runes bytes).reduceOption) = bytes := by
  induction bytes using reading_induction with
  | nil => rfl
  | gap first rest unread ih =>
      rw [validUtf8, runes_cons_of_none unread, List.all_cons, Bool.and_eq_true] at valid
      cases valid.1
  | rune c rest ih =>
      rw [validUtf8, runes_encode_append, List.all_cons, Bool.and_eq_true] at valid
      rw [runes_encode_append, List.reduceOption_cons_of_some, encodeRunes, List.flatMap_cons]
      exact congrArg (String.utf8EncodeChar c ++ ·) (ih valid.2)

end Foundation

import Mathlib.Data.List.Basic
import Mathlib.Data.List.Induction
import Mathlib.Tactic.Ring

/-! # Big-endian byte encodings

Byte strings and the fixed-width big-endian encoding of natural numbers. Reading
back a fixed-width encoding returns the number modulo the width's range
(`Foundation.beNat_beBytes`), and encoding the number read from a byte string
returns the byte string (`Foundation.beBytes_beNat`).
-/

namespace Foundation

/-- A byte string. -/
abbrev Bytes := List UInt8

/-- The bytes of an ASCII literal. -/
def ascii (text : String) : Bytes :=
  text.toList.map fun c => UInt8.ofNat c.toNat

/-- The byte between the parts of an address, a name or a token. -/
def dot : UInt8 := 0x2E

/-- What holds of the numbers below a bound holds of the bytes below it. -/
theorem forall_byte_lt {p : UInt8 → Prop} {bound : Nat} (all : ∀ n < bound, p (UInt8.ofNat n))
    {byte : UInt8} (small : byte.toNat < bound) : p byte := by
  have own := all byte.toNat small
  rwa [UInt8.ofNat_toNat] at own

/-- The last `width` base-256 digits of `value`, most significant digit first. -/
def beBytes : Nat → Nat → Bytes
  | 0, _ => []
  | width + 1, value => beBytes width (value / 256) ++ [UInt8.ofNat value]

/-- The number whose base-256 digits are `bytes`, most significant digit first. -/
def beNat (bytes : Bytes) : Nat :=
  bytes.foldl (fun acc byte => acc * 256 + byte.toNat) 0

@[simp] theorem beNat_nil : beNat [] = 0 := rfl

/-- The last byte counts once. -/
theorem beNat_concat (bytes : Bytes) (byte : UInt8) :
    beNat (bytes ++ [byte]) = beNat bytes * 256 + byte.toNat := by
  simp only [beNat, List.foldl_append, List.foldl_cons, List.foldl_nil]

/-- The first byte counts most. -/
theorem beNat_cons (byte : UInt8) (bytes : Bytes) :
    beNat (byte :: bytes) = byte.toNat * 256 ^ bytes.length + beNat bytes := by
  induction bytes using List.reverseRecOn with
  | nil => simp only [beNat, List.foldl_cons, List.foldl_nil, Nat.zero_mul, Nat.zero_add,
      List.length_nil, Nat.pow_zero, Nat.mul_one, Nat.add_zero]
  | append_singleton bytes last ih =>
      rw [← List.cons_append, beNat_concat, beNat_concat, ih, List.length_append,
        List.length_singleton, Nat.pow_succ]
      ring

/-- Bytes are appended as in every positional system. -/
theorem beNat_append (left right : Bytes) :
    beNat (left ++ right) = beNat left * 256 ^ right.length + beNat right := by
  induction left with
  | nil => simp only [List.nil_append, beNat_nil, Nat.zero_mul, Nat.zero_add]
  | cons byte left ih =>
      rw [List.cons_append, beNat_cons, ih, beNat_cons, List.length_append, Nat.pow_add]
      ring

@[simp] theorem length_beBytes (width value : Nat) : (beBytes width value).length = width := by
  induction width generalizing value with
  | zero => rfl
  | succ width ih => simp only [beBytes, List.length_append, ih, List.length_singleton]

/-- A byte string of length `n` encodes a number below `256 ^ n`. -/
theorem beNat_lt (bytes : Bytes) : beNat bytes < 256 ^ bytes.length := by
  induction bytes using List.reverseRecOn with
  | nil => simp only [beNat_nil, List.length_nil, Nat.pow_zero, Nat.lt_one_iff]
  | append_singleton bytes byte ih =>
      have digit : byte.toNat < 256 := byte.toNat_lt
      rw [beNat_concat, List.length_append, List.length_singleton, Nat.pow_succ]
      omega

/-- Reading a fixed-width encoding returns the number modulo the width's range. -/
theorem beNat_beBytes (width value : Nat) : beNat (beBytes width value) = value % 256 ^ width := by
  induction width generalizing value with
  | zero => simp only [beBytes, beNat_nil, Nat.pow_zero, Nat.mod_one]
  | succ width ih =>
      have digit : (UInt8.ofNat value).toNat = value % 256 := UInt8.toNat_ofNat'
      calc beNat (beBytes (width + 1) value)
          = value / 256 % 256 ^ width * 256 + value % 256 := by
            rw [beBytes, beNat_concat, ih, digit]
        _ = value % (256 * 256 ^ width) := by
            rw [Nat.mod_mul]
            ring
        _ = value % 256 ^ (width + 1) := by rw [Nat.pow_succ']

/-- Encoding at the width of a byte string the number it encodes returns it. -/
theorem beBytes_beNat (bytes : Bytes) : beBytes bytes.length (beNat bytes) = bytes := by
  induction bytes using List.reverseRecOn with
  | nil => rfl
  | append_singleton bytes byte ih =>
      have digit : byte.toNat < 256 := byte.toNat_lt
      have quotient : (beNat bytes * 256 + byte.toNat) / 256 = beNat bytes := by omega
      have lastDigit : UInt8.ofNat (beNat bytes * 256 + byte.toNat) = byte := by
        apply UInt8.toNat_inj.mp
        rw [UInt8.toNat_ofNat']
        omega
      rw [beNat_concat, List.length_append, List.length_singleton, beBytes, quotient, ih, lastDigit]

/-- `binary.BigEndian.PutUint64`. -/
def putUint64 (value : UInt64) : Bytes :=
  beBytes 8 value.toNat

/-- `binary.BigEndian.Uint64` on an eight-byte string. -/
def uint64 (bytes : Bytes) : UInt64 :=
  UInt64.ofNat (beNat bytes)

/-- `binary.BigEndian.PutUint16`. -/
def putUint16 (value : UInt16) : Bytes :=
  beBytes 2 value.toNat

/-- `binary.BigEndian.Uint16` on a two-byte string. -/
def uint16 (bytes : Bytes) : UInt16 :=
  UInt16.ofNat (beNat bytes)

/-- `binary.BigEndian.PutUint32`. -/
def putUint32 (value : UInt32) : Bytes :=
  beBytes 4 value.toNat

/-- `binary.BigEndian.Uint32` on a four-byte string. -/
def uint32 (bytes : Bytes) : UInt32 :=
  UInt32.ofNat (beNat bytes)

@[simp] theorem length_putUint64 (value : UInt64) : (putUint64 value).length = 8 :=
  length_beBytes 8 value.toNat

@[simp] theorem length_putUint16 (value : UInt16) : (putUint16 value).length = 2 :=
  length_beBytes 2 value.toNat

@[simp] theorem length_putUint32 (value : UInt32) : (putUint32 value).length = 4 :=
  length_beBytes 4 value.toNat

@[simp] theorem uint64_putUint64 (value : UInt64) : uint64 (putUint64 value) = value := by
  apply UInt64.toNat_inj.mp
  have range : value.toNat < 2 ^ 64 := value.toNat_lt
  rw [uint64, putUint64, beNat_beBytes, UInt64.toNat_ofNat']
  omega

@[simp] theorem uint16_putUint16 (value : UInt16) : uint16 (putUint16 value) = value := by
  apply UInt16.toNat_inj.mp
  have range : value.toNat < 2 ^ 16 := value.toNat_lt
  rw [uint16, putUint16, beNat_beBytes, UInt16.toNat_ofNat']
  omega

@[simp] theorem uint32_putUint32 (value : UInt32) : uint32 (putUint32 value) = value := by
  apply UInt32.toNat_inj.mp
  have range : value.toNat < 2 ^ 32 := value.toNat_lt
  rw [uint32, putUint32, beNat_beBytes, UInt32.toNat_ofNat']
  omega

/-- A number is determined by its bytes. -/
theorem putUint64_injective : Function.Injective putUint64 :=
  Function.LeftInverse.injective uint64_putUint64

/-- Every eight-byte string is the encoding of the word it reads as. -/
theorem putUint64_uint64 (bytes : Bytes) (eight : bytes.length = 8) :
    putUint64 (uint64 bytes) = bytes := by
  have range : beNat bytes < 2 ^ 64 := by
    have bound := beNat_lt bytes
    rw [eight] at bound
    exact bound
  have word : (UInt64.ofNat (beNat bytes)).toNat = beNat bytes := by
    rw [UInt64.toNat_ofNat']
    exact Nat.mod_eq_of_lt range
  rw [putUint64, uint64, word, ← eight, beBytes_beNat]

/-- Every two-byte string is the encoding of the half-word it reads as. -/
theorem putUint16_uint16 (bytes : Bytes) (two : bytes.length = 2) :
    putUint16 (uint16 bytes) = bytes := by
  have range : beNat bytes < 2 ^ 16 := by
    have bound := beNat_lt bytes
    rw [two] at bound
    exact bound
  have word : (UInt16.ofNat (beNat bytes)).toNat = beNat bytes := by
    rw [UInt16.toNat_ofNat']
    exact Nat.mod_eq_of_lt range
  rw [putUint16, uint16, word, ← two, beBytes_beNat]

/-- Every four-byte string is the encoding of the word it reads as. -/
theorem putUint32_uint32 (bytes : Bytes) (four : bytes.length = 4) :
    putUint32 (uint32 bytes) = bytes := by
  have range : beNat bytes < 2 ^ 32 := by
    have bound := beNat_lt bytes
    rw [four] at bound
    exact bound
  have word : (UInt32.ofNat (beNat bytes)).toNat = beNat bytes := by
    rw [UInt32.toNat_ofNat']
    exact Nat.mod_eq_of_lt range
  rw [putUint32, uint32, word, ← four, beBytes_beNat]

end Foundation

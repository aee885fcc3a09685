import P2pMesh.Foundation.BigEndian
import Mathlib.Data.Nat.Bitwise

/-! # Slices and masks of byte strings

Slice expressions with their bounds, where `none` is an access out of range, and the words
read from the front of a slice. A slice of a string that begins with known parts is one of
the parts (`Foundation.slice_append`). The last section has byte strings under a mask: the
word read from a masked string is the word under the masking word
(`Foundation.uint32_xorBytes`). `Foundation.Makes` says when a slice can be made at all.
-/

namespace Foundation

/-- `data[lo:hi]`. -/
def slice (data : Bytes) (lo hi : Nat) : Option Bytes :=
  if lo ≤ hi ∧ hi ≤ data.length then some ((data.take hi).drop lo) else none

/-- `data[lo:]`. -/
def sliceFrom (data : Bytes) (lo : Nat) : Option Bytes :=
  slice data lo data.length

/-- `binary.BigEndian.Uint16`, which reads the first two bytes of a slice. -/
def readUint16 (data : Bytes) : Option UInt16 :=
  (slice data 0 2).map uint16

/-- `binary.BigEndian.Uint32`, which reads the first four bytes of a slice. -/
def readUint32 (data : Bytes) : Option UInt32 :=
  (slice data 0 4).map uint32

/-- `make([]T, 0, capacity)` returns for elements of `size` bytes. It panics for a negative
capacity, and for one of more than `maxAlloc` bytes, the largest piece of memory that the
runtime of a platform hands out. -/
def Makes (maxAlloc size : Nat) (capacity : Int) : Prop :=
  0 ≤ capacity ∧ size * capacity ≤ maxAlloc

/-- The limit on the platforms whose addresses have 48 bits. -/
def maxAlloc48 : Nat := 2 ^ 48

instance (maxAlloc size : Nat) (capacity : Int) : Decidable (Makes maxAlloc size capacity) :=
  inferInstanceAs (Decidable (_ ∧ _))

section Bounds

variable {data : Bytes} {lo hi : Nat}

/-- A slice within bounds does not panic. -/
theorem slice_eq_some (ordered : lo ≤ hi) (inside : hi ≤ data.length) :
    slice data lo hi = some ((data.take hi).drop lo) :=
  if_pos ⟨ordered, inside⟩

/-- A slice to the end, within bounds, does not panic. -/
theorem sliceFrom_eq_some (inside : lo ≤ data.length) :
    sliceFrom data lo = some (data.drop lo) := by
  rw [sliceFrom, slice_eq_some inside (Nat.le_refl _), List.take_length]

/-- Two bytes are enough for a word. -/
theorem readUint16_eq_some (enough : 2 ≤ data.length) :
    readUint16 data = some (uint16 (data.take 2)) := by
  rw [readUint16, slice_eq_some (Nat.zero_le _) enough]
  rfl

/-- Four bytes are enough for a double word. -/
theorem readUint32_eq_some (enough : 4 ≤ data.length) :
    readUint32 data = some (uint32 (data.take 4)) := by
  rw [readUint32, slice_eq_some (Nat.zero_le _) enough]
  rfl

/-- A half-word inside a slice is in range. -/
theorem readUint16_slice (ordered : lo + 2 ≤ hi) (inside : hi ≤ data.length) :
    ∃ word, (slice data lo hi).bind readUint16 = some word := by
  have enough : 2 ≤ ((data.take hi).drop lo).length := by
    rw [List.length_drop, List.length_take]
    omega
  rw [slice_eq_some (by omega) inside, Option.bind_some, readUint16_eq_some enough]
  exact ⟨_, rfl⟩

/-- A slice of four bytes is enough for a double word. -/
theorem readUint32_slice (ordered : lo + 4 ≤ hi) (inside : hi ≤ data.length) :
    ∃ word, (slice data lo hi).bind readUint32 = some word := by
  have enough : 4 ≤ ((data.take hi).drop lo).length := by
    rw [List.length_drop, List.length_take]
    omega
  rw [slice_eq_some (by omega) inside, Option.bind_some, readUint32_eq_some enough]
  exact ⟨_, rfl⟩

/-- The middle part of a string. -/
theorem slice_append (before part after : Bytes) (start : before.length = lo)
    (stop : before.length + part.length = hi) :
    slice (before ++ (part ++ after)) lo hi = some part := by
  have inside : hi ≤ (before ++ part ++ after).length := by
    rw [List.length_append, List.length_append, stop]
    exact Nat.le_add_right _ _
  rw [← List.append_assoc, slice_eq_some (by omega) inside,
    List.take_left' (by rw [List.length_append, stop]), List.drop_left' start]

/-- A slice from behind a part is what follows it. -/
theorem sliceFrom_append (before rest : Bytes) (start : before.length = lo) :
    sliceFrom (before ++ rest) lo = some rest := by
  have inside : lo ≤ (before ++ rest).length := by
    rw [List.length_append, start]
    exact Nat.le_add_right _ _
  rw [sliceFrom_eq_some inside, List.drop_left' start]

/-- A word is read back, whatever follows. -/
theorem readUint16_append (word : UInt16) (rest : Bytes) :
    readUint16 (putUint16 word ++ rest) = some word := by
  rw [readUint16_eq_some (by simp), List.take_left' (length_putUint16 word), uint16_putUint16]

end Bounds

section Masks

/-- The bytes of a string under those of a mask. -/
def xorBytes (bytes mask : Bytes) : Bytes :=
  List.zipWith (· ^^^ ·) bytes mask

theorem length_xorBytes (bytes mask : Bytes) :
    (xorBytes bytes mask).length = min bytes.length mask.length :=
  List.length_zipWith

/-- Only as much of the mask counts as there are bytes. -/
theorem xorBytes_take (bytes mask : Bytes) :
    xorBytes bytes mask = xorBytes bytes (mask.take bytes.length) := by
  induction bytes generalizing mask with
  | nil => rfl
  | cons byte bytes ih =>
      cases mask with
      | nil => rfl
      | cons first mask => exact congrArg (List.cons (byte ^^^ first)) (ih mask)

/-- The mask is applied part by part. -/
theorem xorBytes_append {bytes mask : Bytes} (same : bytes.length = mask.length)
    (bytes' mask' : Bytes) :
    xorBytes (bytes ++ bytes') (mask ++ mask') = xorBytes bytes mask ++ xorBytes bytes' mask' :=
  List.zipWith_append same

/-- One more digit under a mask. -/
theorem digit_xor (high high' : Nat) {low low' : Nat} (digit : low < 256) (digit' : low' < 256) :
    (high * 256 + low) ^^^ (high' * 256 + low') = (high ^^^ high') * 256 + (low ^^^ low') := by
  have quotient : ((high * 256 + low) ^^^ (high' * 256 + low')) / 2 ^ 8 = high ^^^ high' := by
    rw [Nat.xor_div_two_pow]
    congr 1 <;> omega
  have rest : ((high * 256 + low) ^^^ (high' * 256 + low')) % 2 ^ 8 = low ^^^ low' := by
    rw [Nat.xor_mod_two_pow]
    congr 1 <;> omega
  omega

/-- Masking bytes masks their number. -/
theorem beNat_xorBytes {bytes mask : Bytes} (same : bytes.length = mask.length) :
    beNat (xorBytes bytes mask) = beNat bytes ^^^ beNat mask := by
  induction bytes using List.reverseRecOn generalizing mask with
  | nil =>
      rw [List.eq_nil_of_length_eq_zero same.symm]
      rfl
  | append_singleton bytes byte ih =>
      cases mask using List.reverseRecOn with
      | nil => simp at same
      | append_singleton mask last =>
          have shorter : bytes.length = mask.length := by simpa using same
          rw [beNat_concat, beNat_concat, digit_xor _ _ byte.toNat_lt last.toNat_lt, ← ih shorter,
            ← UInt8.toNat_xor, ← beNat_concat, xorBytes_append shorter]
          rfl

/-- Masking bytes masks their word. -/
theorem uint16_xorBytes {bytes mask : Bytes} (same : bytes.length = mask.length) :
    uint16 (xorBytes bytes mask) = uint16 bytes ^^^ uint16 mask := by
  rw [uint16, beNat_xorBytes same, UInt16.ofNat_xor]
  rfl

/-- Masking bytes masks their double word. -/
theorem uint32_xorBytes {bytes mask : Bytes} (same : bytes.length = mask.length) :
    uint32 (xorBytes bytes mask) = uint32 bytes ^^^ uint32 mask := by
  rw [uint32, beNat_xorBytes same, UInt32.ofNat_xor]
  rfl

/-- Only the mask of zeros leaves a string as it is. -/
theorem xorBytes_eq_self_iff {bytes mask : Bytes} (same : bytes.length = mask.length) :
    xorBytes bytes mask = bytes ↔ mask = List.replicate mask.length 0 := by
  induction bytes generalizing mask with
  | nil => simp [xorBytes, List.eq_nil_of_length_eq_zero same.symm]
  | cons byte bytes ih =>
      cases mask with
      | nil => simp at same
      | cons first mask =>
          have shorter : bytes.length = mask.length := by simpa using same
          have keeps : byte ^^^ first = byte ↔ first = 0 := by
            constructor
            · intro kept
              have cancelled : byte ^^^ (byte ^^^ first) = byte ^^^ byte := by rw [kept]
              rwa [← UInt8.xor_assoc, UInt8.xor_self, UInt8.zero_xor] at cancelled
            · intro zero
              rw [zero, UInt8.xor_zero]
          simp only [xorBytes, List.zipWith_cons_cons, List.cons.injEq, List.length_cons,
            List.replicate_succ, keeps]
          rw [← xorBytes, ih shorter]

end Masks

end Foundation

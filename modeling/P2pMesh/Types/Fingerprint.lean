import P2pMesh.Foundation.Base32
import P2pMesh.Foundation.CaseMap
import P2pMesh.Foundation.Sha256
import P2pMesh.Foundation.Slice
import P2pMesh.Types.NodeID

/-! # Node IDs of fingerprints

`NewNodeIDFromFingerprint`, `formatSegments` and `NodeID.Raw` of `pkg/types/id.go`. The
loop of `formatSegments` cuts a string into the segments it has bytes for
(`P2pMesh.flatten_segmentLoop`, `P2pMesh.map_length_segmentLoop`). An ID that is derived
from a fingerprint is valid, has the canonical segments, and stands for the first 130 bits
of the hash (`P2pMesh.newNodeIDFromFingerprint_canonical`).
-/

namespace P2pMesh

open Foundation

/-- The loop of `formatSegments`, from the position where the next segment starts. -/
def segmentLoop (raw : Bytes) : List Nat → Nat → List Bytes
  | [], _ => []
  | n :: rest, pos =>
      if raw.length ≤ pos then []
      else
        let stop := if raw.length < pos + n then raw.length else pos + n
        (raw.take stop).drop pos :: segmentLoop raw rest stop

/-- The segments of the canonical form. -/
def segmentLengths : List Nat := [8, 4, 4, 4, 6]

/-- `formatSegments`, with `strings.Join` of the parts. -/
def formatSegments (raw : Bytes) : Bytes :=
  [dash].intercalate (segmentLoop raw segmentLengths 0)

/-- `NewNodeIDFromFingerprint`; `none` is a slice of the encoding out of range. -/
def newNodeIDFromFingerprint (sha256 : Bytes → Sha256.Digest) (m : CaseMap)
    (fingerprint : Bytes) : Option Bytes :=
  let hash := sha256 fingerprint
  let encoded := m.toLower (Base32.encode hash.val)
  (slice encoded 0 26).map formatSegments

/-- `NodeID.Raw`. -/
def rawNodeID (u : UpperMap) (id : Bytes) : Bytes :=
  u.toUpper (withoutDashes id)

section Segments

/-- The segments are the bytes behind the position, as far as the lengths reach. -/
theorem flatten_segmentLoop (raw : Bytes) (segments : List Nat) (pos : Nat) :
    (segmentLoop raw segments pos).flatten = (raw.drop pos).take segments.sum := by
  induction segments generalizing pos with
  | nil => rfl
  | cons n rest ih =>
      by_cases finished : raw.length ≤ pos
      · rw [segmentLoop, if_pos finished, List.drop_eq_nil_of_le finished, List.take_nil]
        rfl
      rw [segmentLoop, if_neg finished, List.sum_cons]
      by_cases clipped : raw.length < pos + n
      · -- The segment takes all that is left, and the loop stops behind it.
        rw [if_pos clipped, List.flatten_cons, ih, List.drop_length, List.take_nil,
          List.append_nil, List.take_length, List.take_of_length_le]
        rw [List.length_drop]
        omega
      · rw [if_neg clipped, List.flatten_cons, ih, List.drop_take, Nat.add_sub_cancel_left,
          List.take_add, List.drop_drop]

/-- A segment has bytes of the raw text only. -/
theorem mem_of_mem_segmentLoop {raw : Bytes} {segments : List Nat} {pos : Nat} {segment : Bytes}
    (listed : segment ∈ segmentLoop raw segments pos) {byte : UInt8} (inside : byte ∈ segment) :
    byte ∈ raw := by
  have member : byte ∈ (segmentLoop raw segments pos).flatten :=
    List.mem_flatten.mpr ⟨segment, listed, inside⟩
  rw [flatten_segmentLoop] at member
  exact List.mem_of_mem_drop (List.mem_of_mem_take member)

/-- Where there are bytes for all segments, they have the lengths asked for. -/
theorem map_length_segmentLoop {raw : Bytes} {segments : List Nat} {pos : Nat}
    (positive : ∀ n ∈ segments, 0 < n) (fits : pos + segments.sum ≤ raw.length) :
    (segmentLoop raw segments pos).map List.length = segments := by
  induction segments generalizing pos with
  | nil => rfl
  | cons n rest ih =>
      have first := positive n List.mem_cons_self
      rw [List.sum_cons] at fits
      have unfinished : ¬ raw.length ≤ pos := by omega
      have whole : ¬ raw.length < pos + n := by omega
      have later : (segmentLoop raw rest (pos + n)).map List.length = rest :=
        ih (fun other member => positive other (List.mem_cons_of_mem n member)) (by omega)
      rw [segmentLoop, if_neg unfinished, if_neg whole, List.map_cons, later, List.length_drop,
        List.length_take, Nat.min_eq_left (by omega), Nat.add_sub_cancel_left]

/-- No segment is empty. -/
theorem nil_not_mem_segmentLoop {raw : Bytes} {segments : List Nat}
    (positive : ∀ n ∈ segments, 0 < n) (pos : Nat) : [] ∉ segmentLoop raw segments pos := by
  induction segments generalizing pos with
  | nil => exact List.not_mem_nil
  | cons n rest ih =>
      have first := positive n List.mem_cons_self
      by_cases finished : raw.length ≤ pos
      · rw [segmentLoop, if_pos finished]
        exact List.not_mem_nil
      rw [segmentLoop, if_neg finished, List.mem_cons, not_or]
      refine ⟨fun empty => ?_, ih (fun other member =>
        positive other (List.mem_cons_of_mem n member)) _⟩
      have length := congrArg List.length empty
      rw [List.length_nil, List.length_drop, List.length_take] at length
      split at length <;> omega

/-- Joining parts with dashes adds nothing but dashes. -/
theorem withoutDashes_intercalate (parts : List Bytes) :
    withoutDashes ([dash].intercalate parts) = withoutDashes parts.flatten := by
  induction parts with
  | nil => rfl
  | cons part rest ih =>
      cases rest with
      | nil => simp [List.intercalate]
      | cons next rest =>
          have joined : [dash].intercalate (part :: next :: rest) =
              part ++ [dash] ++ [dash].intercalate (next :: rest) := by
            simp [List.intercalate]
          have alone : withoutDashes [dash] = [] := by decide
          rw [joined, List.flatten_cons]
          simp only [withoutDashes, List.filter_append] at ih alone ⊢
          rw [ih, alone, List.append_nil]

theorem segmentLengths_positive : ∀ n ∈ segmentLengths, 0 < n := by
  decide

variable {raw : Bytes}

/-- The groups of a formatted ID are the segments. -/
theorem splitOn_formatSegments (nonempty : raw ≠ []) (free : dash ∉ raw) :
    (formatSegments raw).splitOn dash = segmentLoop raw segmentLengths 0 := by
  apply List.splitOn_intercalate
  · intro segment listed inside
    exact free (mem_of_mem_segmentLoop listed inside)
  · intro none
    have whole := flatten_segmentLoop raw segmentLengths 0
    rw [none, List.flatten_nil, List.drop_zero, eq_comm, List.take_eq_nil_iff] at whole
    exact nonempty (whole.resolve_left (by decide))

/-- Formatting loses nothing of the first 26 bytes. -/
theorem withoutDashes_formatSegments (free : dash ∉ raw) :
    withoutDashes (formatSegments raw) = raw.take 26 := by
  rw [formatSegments, withoutDashes_intercalate, flatten_segmentLoop, List.drop_zero]
  exact withoutDashes_eq_self fun member => free (List.mem_of_mem_take member)

/-- A string of letters and digits is formatted as a valid ID if it is long enough. -/
theorem validateNodeID_formatSegments (all : ∀ byte ∈ raw, isIDByte byte = true)
    (enough : minIDLen ≤ raw.length) : validateNodeID (formatSegments raw) = .ok () := by
  have free := dash_not_mem_of_isIDByte all
  have nonempty : raw ≠ [] := List.ne_nil_of_length_pos (Nat.lt_of_lt_of_le (by decide) enough)
  have pattern : nodeIDPattern (formatSegments raw) = true := by
    rw [nodeIDPattern, splitOn_formatSegments nonempty free, List.all_eq_true]
    intro segment listed
    have filled : segment ≠ [] := ne_of_mem_of_not_mem listed
      (nil_not_mem_segmentLoop segmentLengths_positive 0)
    rw [Bool.and_eq_true, Bool.not_eq_true', List.isEmpty_eq_false_iff, List.all_eq_true]
    exact ⟨filled, fun byte inside => all byte (mem_of_mem_segmentLoop listed inside)⟩
  rw [validateNodeID_eq_ok_iff, withoutDashes_formatSegments free, List.length_take]
  simp only [minIDLen, maxIDLen] at enough ⊢
  exact ⟨pattern, by omega, by omega⟩

end Segments

section Derived

/-- The class `[a-z2-7]`. -/
def isSegmentByte (byte : UInt8) : Bool :=
  (97 ≤ byte && byte ≤ 122) || (50 ≤ byte && byte ≤ 55)

/-- The first bits of a digest, as a number. -/
def leadingBits (count : Nat) (d : Sha256.Digest) : Nat :=
  beNat d.val / 2 ^ (256 - count)

/-- A base32 digit in lower case. -/
theorem lowerByte_of_isDigit {byte : UInt8} (digit : Base32.isDigit byte = true) :
    isSegmentByte (CaseMap.lowerByte byte) = true ∧
      UpperMap.upperByte (CaseMap.lowerByte byte) = byte := by
  refine forall_byte_lt (p := fun byte => Base32.isDigit byte = true →
    isSegmentByte (CaseMap.lowerByte byte) = true ∧
      UpperMap.upperByte (CaseMap.lowerByte byte) = byte) ?_ byte.toNat_lt digit
  decide +kernel

/-- The bytes of segments are allowed in an ID. -/
theorem isIDByte_of_isSegmentByte {byte : UInt8} (member : isSegmentByte byte = true) :
    byte < 128 ∧ isIDByte byte = true := by
  refine forall_byte_lt (p := fun byte => isSegmentByte byte = true →
    byte < 128 ∧ isIDByte byte = true) ?_ byte.toNat_lt member
  decide +kernel

/-- The characters an ID is made of. -/
def idCharacters (d : Sha256.Digest) : Bytes :=
  ((Base32.encode d.val).take 26).map CaseMap.lowerByte

theorem length_take_encode (d : Sha256.Digest) : ((Base32.encode d.val).take 26).length = 26 := by
  rw [Base32.take_encode (by rw [d.property]; decide), List.length_map, List.length_take,
    Base32.length_values, d.property]
  rfl

/-- An ID is made of 26 characters. -/
theorem length_idCharacters (d : Sha256.Digest) : (idCharacters d).length = 26 := by
  rw [idCharacters, List.length_map, length_take_encode]

/-- The characters of an ID are bytes of segments. -/
theorem isSegmentByte_of_mem_idCharacters {d : Sha256.Digest} {byte : UInt8}
    (member : byte ∈ idCharacters d) : isSegmentByte byte = true := by
  obtain ⟨digit, listed, rfl⟩ := List.mem_map.mp member
  have isDigit := Base32.isDigit_of_mem_take_encode (by rw [d.property]; decide) listed
  exact (lowerByte_of_isDigit isDigit).1

/-- The characters of an ID have no dash among them. -/
theorem dash_not_mem_idCharacters (d : Sha256.Digest) : dash ∉ idCharacters d := by
  intro member
  exact absurd (isSegmentByte_of_mem_idCharacters member) (by decide)

/-- The encoding is long enough for the slice, and is lower-cased byte by byte. -/
theorem newNodeIDFromFingerprint_eq (sha256 : Bytes → Sha256.Digest) (m : CaseMap)
    (fingerprint : Bytes) :
    newNodeIDFromFingerprint sha256 m fingerprint =
      some (formatSegments (idCharacters (sha256 fingerprint))) := by
  have enough := length_take_encode (sha256 fingerprint)
  rw [List.length_take] at enough
  have ascii : ∀ byte ∈ Base32.encode (sha256 fingerprint).val, byte < 128 :=
    fun _ => Base32.lt_of_mem_encode
  rw [newNodeIDFromFingerprint, m.toLower_eq_map ascii, slice_eq_some (Nat.zero_le _) (by
    rw [List.length_map]
    omega), List.drop_zero, ← List.map_take, Option.map_some]
  rfl

/-- In upper case and without dashes an ID is the start of the encoding. -/
theorem rawNodeID_formatSegments (u : UpperMap) (d : Sha256.Digest) :
    rawNodeID u (formatSegments (idCharacters d)) = (Base32.encode d.val).take 26 := by
  have small : ∀ byte ∈ idCharacters d, byte < 128 := fun byte member =>
    (isIDByte_of_isSegmentByte (isSegmentByte_of_mem_idCharacters member)).1
  rw [rawNodeID, withoutDashes_formatSegments (dash_not_mem_idCharacters d),
    List.take_of_length_le (Nat.le_of_eq (length_idCharacters d)), u.toUpper_eq_map small,
    idCharacters, List.map_map, List.map_congr_left (g := id), List.map_id]
  intro digit listed
  have isDigit := Base32.isDigit_of_mem_take_encode (by rw [d.property]; decide) listed
  exact (lowerByte_of_isDigit isDigit).2

/-- Two digests give the same ID just when their first 130 bits agree. -/
theorem formatSegments_idCharacters_eq_iff (left right : Sha256.Digest) :
    formatSegments (idCharacters left) = formatSegments (idCharacters right) ↔
      leadingBits 130 left = leadingBits 130 right := by
  have length : left.val.length = right.val.length := left.property.trans right.property.symm
  have inside : 5 * 26 ≤ 8 * left.val.length := by
    rw [left.property]
    decide
  have bits := Base32.take_encode_eq_iff length inside
  rw [left.property, right.property] at bits
  rw [leadingBits, leadingBits, ← bits]
  constructor
  · intro same
    rw [← rawNodeID_formatSegments .ascii left, same, rawNodeID_formatSegments]
  · intro same
    rw [idCharacters, same, idCharacters]

/-- An ID derived from a fingerprint is valid and has the canonical segments, its raw form
is the start of the base32 encoding of the hash, and it is the ID of just the fingerprints
whose hashes begin with the same 130 bits. -/
theorem newNodeIDFromFingerprint_canonical (sha256 : Bytes → Sha256.Digest) (m : CaseMap)
    (u : UpperMap) (fingerprint : Bytes) :
    ∃ id, newNodeIDFromFingerprint sha256 m fingerprint = some id ∧
      validateNodeID id = .ok () ∧
      (id.splitOn dash).map List.length = [8, 4, 4, 4, 6] ∧
      (∀ segment ∈ id.splitOn dash, ∀ byte ∈ segment, isSegmentByte byte = true) ∧
      rawNodeID u id = (Base32.encode (sha256 fingerprint).val).take 26 ∧
      ∀ other, newNodeIDFromFingerprint sha256 m other = some id ↔
        leadingBits 130 (sha256 other) = leadingBits 130 (sha256 fingerprint) := by
  have length := length_idCharacters (sha256 fingerprint)
  have nonempty : idCharacters (sha256 fingerprint) ≠ [] :=
    List.ne_nil_of_length_pos (by rw [length]; decide)
  have groups := splitOn_formatSegments nonempty
    (dash_not_mem_idCharacters (sha256 fingerprint))
  refine ⟨_, newNodeIDFromFingerprint_eq sha256 m fingerprint, ?_, ?_, ?_,
    rawNodeID_formatSegments u _, fun other => ?_⟩
  · apply validateNodeID_formatSegments
    · intro byte member
      exact (isIDByte_of_isSegmentByte (isSegmentByte_of_mem_idCharacters member)).2
    · rw [length]
      decide
  · rw [groups, map_length_segmentLoop segmentLengths_positive (by rw [length]; decide)]
    rfl
  · rw [groups]
    intro segment listed byte inside
    exact isSegmentByte_of_mem_idCharacters (mem_of_mem_segmentLoop listed inside)
  · rw [newNodeIDFromFingerprint_eq, Option.some_inj, formatSegments_idCharacters_eq_iff]

end Derived

end P2pMesh

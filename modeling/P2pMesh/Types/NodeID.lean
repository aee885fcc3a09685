import P2pMesh.Foundation.NetAddr
import P2pMesh.Foundation.Parts

/-! # Node IDs

`NodeID.Validate` of `pkg/types/id.go`. The pattern is modelled by the groups between the
dashes; `P2pMesh.nodeIDPattern_iff` gives it by the bytes of an ID and the places of its
dashes, as the source documents it.
-/

namespace P2pMesh

open Foundation

/-- The errors of `NodeID.Validate`. -/
inductive NodeIDError where
  | empty
  | pattern (id : Bytes)
  | rawLength (length : Nat)
deriving DecidableEq

/-- The text of an error, with the verbs of its arguments. -/
def NodeIDError.format : NodeIDError → String
  | .empty => "node id is empty"
  | .pattern _ => "node id %q contains invalid characters or dash placement"
  | .rawLength _ => "node id raw length %d out of range [%d,%d]"

/-- The fewest characters of an ID, dashes apart. -/
def minIDLen : Nat := 16

/-- The most characters of an ID, dashes apart. -/
def maxIDLen : Nat := 52

/-- The byte between the segments of an ID. -/
def dash : UInt8 := 45

/-- The class `[a-z0-9]`. -/
def isIDByte (byte : UInt8) : Bool :=
  (97 ≤ byte && byte ≤ 122) || (48 ≤ byte && byte ≤ 57)

/-- `nodeIDPattern.MatchString`: groups of letters and digits joined by single dashes. -/
def nodeIDPattern (id : Bytes) : Bool :=
  (id.splitOn dash).all fun group => !group.isEmpty && group.all isIDByte

/-- `strings.ReplaceAll(id, "-", "")`. -/
def withoutDashes (id : Bytes) : Bytes :=
  id.filter (· ≠ dash)

/-- `NodeID.Validate`. -/
def validateNodeID (id : Bytes) : Except NodeIDError Unit :=
  if id = [] then .error .empty
  else if !nodeIDPattern id then .error (.pattern id)
  else if (withoutDashes id).length < minIDLen ∨ maxIDLen < (withoutDashes id).length then
    .error (.rawLength (withoutDashes id).length)
  else .ok ()

/-- The bytes of an ID are in lower case. -/
theorem lower_of_isIDByte {byte : UInt8} (valid : isIDByte byte = true) :
    byte < 128 ∧ (Char.ofNat byte.toNat).isUpper = false := by
  refine forall_byte_lt (p := fun byte => isIDByte byte = true →
    byte < 128 ∧ (Char.ofNat byte.toNat).isUpper = false) ?_ byte.toNat_lt valid
  decide +kernel

/-- The pattern by the bytes of an ID: letters and digits, and dashes that are not first,
not last and not next to each other. -/
theorem nodeIDPattern_iff (id : Bytes) :
    nodeIDPattern id = true ↔
      id ≠ [] ∧ id.head? ≠ some dash ∧ id.getLast? ≠ some dash ∧ id.IsChain (Apart dash) ∧
        ∀ byte ∈ id, byte = dash ∨ isIDByte byte = true := by
  have groups : nodeIDPattern id = true ↔
      [] ∉ id.splitOn dash ∧ ∀ group ∈ id.splitOn dash, ∀ byte ∈ group, isIDByte byte = true := by
    simp only [nodeIDPattern, List.all_eq_true, Bool.and_eq_true, Bool.not_eq_true',
      List.isEmpty_eq_false_iff, ne_eq, forall₂_and]
    exact and_congr_left fun _ => List.forall_mem_ne'
  have bytes : (∀ group ∈ id.splitOn dash, ∀ byte ∈ group, isIDByte byte = true) ↔
      ∀ byte ∈ id, byte = dash ∨ isIDByte byte = true := by
    constructor
    · intro all byte member
      have joined : [dash].intercalate (id.splitOn dash) = id := List.intercalate_splitOn dash
      rw [← joined] at member
      rcases NetAddr.mem_intercalate member with separator | ⟨group, listed, inside⟩
      · exact Or.inl separator
      · exact Or.inr (all group listed byte inside)
    · intro all group listed byte inside
      obtain ⟨sublist, free⟩ := sublist_of_mem_splitOn listed
      apply (all byte (sublist.subset inside)).resolve_left
      exact ne_of_mem_of_not_mem inside free
  rw [groups, bytes, nil_mem_splitOn_iff]
  simp only [not_or, not_not, and_assoc, ne_eq]

/-- An ID made of two parts with a dash between them. -/
theorem nodeIDPattern_append_dash (left right : Bytes) :
    nodeIDPattern (left ++ dash :: right) = (nodeIDPattern left && nodeIDPattern right) := by
  rw [nodeIDPattern, List.splitOn_append_cons_self, List.all_append]
  rfl

/-- An ID is valid exactly when it matches the pattern and its raw length is in range. -/
theorem validateNodeID_eq_ok_iff (id : Bytes) :
    validateNodeID id = .ok () ↔ nodeIDPattern id = true ∧
      minIDLen ≤ (withoutDashes id).length ∧ (withoutDashes id).length ≤ maxIDLen := by
  by_cases empty : id = []
  · have mismatch : nodeIDPattern [] = false := rfl
    simp only [validateNodeID, empty, mismatch, ↓reduceIte, reduceCtorEq, Bool.false_eq_true,
      false_and]
  · cases pattern : nodeIDPattern id with
    | false =>
        simp only [validateNodeID, empty, pattern, ↓reduceIte, Bool.not_false, reduceCtorEq,
          Bool.false_eq_true, false_and]
    | true =>
        simp only [validateNodeID, empty, pattern, ↓reduceIte, Bool.not_true, Bool.false_eq_true,
          true_and]
        split
        next outside => exact iff_of_false (fun valid => by cases valid) (by omega)
        next inside => exact iff_of_true rfl (by omega)

/-- A valid ID matches the pattern. -/
theorem nodeIDPattern_of_validateNodeID {id : Bytes} (valid : validateNodeID id = .ok ()) :
    nodeIDPattern id = true :=
  ((validateNodeID_eq_ok_iff id).mp valid).1

/-- A text without dashes is left as it is. -/
theorem withoutDashes_eq_self {id : Bytes} (free : dash ∉ id) : withoutDashes id = id := by
  refine List.filter_eq_self.mpr fun byte member => decide_eq_true ?_
  exact ne_of_mem_of_not_mem member free

/-- The bytes of an ID have no dash among them. -/
theorem dash_not_mem_of_isIDByte {id : Bytes} (all : ∀ byte ∈ id, isIDByte byte = true) :
    dash ∉ id := by
  intro member
  exact absurd (all dash member) (by decide)

/-- A valid ID has letters, digits and dashes only. -/
theorem byte_of_validateNodeID {id : Bytes} (valid : validateNodeID id = .ok ()) {byte : UInt8}
    (member : byte ∈ id) : byte = dash ∨ isIDByte byte = true :=
  ((nodeIDPattern_iff id).mp (nodeIDPattern_of_validateNodeID valid)).2.2.2.2 byte member

/-- A single group of letters and digits is valid if its length is. -/
theorem validateNodeID_of_isIDByte {id : Bytes} (all : ∀ byte ∈ id, isIDByte byte = true)
    (atLeast : minIDLen ≤ id.length) (atMost : id.length ≤ maxIDLen) :
    validateNodeID id = .ok () := by
  have nonempty : id ≠ [] := List.ne_nil_of_length_pos (Nat.lt_of_lt_of_le (by decide) atLeast)
  have noDash := dash_not_mem_of_isIDByte all
  rw [validateNodeID_eq_ok_iff, withoutDashes_eq_self noDash]
  refine ⟨?_, atLeast, atMost⟩
  rw [nodeIDPattern, List.splitOn_eq_singleton noDash, List.all_cons, List.all_nil, Bool.and_true,
    Bool.and_eq_true, List.all_eq_true]
  exact ⟨by simp [nonempty], all⟩

end P2pMesh

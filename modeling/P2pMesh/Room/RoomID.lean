import P2pMesh.Room.Manager
import P2pMesh.Types.NodeID

/-! # The IDs of rooms

A room ID is documented to follow the character rules of node IDs. `CreateRoom` makes it
from the name by `sanitizeID`, which turns every hyphen, underscore and space into a dash of
its own and drops the bytes it does not know. The ID follows the rules exactly when, among
the bytes that are kept, the separators are neither first nor last nor next to each other
(`P2pMesh.RoomManager.nodeIDPattern_createRoom_iff`).
-/

namespace P2pMesh

open Foundation

namespace RoomManager

/-- The bytes that `sanitizeID` turns into dashes: `-`, `_` and the space. -/
def isSeparator (c : UInt8) : Bool :=
  c = 0x2d || c = 0x5f || c = 0x20

/-- The bytes of a name that `sanitizeID` does not drop. -/
def significant (name : Bytes) : Bytes :=
  name.filter fun c => (sanitizeByte c).isSome

/-- No significant byte of the name that is a separator is the first or the last one or next
to another. -/
def SeparatorsInside (name : Bytes) : Prop :=
  (∀ c ∈ (significant name).head?, isSeparator c = false) ∧
    (∀ c ∈ (significant name).getLast?, isSeparator c = false) ∧
      (significant name).IsChain fun left right =>
        ¬ (isSeparator left = true ∧ isSeparator right = true)

instance (name : Bytes) : Decidable (SeparatorsInside name) :=
  @instDecidableAnd _ _ (Option.decidableForallMem _)
    (@instDecidableAnd _ _ (Option.decidableForallMem _) inferInstance)

/-- The byte that a significant byte becomes. -/
def sanitized (c : UInt8) : UInt8 :=
  (sanitizeByte c).getD 0

/-- `sanitizeID` maps the significant bytes and drops the others. -/
theorem filterMap_sanitizeByte (name : Bytes) :
    name.filterMap sanitizeByte = (significant name).map sanitized := by
  induction name with
  | nil => rfl
  | cons c name ih =>
      unfold significant at ih ⊢
      cases kept : sanitizeByte c with
      | none => rw [List.filterMap_cons_none kept, ih, List.filter_cons_of_neg (by simp [kept])]
      | some byte =>
          rw [List.filterMap_cons_some kept, ih, List.filter_cons_of_pos (by simp [kept]),
            List.map_cons, sanitized, kept, Option.getD_some]

/-- A significant byte becomes a letter, a digit or, exactly when it is a separator, a dash. -/
theorem sanitized_cases {c : UInt8} (kept : (sanitizeByte c).isSome = true) :
    (sanitized c = dash ∨ isIDByte (sanitized c) = true) ∧
      (sanitized c = dash ↔ isSeparator c = true) := by
  refine forall_byte_lt (p := fun c => (sanitizeByte c).isSome = true →
    (sanitized c = dash ∨ isIDByte (sanitized c) = true) ∧
      (sanitized c = dash ↔ isSeparator c = true)) ?_ c.toNat_lt kept
  decide +kernel

theorem of_mem_significant {name : Bytes} {c : UInt8} (member : c ∈ significant name) :
    (sanitizeByte c).isSome = true :=
  (List.mem_filter.mp member).2

/-- The ID starts with no dash exactly if the first significant byte is no separator. -/
theorem head?_sanitized_ne_iff (name : Bytes) :
    ((significant name).map sanitized).head? ≠ some dash ↔
      ∀ c ∈ (significant name).head?, isSeparator c = false := by
  rw [List.head?_map]
  cases first : (significant name).head? with
  | none => simp
  | some c =>
      have cases := sanitized_cases (of_mem_significant (List.mem_of_head? first))
      simp [cases.2]

/-- The ID ends with no dash exactly if the last significant byte is no separator. -/
theorem getLast?_sanitized_ne_iff (name : Bytes) :
    ((significant name).map sanitized).getLast? ≠ some dash ↔
      ∀ c ∈ (significant name).getLast?, isSeparator c = false := by
  rw [List.getLast?_map]
  cases last : (significant name).getLast? with
  | none => simp
  | some c =>
      have cases := sanitized_cases (of_mem_significant (List.mem_of_getLast? last))
      simp [cases.2]

/-- The ID has no two dashes together exactly if no two separators are next to each other. -/
theorem isChain_sanitized_iff (name : Bytes) :
    ((significant name).map sanitized).IsChain (Apart dash) ↔
      (significant name).IsChain fun left right =>
        ¬ (isSeparator left = true ∧ isSeparator right = true) := by
  rw [List.isChain_map]
  apply List.IsChain.iff_of_mem_imp
  intro left right first second
  rw [Apart, (sanitized_cases (of_mem_significant first)).2,
    (sanitized_cases (of_mem_significant second)).2]

/-- What is kept of a name follows the rules when its separators are inside. -/
theorem nodeIDPattern_sanitized_iff {name : Bytes} (some : significant name ≠ []) :
    nodeIDPattern ((significant name).map sanitized) = true ↔ SeparatorsInside name := by
  have bytes : ∀ byte ∈ (significant name).map sanitized, byte = dash ∨ isIDByte byte = true := by
    intro byte member
    obtain ⟨c, kept, rfl⟩ := List.mem_map.mp member
    exact (sanitized_cases (of_mem_significant kept)).1
  rw [nodeIDPattern_iff, head?_sanitized_ne_iff, getLast?_sanitized_ne_iff, isChain_sanitized_iff,
    and_iff_right (mt List.map_eq_nil_iff.mp some), and_iff_left bytes]
  rfl

/-- The sanitized name matches the pattern of IDs exactly if its separators are inside. -/
theorem nodeIDPattern_sanitizeID_iff (name : Bytes) :
    nodeIDPattern (sanitizeID name) = true ↔ SeparatorsInside name := by
  rw [sanitizeID, filterMap_sanitizeByte]
  by_cases none : significant name = []
  · have inside : SeparatorsInside name := by simp [SeparatorsInside, none]
    rw [none]
    exact iff_of_true (by decide) inside
  · have kept : ((significant name).map sanitized).length ≠ 0 := by simpa using none
    rw [if_neg kept]
    exact nodeIDPattern_sanitized_iff none

/-- A room that is created is the one made from the arguments. -/
theorem eq_newRoom_of_createRoom {db after : Database} {name ownerID : Bytes} {opts : RoomOptions}
    {now : Nat} {room : Room}
    (created : createRoom db name ownerID opts now = (.ok room, after)) :
    room = newRoom name ownerID opts := by
  unfold createRoom at created
  split at created
  · cases created
  · split at created
    · cases created
    · split at created
      · cases created
      · cases created
        rfl

/-- The ID of a room that `CreateRoom` makes follows the rules of node IDs exactly when the
separators of the name are inside. -/
theorem nodeIDPattern_createRoom_iff {db after : Database} {name ownerID : Bytes}
    {opts : RoomOptions} {now : Nat} {room : Room}
    (created : createRoom db name ownerID opts now = (.ok room, after)) :
    nodeIDPattern room.id = true ↔ SeparatorsInside name := by
  have parts : (newRoom name ownerID opts).id = ascii "room" ++ dash :: sanitizeID name := rfl
  have word : nodeIDPattern (ascii "room") = true := by decide
  rw [eq_newRoom_of_createRoom created, parts, nodeIDPattern_append_dash, word, Bool.true_and]
  exact nodeIDPattern_sanitizeID_iff name

/-- The name `My_Lab 2` gives the ID `room-my-lab-2`. -/
theorem nodeIDPattern_createRoom_lab : ∃ room after,
    createRoom .empty (ascii "My_Lab 2") (ascii "a") ⟨false, 0⟩ 1 = (.ok room, after) ∧
      nodeIDPattern room.id = true := by
  have created : createRoom .empty (ascii "My_Lab 2") (ascii "a") ⟨false, 0⟩ 1 =
      (.ok (newRoom (ascii "My_Lab 2") (ascii "a") ⟨false, 0⟩), _) := rfl
  exact ⟨_, _, created, (nodeIDPattern_createRoom_iff created).mpr (by decide)⟩

/-- A name with a space at its end gives an ID that ends in a dash. -/
theorem createRoom_trailing_dash : ∃ room after,
    createRoom .empty (ascii "Lab ") (ascii "a") ⟨false, 0⟩ 1 = (.ok room, after) ∧
      room.id = ascii "room-lab-" ∧ nodeIDPattern room.id = false :=
  ⟨_, _, rfl, by decide, by decide⟩

end RoomManager

end P2pMesh

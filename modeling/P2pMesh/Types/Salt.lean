import P2pMesh.Foundation.CaseMap
import P2pMesh.Foundation.Sha256
import Mathlib.Data.Set.Function

/-! # Room keys and salted digests

`pkg/types/salt.go`, with SHA-256 and the case mapping as parameters. The key material and
the room ID are hashed one after the other, with no length and no separator. Bytes moved
from the end of the key to the start of the room ID leave what is hashed as it is, and
nothing else does, so two requests for a room key are told apart exactly when neither comes
from the other in this way (`P2pMesh.KeyRequest.separated_iff`).
-/

namespace P2pMesh

open Foundation

/-- `RoomKey`. -/
abbrev RoomKey := Sha256.Digest

/-- The domain of the salted digests. -/
def saltDomain : Bytes :=
  ascii "gop2pmesh/addr-salt/v1"

/-- The domain of the room keys. -/
def roomKeyDomain : Bytes :=
  ascii "gop2pmesh/room-key/v1"

section Derivation

variable (sha256 : Bytes → Sha256.Digest) (m : CaseMap)

/-- What `DeriveRoomKey` hashes. -/
def roomKeyInput (meshSecret roomID explicitKey : Bytes) : Bytes :=
  roomKeyDomain ++ (if 0 < explicitKey.length then 1 :: explicitKey else 0 :: meshSecret) ++
    m.toLower roomID

/-- `DeriveRoomKey`. -/
def deriveRoomKey (meshSecret roomID explicitKey : Bytes) : RoomKey :=
  sha256 (roomKeyInput m meshSecret roomID explicitKey)

/-- `RoomKey.saltedDigest`. -/
def saltedDigest (k : RoomKey) (nodeID : Bytes) : Sha256.Digest :=
  sha256 (saltDomain ++ k.1 ++ m.toLower nodeID)

/-- `RoomKey.saltedSubnetIndex`: 20 bits. -/
def saltedSubnetIndex (k : RoomKey) : UInt32 :=
  uint32 ((sha256 (saltDomain ++ ascii "subnet" ++ k.1)).1.take 4) &&& 0x000FFFFF

end Derivation

/-- The secret a room key is made of: an operator's key, or the mesh secret. -/
inductive KeyMaterial where
  | explicit (key : Bytes)
  | mesh (secret : Bytes)
deriving DecidableEq

namespace KeyMaterial

/-- The byte that stands for the kind of the material. -/
def tag : KeyMaterial → UInt8
  | explicit _ => 1
  | mesh _ => 0

/-- The bytes of the key material. -/
def bytes : KeyMaterial → Bytes
  | explicit key => key
  | mesh secret => secret

/-- The same kind of material with more bytes at its end. -/
def append : KeyMaterial → Bytes → KeyMaterial
  | explicit key, more => explicit (key ++ more)
  | mesh secret, more => mesh (secret ++ more)

theorem eq_append_iff {left right : KeyMaterial} {more : Bytes} :
    right = left.append more ↔ left.tag = right.tag ∧ right.bytes = left.bytes ++ more := by
  cases left <;> cases right <;> simp [append, tag, bytes]

theorem append_nil (k : KeyMaterial) : k.append [] = k :=
  (eq_append_iff.mpr ⟨rfl, (List.append_nil _).symm⟩).symm

theorem eq_nil_of_append_eq {k : KeyMaterial} {more : Bytes} (same : k = k.append more) :
    more = [] :=
  List.self_eq_append_right.mp (eq_append_iff.mp same).2

end KeyMaterial

/-- The arguments of `DeriveRoomKey`. -/
structure KeyRequest where
  meshSecret : Bytes
  roomID : Bytes
  explicitKey : Bytes

namespace KeyRequest

/-- An explicit key is used if it is not empty, and the mesh secret otherwise. -/
def material (r : KeyRequest) : KeyMaterial :=
  if r.explicitKey = [] then .mesh r.meshSecret else .explicit r.explicitKey

section Requests

variable (sha256 : Bytes → Sha256.Digest) (m : CaseMap)

/-- What is hashed for a request. -/
def input (r : KeyRequest) : Bytes :=
  roomKeyInput m r.meshSecret r.roomID r.explicitKey

/-- The key that is derived for a request. -/
def key (r : KeyRequest) : RoomKey :=
  deriveRoomKey sha256 m r.meshSecret r.roomID r.explicitKey

/-- Equal keys come from the same material and the same lower-cased room ID. -/
def Separated (left right : KeyRequest) : Prop :=
  left.key sha256 m = right.key sha256 m →
    left.material = right.material ∧ m.toLower left.roomID = m.toLower right.roomID

/-- The second request has the first one's material with bytes added that stand at the
start of the first one's room ID and are missing in the second one's. -/
def Shifts (left right : KeyRequest) : Prop :=
  ∃ moved ≠ [], right.material = left.material.append moved ∧
    m.toLower left.roomID = moved ++ m.toLower right.roomID

end Requests

variable {sha256 : Bytes → Sha256.Digest} {m : CaseMap} {left right : KeyRequest}

/-- What is hashed is the domain, the tag, the secret and the room ID, without a separator. -/
theorem input_eq (r : KeyRequest) :
    r.input m = roomKeyDomain ++ r.material.tag :: (r.material.bytes ++ m.toLower r.roomID) := by
  rw [input, roomKeyInput, material, List.append_assoc]
  by_cases absent : r.explicitKey = []
  · simp only [absent, List.length_nil, Nat.lt_irrefl, ↓reduceIte]
    rfl
  · simp only [List.length_pos_iff.mpr absent, absent, ↓reduceIte]
    rfl

/-- Two requests hash the same bytes exactly if tags and joined texts are the same. -/
theorem input_inj : left.input m = right.input m ↔
    left.material.tag = right.material.tag ∧
      left.material.bytes ++ m.toLower left.roomID =
        right.material.bytes ++ m.toLower right.roomID := by
  rw [input_eq, input_eq, List.append_cancel_left_eq, List.cons.injEq]

/-- Bytes that move from the room ID to the secret leave what is hashed as it is. -/
theorem Shifts.input_eq_input (shifts : Shifts m left right) :
    left.input m = right.input m := by
  obtain ⟨moved, _, material, room⟩ := shifts
  obtain ⟨tag, bytes⟩ := KeyMaterial.eq_append_iff.mp material
  refine input_inj.mpr ⟨tag, ?_⟩
  rw [bytes, room, List.append_assoc]

/-- Bytes before the room ID were moved, or the two requests agree. -/
theorem agree_or_shifts {moved : Bytes} (tag : left.material.tag = right.material.tag)
    (bytes : right.material.bytes = left.material.bytes ++ moved)
    (room : m.toLower left.roomID = moved ++ m.toLower right.roomID) :
    (left.material = right.material ∧ m.toLower left.roomID = m.toLower right.roomID) ∨
      Shifts m left right := by
  have material := KeyMaterial.eq_append_iff.mpr ⟨tag, bytes⟩
  by_cases unmoved : moved = []
  · rw [unmoved] at material room
    rw [KeyMaterial.append_nil] at material
    exact Or.inl ⟨material.symm, room⟩
  · exact Or.inr ⟨moved, unmoved, material, room⟩

/-- What two requests hash is the same if they agree or bytes were moved. -/
theorem cases_of_input_eq (same : left.input m = right.input m) :
    (left.material = right.material ∧ m.toLower left.roomID = m.toLower right.roomID) ∨
      Shifts m left right ∨ Shifts m right left := by
  obtain ⟨tag, bytes⟩ := input_inj.mp same
  rcases List.append_eq_append_iff.mp bytes with ⟨moved, longer, room⟩ | ⟨moved, longer, room⟩
  · rcases agree_or_shifts tag longer room with agree | shifts
    · exact Or.inl agree
    · exact Or.inr (Or.inl shifts)
  · rcases agree_or_shifts tag.symm longer room with ⟨material, rooms⟩ | shifts
    · exact Or.inl ⟨material.symm, rooms.symm⟩
    · exact Or.inr (Or.inr shifts)

/-- Requests between which bytes move have different secrets. -/
theorem Shifts.material_ne (shifts : Shifts m left right) : left.material ≠ right.material := by
  obtain ⟨moved, nonempty, material, _⟩ := shifts
  intro same
  exact nonempty (KeyMaterial.eq_nil_of_append_eq (same.trans material))

/-- Where SHA-256 tells the two hashed strings apart, the keys are separated exactly when no
bytes were moved between the key and the room ID. -/
theorem separated_iff
    (injective : Set.InjOn sha256 {left.input m, right.input m}) :
    Separated sha256 m left right ↔ ¬ Shifts m left right ∧ ¬ Shifts m right left := by
  constructor
  · intro separated
    refine ⟨fun shifts => ?_, fun shifts => ?_⟩
    · exact shifts.material_ne (separated (congrArg sha256 shifts.input_eq_input)).1
    · exact shifts.material_ne (separated (congrArg sha256 shifts.input_eq_input).symm).1.symm
  · rintro ⟨forth, back⟩ same
    -- One string was hashed, and each request cuts it into key and room ID in its own place.
    have inputs : left.input m = right.input m :=
      injective (Set.mem_insert _ _) (Set.mem_insert_of_mem _ rfl) same
    rcases cases_of_input_eq inputs with agree | shifts | shifts
    · exact agree
    · exact absurd shifts forth
    · exact absurd shifts back

/-- Two rooms of one mesh. -/
def firstRoom : KeyRequest :=
  ⟨ascii "mesh-secret", ascii "first-room-of-the-mesh", []⟩

/-- A second room of the same mesh. -/
def secondRoom : KeyRequest :=
  ⟨ascii "mesh-secret", ascii "second-room-of-the-mesh", []⟩

/-- Two rooms of one mesh have different keys. -/
theorem firstRoom_separated :
    firstRoom.input .ascii ≠ secondRoom.input .ascii ∧
      Separated Sha256.sum256 .ascii firstRoom secondRoom := by
  have apart : firstRoom.key Sha256.sum256 .ascii ≠ secondRoom.key Sha256.sum256 .ascii := by
    decide +kernel
  have material : firstRoom.material = secondRoom.material := by decide
  refine ⟨by decide +kernel, (separated_iff ?_).mpr ⟨?_, ?_⟩⟩
  · rw [Set.injOn_pair]
    intro same
    exact absurd same apart
  · intro shifts
    exact shifts.material_ne material
  · intro shifts
    exact shifts.material_ne material.symm

/-- Two closed rooms; a letter stands at the end of one key or at the start of the other
room's ID. -/
def letterInRoom : KeyRequest :=
  ⟨[], ascii "aroom-of-the-closed-mesh", ascii "key"⟩

/-- The last letter stands in the explicit key. -/
def letterInKey : KeyRequest :=
  ⟨[], ascii "room-of-the-closed-mesh", ascii "keya"⟩

/-- The key of one room is that of the other, since the same string is hashed for both. -/
theorem letterInRoom_not_separated :
    Set.InjOn Sha256.sum256 {letterInRoom.input .ascii, letterInKey.input .ascii} ∧
      ¬ Separated Sha256.sum256 .ascii letterInRoom letterInKey := by
  have inputs : letterInRoom.input .ascii = letterInKey.input .ascii := by decide +kernel
  refine ⟨?_, fun separated => ?_⟩
  · rw [Set.injOn_pair]
    exact fun _ => inputs
  · have agree := separated (congrArg Sha256.sum256 inputs)
    exact absurd agree.1 (by decide)

end KeyRequest

end P2pMesh

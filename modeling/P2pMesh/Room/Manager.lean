import P2pMesh.Foundation.Transition
import P2pMesh.Storage.Database

/-! # Rooms and their members

`Manager` of `internal/room/manager.go` over the tables of the store. Every room records
how many members it may have, and no call compares the number with the members: a call
without an error keeps every room within its limit exactly when a room is created with a
limit that is not negative, and a node joins a room that is not full or that it is already
a member of (`P2pMesh.RoomManager.withinLimit_of_hasPlace`).
-/

namespace P2pMesh

open Foundation

/-- The fields of `RoomOptions` that `CreateRoom` reads. -/
structure RoomOptions where
  encrypted : Bool
  maxMembers : Int

namespace RoomManager

/-- What `sanitizeID` keeps of a byte. -/
def sanitizeByte (c : UInt8) : Option UInt8 :=
  if (0x61 ≤ c ∧ c ≤ 0x7a) ∨ (0x30 ≤ c ∧ c ≤ 0x39) then some c
  else if 0x41 ≤ c ∧ c ≤ 0x5a then some (c + 32)
  else if c = 0x2d ∨ c = 0x5f ∨ c = 0x20 then some 0x2d
  else none

/-- `sanitizeID`. -/
def sanitizeID (name : Bytes) : Bytes :=
  let out := name.filterMap sanitizeByte
  if out.length = 0 then ascii "room" else out

/-- The errors of the manager. -/
inductive ManagerError where
  | nameEmpty
  | ownerEmpty
  | create (cause : StoreError)
  | idsRequired
  | notFound (roomID : Bytes)
  | passwordRequired (roomID : Bytes)
deriving DecidableEq, Repr

/-- The texts of the errors, given those of the store and the text of an ID. -/
def ManagerError.text (cause : StoreError → String) (shown : Bytes → String) :
    ManagerError → String
  | .nameEmpty => "room name is empty"
  | .ownerEmpty => "room owner is empty"
  | .create err => "create room: " ++ cause err
  | .idsRequired => "room and node IDs are required"
  | .notFound roomID => "room " ++ shown roomID ++ " not found: " ++ cause .noRows
  | .passwordRequired roomID => "room " ++ shown roomID ++ " requires a password"

/-- The room that `CreateRoom` hands to the store. -/
def newRoom (name ownerID : Bytes) (opts : RoomOptions) : Room :=
  ⟨ascii "room-" ++ sanitizeID name, name, ownerID, opts.encrypted,
    if opts.maxMembers = 0 then 100 else opts.maxMembers, 0⟩

/-- `CreateRoom` at the time `now`. -/
def createRoom (db : Database) (name ownerID : Bytes) (opts : RoomOptions) (now : Nat) :
    Except ManagerError Room × Database :=
  if name = [] then (.error .nameEmpty, db)
  else if ownerID = [] then (.error .ownerEmpty, db)
  else
    match db.createRoom (newRoom name ownerID opts) now with
    | (some cause, db) => (.error (.create cause), db)
    | (none, db) => (.ok (newRoom name ownerID opts), db)

/-- `JoinRoom` at the time `now`. -/
def joinRoom (db : Database) (roomID nodeID password : Bytes) (now : Nat) :
    Option ManagerError × Database :=
  if roomID = [] ∨ nodeID = [] then (some .idsRequired, db)
  else
    match db.rooms.find roomID with
    | none => (some (.notFound roomID), db)
    | some r =>
        if r.encrypted ∧ password = [] then (some (.passwordRequired roomID), db)
        -- Nothing reads `r.maxMembers` here.
        else (none, db.addRoomMember roomID nodeID now)

/-- `LeaveRoom`. -/
def leaveRoom (db : Database) (roomID nodeID : Bytes) : Option ManagerError × Database :=
  (none, db.removeRoomMember roomID nodeID)

/-- The calls that change rooms and their members. -/
inductive ManagerCall where
  | createRoom (name ownerID : Bytes) (opts : RoomOptions)
  | joinRoom (roomID nodeID password : Bytes)
  | leaveRoom (roomID nodeID : Bytes)

/-- A call at the time `now`, with the error it returns. -/
def perform (db : Database) (now : Nat) : ManagerCall → Option ManagerError × Database
  | .createRoom name ownerID opts =>
      match createRoom db name ownerID opts now with
      | (.error err, db) => (some err, db)
      | (.ok _, db) => (none, db)
  | .joinRoom roomID nodeID password => joinRoom db roomID nodeID password now
  | .leaveRoom roomID nodeID => leaveRoom db roomID nodeID

/-- One call after the other. -/
def Step (before : Database) (call : ManagerCall × Nat) (after : Database) : Prop :=
  (perform before call.2 call.1).2 = after

/-- The members of a room. -/
def members (db : Database) (roomID : Bytes) : List RoomMember :=
  db.roomMembers.rows.filter fun row => row.roomID = roomID

/-- No room has more members than it records. -/
def WithinLimit (db : Database) : Prop :=
  ∀ room ∈ db.rooms.rows, ((members db room.id).length : Int) ≤ room.maxMembers

/-- A room is created with a limit that is not negative, and a node joins a room that is
not full or that it is a member of. -/
def HasPlace (db : Database) : ManagerCall × Nat → Prop
  | (.createRoom _ _ opts, _) => 0 ≤ opts.maxMembers
  | (.joinRoom roomID nodeID _, _) =>
      ∀ room, db.rooms.find roomID = some room → db.roomMembers.find (roomID, nodeID) = none →
        ((members db roomID).length : Int) < room.maxMembers
  | (.leaveRoom _ _, _) => True

/-- The tables with one more room. -/
def withRoom (db : Database) (room : Room) : Database :=
  { db with rooms := db.rooms.insertNew room }

/-- What a call does: it fails and changes nothing, adds a room whose ID is new, adds a
member to a room that exists, or removes a member. -/
inductive Effect (db : Database) (now : Nat) : ManagerCall → Option ManagerError × Database → Prop
    where
  | refused (call : ManagerCall) (err : ManagerError) : Effect db now call (some err, db)
  | created (name ownerID : Bytes) (opts : RoomOptions) :
      db.rooms.find (newRoom name ownerID opts).id = none →
      Effect db now (.createRoom name ownerID opts)
        (none, withRoom db { newRoom name ownerID opts with createdAt := now })
  | joined (roomID nodeID password : Bytes) (room : Room) :
      db.rooms.find roomID = some room →
      Effect db now (.joinRoom roomID nodeID password)
        (none, db.addRoomMember roomID nodeID now)
  | left (roomID nodeID : Bytes) :
      Effect db now (.leaveRoom roomID nodeID) (none, db.removeRoomMember roomID nodeID)

/-- Every call has one of the effects of `Effect`. -/
theorem perform_effect (db : Database) (now : Nat) (call : ManagerCall) :
    Effect db now call (perform db now call) := by
  cases call with
  | createRoom name ownerID opts =>
      simp only [perform, createRoom, Database.createRoom]
      by_cases unnamed : name = []
      · simp only [unnamed, ↓reduceIte]
        exact .refused _ _
      by_cases unowned : ownerID = []
      · simp only [unnamed, unowned, ↓reduceIte]
        exact .refused _ _
      cases taken : db.rooms.find (newRoom name ownerID opts).id with
      | some _ =>
          simp only [unnamed, unowned, ↓reduceIte]
          exact .refused _ _
      | none =>
          simp only [unnamed, unowned, ↓reduceIte]
          exact .created name ownerID opts taken
  | joinRoom roomID nodeID password =>
      simp only [perform, joinRoom]
      split
      · exact .refused _ _
      split
      · exact .refused _ _
      next room found =>
        split
        · exact .refused _ _
        · exact .joined roomID nodeID password room found
  | leaveRoom roomID nodeID => exact .left roomID nodeID

/-- A call that fails changes nothing. -/
theorem perform_of_error {db : Database} {now : Nat} {call : ManagerCall} {err : ManagerError}
    (failed : (perform db now call).1 = some err) : (perform db now call).2 = db := by
  have effect := perform_effect db now call
  generalize perform db now call = outcome at effect failed
  cases effect with
  | refused => rfl
  | created | joined | left => cases failed

section Counts

variable (db : Database) (roomID nodeID other : Bytes) (now : Nat)

/-- A room has one member more after a join by a node that was not in it; other rooms keep their
number. -/
theorem members_addRoomMember :
    (members (db.addRoomMember roomID nodeID now) other).length =
      if db.roomMembers.find (roomID, nodeID) = none ∧ other = roomID then
        (members db other).length + 1
      else (members db other).length := by
  have rows := db.roomMembers.rows_insertNew ⟨roomID, nodeID, now⟩
  simp only [RoomMember.key] at rows
  simp only [members, Database.addRoomMember, rows]
  by_cases fresh : db.roomMembers.find (roomID, nodeID) = none
  · by_cases same : other = roomID
    · simp [fresh, same]
    · simp [fresh, same, Ne.symm same]
  · simp [fresh]

/-- A leave makes no room larger. -/
theorem length_members_removeRoomMember_le :
    (members (db.removeRoomMember roomID nodeID) other).length ≤ (members db other).length :=
  (List.filter_sublist.filter _).length_le

end Counts

/-- Every member is one of a room that exists. -/
def Known (db : Database) : Prop :=
  ∀ row ∈ db.roomMembers.rows, (db.rooms.find row.roomID).isSome

/-- Every call keeps the members in rooms that exist. -/
theorem Known.perform {db : Database} (known : Known db) (now : Nat) (call : ManagerCall) :
    Known (perform db now call).2 := by
  have effect := perform_effect db now call
  generalize RoomManager.perform db now call = outcome at effect
  cases effect with
  | refused => exact known
  | created name ownerID opts fresh =>
      intro row member
      obtain ⟨room, found⟩ := Option.isSome_iff_exists.mp (known row member)
      rw [Option.isSome_iff_exists]
      refine ⟨room, (KeyedTable.find_eq_some_iff _ _ _).mpr ?_⟩
      obtain ⟨listed, named⟩ := KeyedTable.mem_of_find found
      exact ⟨(KeyedTable.mem_insertNew_iff _ _ _).mpr (Or.inl listed), named⟩
  | joined roomID nodeID password room found =>
      intro row member
      rcases (KeyedTable.mem_insertNew_iff _ _ _).mp member with old | ⟨_, rfl⟩
      · exact known row old
      · exact Option.isSome_iff_exists.mpr ⟨room, found⟩
  | left roomID nodeID =>
      intro row member
      exact known row ((KeyedTable.mem_erase_iff _ _ _).mp member).1

/-- A room that does not exist has no members. -/
theorem Known.members_eq_nil {db : Database} (known : Known db) {roomID : Bytes}
    (fresh : db.rooms.find roomID = none) : members db roomID = [] := by
  rw [members, List.filter_eq_nil_iff]
  intro row member same
  have found := known row member
  rw [of_decide_eq_true same, fresh] at found
  cases found

/-- A new room has no members, so any limit that is not negative holds for it. -/
theorem withinLimit_created_iff {db : Database} (known : Known db) (within : WithinLimit db)
    {name ownerID : Bytes} {opts : RoomOptions} (now : Nat)
    (fresh : db.rooms.find (newRoom name ownerID opts).id = none) :
    WithinLimit (withRoom db { newRoom name ownerID opts with createdAt := now }) ↔
      0 ≤ opts.maxMembers := by
  have rows : (withRoom db { newRoom name ownerID opts with createdAt := now }).rooms.rows =
      db.rooms.rows ++ [{ newRoom name ownerID opts with createdAt := now }] := by
    rw [withRoom, KeyedTable.rows_insertNew, if_pos fresh]
  have nobody : members db (newRoom name ownerID opts).id = [] := known.members_eq_nil fresh
  have limit : 0 ≤ (newRoom name ownerID opts).maxMembers ↔ 0 ≤ opts.maxMembers := by
    unfold newRoom
    dsimp only
    split <;> omega
  unfold WithinLimit
  rw [rows, List.forall_mem_append, List.forall_mem_singleton]
  change (WithinLimit db ∧ ((members db (newRoom name ownerID opts).id).length : Int) ≤
    (newRoom name ownerID opts).maxMembers) ↔ _
  rw [nobody, List.length_nil, Nat.cast_zero, limit]
  exact and_iff_right within

/-- A member is added to a room that exists. -/
theorem withinLimit_joined_iff {db : Database} (within : WithinLimit db) {roomID nodeID : Bytes}
    {room : Room} (found : db.rooms.find roomID = some room) (now : Nat) :
    WithinLimit (db.addRoomMember roomID nodeID now) ↔
      (db.roomMembers.find (roomID, nodeID) = none →
        ((members db roomID).length : Int) < room.maxMembers) := by
  obtain ⟨listed, named⟩ := KeyedTable.mem_of_find found
  constructor
  · intro after fresh
    have bound := after room listed
    rw [members_addRoomMember, if_pos ⟨fresh, named⟩, named] at bound
    omega
  · intro place other member
    rw [members_addRoomMember]
    split
    · next joined =>
        have same : other = room :=
          db.rooms.eq_of_key_eq member listed (joined.2.trans named.symm)
        have bound := place joined.1
        rw [joined.2, same]
        omega
    · exact within other member

/-- A call without an error keeps every room within its limit exactly when there is a place
for what it adds. -/
theorem withinLimit_perform_iff {db : Database} (known : Known db) (within : WithinLimit db)
    {now : Nat} {call : ManagerCall} (done : (perform db now call).1 = none) :
    WithinLimit (perform db now call).2 ↔ HasPlace db (call, now) := by
  have effect := perform_effect db now call
  generalize perform db now call = outcome at effect done
  cases effect with
  | refused => cases done
  | created name ownerID opts fresh => exact withinLimit_created_iff known within now fresh
  | joined roomID nodeID password room found =>
      simp only [HasPlace, found, Option.some.injEq, forall_eq']
      exact withinLimit_joined_iff within found now
  | left roomID nodeID =>
      refine iff_of_true (fun room member => ?_) trivial
      have fewer := length_members_removeRoomMember_le db roomID nodeID room.id
      exact (Int.ofNat_le.mpr fewer).trans (within room member)

/-- Along runs whose calls have a place for what they add, every room is within its limit,
and the next call without an error keeps it so exactly when it has one. -/
theorem withinLimit_of_hasPlace {db : Database}
    (reached : Reachable (Guarded Step HasPlace) Database.empty db) :
    WithinLimit db ∧ ∀ call now, (perform db now call).1 = none →
      (WithinLimit (perform db now call).2 ↔ HasPlace db (call, now)) := by
  have sound : Known db ∧ WithinLimit db := by
    refine reached.invariant (fun db => Known db ∧ WithinLimit db) ⟨nofun, nofun⟩ ?_
    rintro before ⟨call, now⟩ after ⟨known, within⟩ ⟨place, rfl⟩
    refine ⟨known.perform now call, ?_⟩
    cases done : (perform before now call).1 with
    | none => exact (withinLimit_perform_iff known within done).mpr place
    | some err =>
        rw [perform_of_error done]
        exact within
  exact ⟨sound.2, fun call now => withinLimit_perform_iff sound.1 sound.2⟩

section Samples

instance (db : Database) : Decidable (WithinLimit db) :=
  inferInstanceAs (Decidable (∀ room ∈ db.rooms.rows, _))

/-- A node creates a room for one member and joins it. -/
def smallRoom : Database :=
  (joinRoom (createRoom .empty (ascii "Lab") (ascii "a") ⟨false, 1⟩ 1).2 (ascii "room-lab")
    (ascii "a") [] 2).2

/-- The sample room is reached by calls that meet the condition. -/
theorem reachable_smallRoom : Reachable (Guarded Step HasPlace) .empty smallRoom := by
  have created : Step .empty (.createRoom (ascii "Lab") (ascii "a") ⟨false, 1⟩, 1) _ := rfl
  have first : Reachable (Guarded Step HasPlace) .empty _ :=
    (Reachable.refl _).guardedTail created (show (0 : Int) ≤ 1 by decide)
  have joined : Step _ (.joinRoom (ascii "room-lab") (ascii "a") [], 2) smallRoom := rfl
  refine first.guardedTail joined ?_
  intro room found _
  cases found
  decide

/-- A room that fewer nodes join than it may have stays within its limit. -/
theorem smallRoom_withinLimit : WithinLimit smallRoom :=
  (withinLimit_of_hasPlace reachable_smallRoom).1

/-- A second node joins the room without an error. -/
theorem smallRoom_overfull :
    ∃ db, Reachable Step .empty db ∧ ¬ WithinLimit db := by
  have joined : Step smallRoom (.joinRoom (ascii "room-lab") (ascii "b") [], 3) _ := rfl
  exact ⟨_, reachable_smallRoom.unguarded.tail joined, by decide⟩

end Samples

end RoomManager

end P2pMesh

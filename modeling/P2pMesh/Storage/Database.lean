import P2pMesh.Storage.Nodes
import P2pMesh.Storage.PortRules

/-! # The tables of the store

The `rooms` and `room_members` tables of `internal/storage/sqlstore.go`, and the calls
of `Store` on all four tables of the mesh. The schema declares foreign keys with
`ON DELETE CASCADE`, but SQLite does not enforce them unless the connection says so,
and `NewSQLStore` does not: deleting a node leaves the other tables as they are.
-/

namespace P2pMesh

open Foundation

/-- `Room` of `pkg/types`. -/
structure Room where
  id : Bytes
  name : Bytes
  ownerID : Bytes
  encrypted : Bool
  maxMembers : Int
  createdAt : Nat
deriving DecidableEq

/-- `RoomMember` of `pkg/types`. -/
structure RoomMember where
  roomID : Bytes
  nodeID : Bytes
  joinedAt : Nat
deriving DecidableEq

/-- The primary key of `room_members`. -/
def RoomMember.key (row : RoomMember) : Bytes × Bytes :=
  (row.roomID, row.nodeID)

/-- The table `rooms`. -/
abbrev RoomTable := KeyedTable Room.id

/-- The table `room_members`. -/
abbrev MemberTable := KeyedTable RoomMember.key

/-- The tables of the database. -/
structure Database where
  nodes : NodeTable
  rooms : RoomTable
  roomMembers : MemberTable
  portRules : PortRuleTable

/-- The errors of the store. -/
inductive StoreError where
  | nodeIDConflict
  | nullKey
  | uniqueIPv6
  | noRows
  | duplicateRoom
deriving DecidableEq, Repr

/-- The calls of `Store` that write to the tables of the mesh. -/
inductive StoreCall where
  | registerNode (n : Node)
  | updateNodeStatus (id status : Bytes)
  | deleteNode (id : Bytes)
  | unbindNodeID (id : Bytes)
  | createRoom (r : Room)
  | addRoomMember (roomID nodeID : Bytes)
  | removeRoomMember (roomID nodeID : Bytes)
  | setPortRule (rule : StoredRule)
  | deletePortRule (ruleID : Bytes)

/-- The error of a registration. -/
def RegisterOutcome.error : RegisterOutcome → Option StoreError
  | .ok => none
  | .conflict => some .nodeIDConflict
  | .nullKey => some .nullKey
  | .uniqueIPv6 => some .uniqueIPv6

/-- `UpdateNodeStatus` at the time `now`. -/
def NodeTable.updateNodeStatus (table : NodeTable) (id status : Bytes) (now : Nat) : NodeTable :=
  table.modify (fun row => { row with status := status, lastSeen := now }) (fun _ => rfl) id

namespace Database

/-- The tables after `migrate` on an empty database. -/
def empty : Database :=
  ⟨KeyedTable.empty, KeyedTable.empty, KeyedTable.empty, KeyedTable.empty⟩

/-- `CreateRoom`: the insertion fails when the ID is taken. -/
def createRoom (db : Database) (r : Room) (now : Nat) : Option StoreError × Database :=
  match db.rooms.find r.id with
  | some _ => (some .duplicateRoom, db)
  | none => (none, { db with rooms := db.rooms.insertNew { r with createdAt := now } })

/-- `AddRoomMember`. -/
def addRoomMember (db : Database) (roomID nodeID : Bytes) (now : Nat) : Database :=
  { db with roomMembers := db.roomMembers.insertNew ⟨roomID, nodeID, now⟩ }

/-- `RemoveRoomMember`. -/
def removeRoomMember (db : Database) (roomID nodeID : Bytes) : Database :=
  { db with roomMembers := db.roomMembers.erase (roomID, nodeID) }

/-- `ListRoomMembers`: the nodes that are online and have a membership row. -/
def listRoomMembers (db : Database) (roomID : Bytes) : List Node :=
  db.nodes.rows.filter fun n =>
    (db.roomMembers.find (roomID, n.id)).isSome ∧ n.status = ascii "online"

/-- A call at the time `now`, with the error it returns. A statement that fails for
another reason leaves the tables as they were, as if the call had not been made. -/
def perform (db : Database) (now : Nat) : StoreCall → Option StoreError × Database
  | .registerNode n =>
      ((db.nodes.registerNode n now).1.error,
        { db with nodes := (db.nodes.registerNode n now).2 })
  | .updateNodeStatus id status =>
      (none, { db with nodes := db.nodes.updateNodeStatus id status now })
  | .deleteNode id => (none, { db with nodes := db.nodes.deleteNode id })
  | .unbindNodeID id =>
      ((db.nodes.unbindNodeID id).1.map fun _ => .noRows,
        { db with nodes := (db.nodes.unbindNodeID id).2 })
  | .createRoom r => db.createRoom r now
  | .addRoomMember roomID nodeID => (none, db.addRoomMember roomID nodeID now)
  | .removeRoomMember roomID nodeID => (none, db.removeRoomMember roomID nodeID)
  | .setPortRule rule => (none, { db with portRules := db.portRules.setPortRule rule now })
  | .deletePortRule ruleID => (none, { db with portRules := db.portRules.deletePortRule ruleID })

/-- Creating a room touches neither members nor port rules. -/
theorem createRoom_other (db : Database) (r : Room) (now : Nat) :
    (db.createRoom r now).2.roomMembers = db.roomMembers ∧
      (db.createRoom r now).2.portRules = db.portRules := by
  unfold createRoom
  split
  · exact ⟨rfl, rfl⟩
  · exact ⟨rfl, rfl⟩

end Database

end P2pMesh

import P2pMesh.Foundation.BigEndian
import P2pMesh.Foundation.KeyedTable

/-! # The table of nodes

The `nodes` table of `internal/storage/sqlstore.go`, with the node ID as its primary
key. The IPv6 address is unique as well; it is stored as text and never null, so the
empty address is held by one row at most. The public key is a column that is not null, and a
nil slice is bound as null. `RegisterNode` makes two statements, a `SELECT` of the bound key
and an upsert, each of them atomic. When it succeeds for a node that it should not refuse is
said by `P2pMesh.NodeTable.registers_iff`.
-/

namespace P2pMesh

open Foundation

/-- `Node` of `internal/storage`; a key that is `none` is a nil slice. -/
structure Node where
  id : Bytes
  pubKey : Option Bytes
  roomID : Bytes
  ipv6Addr : Bytes
  ipv4Addr : Bytes
  publicAddr : Bytes
  natType : Bytes
  status : Bytes
  createdAt : Nat
  lastSeen : Nat
deriving DecidableEq

/-- The bytes of the key, which is all that `bytes.Equal` compares. -/
def Node.key (n : Node) : Bytes :=
  n.pubKey.getD []

/-- The table `nodes`. -/
abbrev NodeTable := KeyedTable Node.id

/-- How `RegisterNode` ends: `nullKey` and `uniqueIPv6` are constraints that fail in the upsert. -/
inductive RegisterOutcome where
  | ok
  | conflict
  | nullKey
  | uniqueIPv6
deriving DecidableEq, Repr

/-- What an upsert changes in the row of a node: everything but the key and the time
of creation. -/
def Node.overwrite (row n : Node) : Node :=
  { row with
    roomID := n.roomID
    ipv6Addr := n.ipv6Addr
    ipv4Addr := n.ipv4Addr
    publicAddr := n.publicAddr
    natType := n.natType
    status := n.status
    lastSeen := n.lastSeen }

/-- The two nodes have the same room, addresses, NAT type and status. -/
def Node.SameDetails (row n : Node) : Prop :=
  row.roomID = n.roomID ∧ row.ipv6Addr = n.ipv6Addr ∧ row.ipv4Addr = n.ipv4Addr ∧
    row.publicAddr = n.publicAddr ∧ row.natType = n.natType ∧ row.status = n.status

namespace NodeTable

/-- The `SELECT` of `RegisterNode`: the ID is bound to another key. -/
def bindsOther (table : NodeTable) (n : Node) : Bool :=
  match table.find n.id with
  | none => false
  | some row => row.key ≠ n.key

/-- The IPv6 address of the node is in the row of another node. -/
def ipv6Taken (table : NodeTable) (n : Node) : Bool :=
  table.rows.any fun row => row.id ≠ n.id ∧ row.ipv6Addr = n.ipv6Addr

/-- The upsert of `RegisterNode` at the time `now`; a null is refused before uniqueness is
looked at. -/
def upsertNode (table : NodeTable) (n : Node) (now : Nat) : RegisterOutcome × NodeTable :=
  if n.pubKey = none then (.nullKey, table)
  else if table.ipv6Taken n then (.uniqueIPv6, table)
  else
    (.ok, table.upsert Node.overwrite (fun _ _ => rfl) { n with createdAt := now, lastSeen := now })

/-- `RegisterNode` without interruption. -/
def registerNode (table : NodeTable) (n : Node) (now : Nat) : RegisterOutcome × NodeTable :=
  if table.bindsOther n then (.conflict, table) else table.upsertNode n now

/-- `GetNode`. -/
def getNode (table : NodeTable) (id : Bytes) : Option Node :=
  table.find id

/-- `DeleteNode`. -/
def deleteNode (table : NodeTable) (id : Bytes) : NodeTable :=
  table.erase id

/-- `UnbindNodeID`; it returns `sql.ErrNoRows` when there is no row. -/
def unbindNodeID (table : NodeTable) (id : Bytes) : Option String × NodeTable :=
  match table.find id with
  | none => (some "sql: no rows in result set", table)
  | some _ => (none, table.erase id)

/-- The row that a registration without uniqueness conflict leaves. -/
def registered (table : NodeTable) (n : Node) (now : Nat) : Node :=
  table.merged Node.overwrite { n with createdAt := now, lastSeen := now }

/-- The upsert succeeds when the key is not nil and the address is free, and changes nothing
otherwise. -/
theorem upsertNode_cases (table : NodeTable) (n : Node) (now : Nat) :
    (n.pubKey ≠ none ∧ table.ipv6Taken n = false ∧ (table.upsertNode n now).1 = .ok ∧
        ∀ id, (table.upsertNode n now).2.find id =
          if id = n.id then some (table.registered n now) else table.find id) ∨
      ((n.pubKey = none ∨ table.ipv6Taken n = true) ∧ ((table.upsertNode n now).1 = .nullKey ∨
        (table.upsertNode n now).1 = .uniqueIPv6) ∧ (table.upsertNode n now).2 = table) := by
  unfold upsertNode
  by_cases null : n.pubKey = none
  · exact .inr ⟨.inl null, .inl (by rw [if_pos null]), by rw [if_pos null]⟩
  · rw [if_neg null]
    cases taken : table.ipv6Taken n with
    | true => exact .inr ⟨.inr rfl, .inr rfl, rfl⟩
    | false =>
        exact .inl ⟨null, rfl, rfl, KeyedTable.find_upsert Node.overwrite (fun _ _ => rfl) _ _⟩

/-- The row of a registration has the details of the node. -/
theorem sameDetails_registered (table : NodeTable) (n : Node) (now : Nat) :
    (table.registered n now).SameDetails n := by
  unfold registered KeyedTable.merged
  cases table.find n.id with
  | none => exact ⟨rfl, rfl, rfl, rfl, rfl, rfl⟩
  | some row => exact ⟨rfl, rfl, rfl, rfl, rfl, rfl⟩

/-- The row of a registration has the key of the node, unless the ID is bound to another. -/
theorem key_registered (table : NodeTable) (n : Node) (now : Nat)
    (own : table.bindsOther n = false) : (table.registered n now).key = n.key := by
  unfold bindsOther at own
  unfold registered KeyedTable.merged
  cases found : table.find n.id with
  | none => rfl
  | some row =>
      simp only [found, ne_eq, decide_not, Bool.not_eq_false', decide_eq_true_eq] at own
      exact own

/-- An ID that is in the table is bound to the key of its row. -/
theorem bindsOther_of_find {table : NodeTable} {n row : Node} (found : table.find n.id = some row) :
    table.bindsOther n = true ↔ row.key ≠ n.key := by
  simp only [bindsOther, found, ne_eq, decide_not, Bool.not_eq_true', decide_eq_false_iff_not]

/-- Only an ID in the table can be bound to another key. -/
theorem exists_of_bindsOther {table : NodeTable} {n : Node} (binds : table.bindsOther n = true) :
    ∃ row, table.find n.id = some row := by
  unfold bindsOther at binds
  cases found : table.find n.id with
  | none => simp [found] at binds
  | some row => exact ⟨row, rfl⟩

/-- An address is taken if a row of another ID has it. -/
theorem ipv6Taken_iff (table : NodeTable) (n : Node) :
    table.ipv6Taken n = true ↔ ∃ row ∈ table.rows, row.id ≠ n.id ∧ row.ipv6Addr = n.ipv6Addr := by
  simp only [ipv6Taken, List.any_eq_true, decide_eq_true_eq]

/-- `RegisterNode` returns nil, and `GetNode` returns what was submitted. -/
def Registers (table : NodeTable) (n : Node) (now : Nat) : Prop :=
  (table.registerNode n now).1 = .ok ∧
    ∃ row, (table.registerNode n now).2.getNode n.id = some row ∧ row.SameDetails n

/-- A node that owns its ID and has no address of another node is registered just when its key
is not nil, and it has an address or no other node is without one. -/
theorem registers_iff (table : NodeTable) (n : Node) (now : Nat)
    (own : ∀ row, table.getNode n.id = some row → row.key = n.key)
    (address : n.ipv6Addr = [] ∨ ∀ row ∈ table.rows, row.ipv6Addr = n.ipv6Addr → row.id = n.id) :
    table.Registers n now ↔ n.pubKey ≠ none ∧
      (n.ipv6Addr ≠ [] ∨ ∀ row ∈ table.rows, row.ipv6Addr = [] → row.id = n.id) := by
  have unbound : table.bindsOther n = false := by
    by_contra binds
    rw [Bool.not_eq_false] at binds
    obtain ⟨row, found⟩ := exists_of_bindsOther binds
    exact (bindsOther_of_find found).mp binds (own row found)
  have register : table.registerNode n now = table.upsertNode n now := by
    rw [registerNode, unbound]
    rfl
  -- Only the empty address can be taken, since the others are free by assumption.
  have free_iff : table.ipv6Taken n = false ↔
      n.ipv6Addr ≠ [] ∨ ∀ row ∈ table.rows, row.ipv6Addr = [] → row.id = n.id := by
    rw [← Bool.not_eq_true, table.ipv6Taken_iff]
    constructor
    · intro free
      by_contra held
      push Not at held
      obtain ⟨empty, row, member, rowEmpty, differs⟩ := held
      exact free ⟨row, member, differs, rowEmpty.trans empty.symm⟩
    · rintro free ⟨row, member, differs, same⟩
      rcases address with empty | unheld
      · rcases free with nonempty | alone
        · exact nonempty empty
        · exact differs (alone row member (same.trans empty))
      · exact differs (unheld row member same)
  unfold Registers
  rw [register, ← free_iff]
  rcases table.upsertNode_cases n now with ⟨key, free, ok, rows⟩ | ⟨refused, outcome, _⟩
  · have found := rows n.id
    rw [if_pos rfl] at found
    exact iff_of_true ⟨ok, _, found, table.sameDetails_registered n now⟩ ⟨key, free⟩
  · refine iff_of_false (fun registers => ?_) fun both => ?_
    · rw [registers.1] at outcome
      rcases outcome with null | taken
      · cases null
      · cases taken
    · rcases refused with null | taken
      · exact both.1 null
      · rw [both.2] at taken
        cases taken

/-- A node that is online, with its ID, its key and its IPv6 address. -/
def sampleNode (id key ipv6Addr : Bytes) : Node :=
  ⟨id, some key, [], ipv6Addr, [], [], [], ascii "online", 0, 0⟩

/-- The table after the registration of one node with an address and one without. -/
def sampleNodes : NodeTable :=
  ((registerNode KeyedTable.empty (sampleNode [1] [1] [0xfd]) 1).2.registerNode
    (sampleNode [2] [2] []) 2).2

/-- Among other nodes, the node without an address is registered again with its key, and a third
one with an address of its own is registered too. -/
theorem registers_among_others :
    sampleNodes.rows.length = 2 ∧ sampleNodes.Registers (sampleNode [2] [2] []) 3 ∧
      sampleNodes.Registers (sampleNode [3] [3] [0xfe]) 3 := by
  refine ⟨by decide, ?_, ?_⟩
  · refine (registers_iff _ _ _ (fun row found => ?_) (.inl rfl)).mpr ⟨by decide, .inr ?_⟩
    · cases found
      rfl
    · decide
  · refine (registers_iff _ _ _ (fun row found => ?_) (.inr ?_)).mpr ⟨by decide, .inl (by decide)⟩
    · cases found
    · decide

/-- A second node without an address is refused, although its ID is unbound. -/
theorem secondNode_refused :
    sampleNodes.getNode [3] = none ∧
      (sampleNodes.registerNode (sampleNode [3] [3] []) 3).1 = .uniqueIPv6 := by
  decide

/-- Unbinding an ID erases its row, if it has one. -/
theorem unbindNodeID_snd (table : NodeTable) (id : Bytes) :
    (table.unbindNodeID id).2 = if table.find id = none then table else table.erase id := by
  unfold unbindNodeID
  cases table.find id with
  | none => simp only [↓reduceIte]
  | some row => simp only [reduceCtorEq, ↓reduceIte]

end NodeTable

end P2pMesh

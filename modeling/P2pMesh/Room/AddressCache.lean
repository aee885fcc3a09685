import P2pMesh.Foundation.Memo
import P2pMesh.Room.IPv4Allocator
import P2pMesh.Types.Addr

/-! # Cached keys and subnets

The calls of `IPv4Allocator` of `internal/room/ipv4_alloc.go`. `RoomKey` and `RoomSubnet` store
what they derive under the room ID alone and return it for every later call with that ID,
whatever its secrets and keys. The allocator is a memo table
(`P2pMesh.IPv4Allocator.returns_eq`), so it is transparent exactly if the calls for one room
derive one key and one subnet (`P2pMesh.IPv4Allocator.transparent_iff`). After a change of the
room key it is not (`P2pMesh.IPv4Allocator.rekeyed_not_transparent`).
-/

namespace P2pMesh

open Foundation

/-- `IPv4Allocator`, with its two caches. -/
structure IPv4Allocator where
  keys : Bytes → Option RoomKey
  subnets : Bytes → Option RoomSubnet

/-- `NewIPv4Allocator`. -/
def newIPv4Allocator : IPv4Allocator :=
  ⟨fun _ => none, fun _ => none⟩

namespace IPv4Allocator

/-- The calls of an allocator. -/
inductive Call where
  | roomKey (meshSecret roomID explicitKey : Bytes)
  | roomSubnet (roomID : Bytes) (key : RoomKey)
  | nodeIPv4Addr (nodeID : Bytes) (key : RoomKey)
  | nodeIPv6Addr (nodeID : Bytes) (key : RoomKey)
  | verifyNodeIPv4 (nodeID : Bytes) (key : RoomKey) (claimed : Bytes)
  | verifyNodeIPv6 (nodeID : Bytes) (key : RoomKey) (claimed : Bytes)

/-- What the calls return. -/
inductive Return where
  | key (k : RoomKey)
  | subnet (s : RoomSubnet)
  | addr (text : Except String Bytes)
  | verified (answer : Bool)

section Calls

variable (sha256 : Bytes → Sha256.Digest) (m : CaseMap)

/-- `RoomKey`. -/
def roomKey (a : IPv4Allocator) (meshSecret roomID explicitKey : Bytes) :
    RoomKey × IPv4Allocator :=
  match a.keys roomID with
  | some k => (k, a)
  | none =>
      let k := deriveRoomKey sha256 m meshSecret roomID explicitKey
      (k, { a with keys := Function.update a.keys roomID (some k) })

/-- `RoomSubnet`. -/
def roomSubnet (a : IPv4Allocator) (roomID : Bytes) (key : RoomKey) :
    RoomSubnet × IPv4Allocator :=
  match a.subnets roomID with
  | some s => (s, a)
  | none =>
      let s := deriveRoomSubnet sha256 key
      (s, { a with subnets := Function.update a.subnets roomID (some s) })

/-- `NodeIPv4Addr`. -/
def nodeIPv4Addr (nodeID : Bytes) (key : RoomKey) : Bytes :=
  (deriveNodeIPv4 sha256 m nodeID key).text

/-- `NodeIPv6Addr`. -/
def nodeIPv6Addr (nodeID : Bytes) (key : RoomKey) : Except String Bytes :=
  match deriveIPv6Addr sha256 m nodeID key with
  | .error cause => .error ("derive node ipv6: " ++ cause)
  | .ok addr => .ok addr.text

/-- `VerifyNodeIPv6`. -/
def verifyNodeIPv6 (nodeID : Bytes) (key : RoomKey) (claimed : Bytes) : Bool :=
  match deriveIPv6Addr sha256 m nodeID key with
  | .error _ => false
  | .ok expected => expected.text == claimed

/-- A call and the allocator after it. -/
def perform (a : IPv4Allocator) : Call → Return × IPv4Allocator
  | .roomKey meshSecret roomID explicitKey =>
      (a.roomKey sha256 m meshSecret roomID explicitKey).map .key id
  | .roomSubnet roomID key => (a.roomSubnet sha256 roomID key).map .subnet id
  | .nodeIPv4Addr nodeID key => (.addr (.ok (nodeIPv4Addr sha256 m nodeID key)), a)
  | .nodeIPv6Addr nodeID key => (.addr (nodeIPv6Addr sha256 m nodeID key), a)
  | .verifyNodeIPv4 nodeID key claimed =>
      (.verified (P2pMesh.verifyNodeIPv4 sha256 m nodeID key claimed), a)
  | .verifyNodeIPv6 nodeID key claimed =>
      (.verified (verifyNodeIPv6 sha256 m nodeID key claimed), a)

/-- What the calls return one after the other. -/
def returns (a : IPv4Allocator) : List Call → List Return
  | [] => []
  | call :: rest => (a.perform sha256 m call).1 :: returns (a.perform sha256 m call).2 rest

/-- What a call returns if nothing is cached. -/
def derived : Call → Return
  | .roomKey meshSecret roomID explicitKey =>
      .key (deriveRoomKey sha256 m meshSecret roomID explicitKey)
  | .roomSubnet _ key => .subnet (deriveRoomSubnet sha256 key)
  | .nodeIPv4Addr nodeID key => .addr (.ok (nodeIPv4Addr sha256 m nodeID key))
  | .nodeIPv6Addr nodeID key => .addr (nodeIPv6Addr sha256 m nodeID key)
  | .verifyNodeIPv4 nodeID key claimed =>
      .verified (P2pMesh.verifyNodeIPv4 sha256 m nodeID key claimed)
  | .verifyNodeIPv6 nodeID key claimed => .verified (verifyNodeIPv6 sha256 m nodeID key claimed)

/-- A call returns what it derives, and the addresses of nodes under the key for which a subnet
is asked are in the subnet that is returned. -/
def Serves (call : Call) (ret : Return) : Prop :=
  ret = derived sha256 m call ∧
    ∀ roomID key s, call = .roomSubnet roomID key → ret = .subnet s →
      ∀ nodeID, ∃ addr : NetAddr.Addr, nodeIPv4Addr sha256 m nodeID key = addr.text ∧
        s.Contains addr

/-- Every call of a run on a new allocator is served. -/
def Transparent (calls : List Call) : Prop :=
  List.Forall₂ (Serves sha256 m) calls (newIPv4Allocator.returns sha256 m calls)

end Calls

section Memoized

/-- What a call is cached under. -/
inductive Slot where
  | key (roomID : Bytes)
  | subnet (roomID : Bytes)
deriving DecidableEq

/-- The entry of a cache that a call reads. -/
def Call.slot : Call → Option Slot
  | .roomKey _ roomID _ => some (.key roomID)
  | .roomSubnet roomID _ => some (.subnet roomID)
  | _ => none

/-- The allocator as a memo table. -/
def memo (sha256 : Bytes → Sha256.Digest) (m : CaseMap) : Memo Call Slot Return :=
  ⟨Call.slot, derived sha256 m⟩

/-- Both caches as one table. -/
def table (a : IPv4Allocator) : Slot → Option Return
  | .key roomID => (a.keys roomID).map .key
  | .subnet roomID => (a.subnets roomID).map .subnet

variable {sha256 : Bytes → Sha256.Digest} {m : CaseMap}

theorem table_update_keys (a : IPv4Allocator) (roomID : Bytes) (k : RoomKey) :
    table { a with keys := Function.update a.keys roomID (some k) } =
      Function.update a.table (.key roomID) (some (.key k)) := by
  funext slot
  cases slot with
  | key other =>
      by_cases same : other = roomID
      · subst same
        simp [table]
      · simp [table, same]
  | subnet other => simp [table]

theorem table_update_subnets (a : IPv4Allocator) (roomID : Bytes) (s : RoomSubnet) :
    table { a with subnets := Function.update a.subnets roomID (some s) } =
      Function.update a.table (.subnet roomID) (some (.subnet s)) := by
  funext slot
  cases slot with
  | key other => simp [table]
  | subnet other =>
      by_cases same : other = roomID
      · subst same
        simp [table]
      · simp [table, same]

/-- A call on the allocator is the call on the memo table. -/
theorem perform_memo (a : IPv4Allocator) (call : Call) :
    (a.perform sha256 m call).map id table = (memo sha256 m).perform a.table call := by
  cases call with
  | roomKey meshSecret roomID explicitKey =>
      cases stored : a.keys roomID with
      | some k =>
          have held : a.table (.key roomID) = some (.key k) := by
            rw [table, stored, Option.map_some]
          rw [Memo.perform_of_stored rfl held]
          simp only [perform, roomKey, stored, Prod.map_apply, id_eq]
      | none =>
          have new : a.table (.key roomID) = none := by rw [table, stored, Option.map_none]
          rw [Memo.perform_of_new rfl new]
          simp only [perform, roomKey, stored, Prod.map_apply, id_eq, table_update_keys]
          rfl
  | roomSubnet roomID key =>
      cases stored : a.subnets roomID with
      | some s =>
          have held : a.table (.subnet roomID) = some (.subnet s) := by
            rw [table, stored, Option.map_some]
          rw [Memo.perform_of_stored rfl held]
          simp only [perform, roomSubnet, stored, Prod.map_apply, id_eq]
      | none =>
          have new : a.table (.subnet roomID) = none := by rw [table, stored, Option.map_none]
          rw [Memo.perform_of_new rfl new]
          simp only [perform, roomSubnet, stored, Prod.map_apply, id_eq, table_update_subnets]
          rfl
  | nodeIPv4Addr nodeID key => rfl
  | nodeIPv6Addr nodeID key => rfl
  | verifyNodeIPv4 nodeID key claimed => rfl
  | verifyNodeIPv6 nodeID key claimed => rfl

/-- The calls return what they return on the memo table. -/
theorem returns_eq (a : IPv4Allocator) (calls : List Call) :
    a.returns sha256 m calls = (memo sha256 m).returns a.table calls := by
  induction calls generalizing a with
  | nil => rfl
  | cons call rest ih =>
      rw [returns, Memo.returns, ← perform_memo, ih]
      rfl

end Memoized

variable {sha256 : Bytes → Sha256.Digest} {m : CaseMap}

/-- The derived subnet holds the addresses of the nodes, so a call is served if it returns what
it derives. -/
theorem serves_iff {call : Call} {ret : Return} :
    Serves sha256 m call ret ↔ ret = derived sha256 m call := by
  refine ⟨And.left, fun same => ⟨same, ?_⟩⟩
  rintro roomID key s rfl returned nodeID
  have subnet : s = deriveRoomSubnet sha256 key := Return.subnet.inj (returned.symm.trans same)
  rw [subnet]
  exact ⟨_, rfl, contains_deriveNodeIPv4 nodeID⟩

/-- The cache is transparent exactly if every call returns what is derived without a cache. -/
theorem transparent_iff_returns {calls : List Call} :
    Transparent sha256 m calls ↔
      newIPv4Allocator.returns sha256 m calls = calls.map (derived sha256 m) := by
  unfold Transparent
  generalize newIPv4Allocator.returns sha256 m calls = rets
  have relation : Serves sha256 m = fun call ret => ret = derived sha256 m call := by
    funext call ret
    exact propext serves_iff
  rw [relation, eq_comm, ← List.forall₂_eq_eq_eq, List.forall₂_map_left_iff]
  simp only [eq_comm]

/-- The allocator is transparent in a run exactly if the calls of `RoomKey` for one room ID
derive the same key, and the calls of `RoomSubnet` for one room ID the same subnet. -/
theorem transparent_iff (sha256 : Bytes → Sha256.Digest) (m : CaseMap) (calls : List Call) :
    Transparent sha256 m calls ↔
      (∀ roomID secret explicit secret' explicit', .roomKey secret roomID explicit ∈ calls →
        .roomKey secret' roomID explicit' ∈ calls →
        deriveRoomKey sha256 m secret roomID explicit =
          deriveRoomKey sha256 m secret' roomID explicit') ∧
      ∀ roomID key key', .roomSubnet roomID key ∈ calls → .roomSubnet roomID key' ∈ calls →
        deriveRoomSubnet sha256 key = deriveRoomSubnet sha256 key' := by
  have empty : newIPv4Allocator.table = fun _ => none := by
    funext slot
    cases slot <;> rfl
  rw [transparent_iff_returns, returns_eq, empty]
  refine (Memo.returns_eq_map_iff calls).trans ⟨fun agree => ⟨?_, ?_⟩, ?_⟩
  · intro roomID secret explicit secret' explicit' first second
    exact Return.key.inj (agree _ first _ second (.key roomID) rfl rfl)
  · intro roomID key key' first second
    exact Return.subnet.inj (agree _ first _ second (.subnet roomID) rfl rfl)
  · rintro ⟨keys, subnets⟩ first left second right slot own others
    -- Two calls share a slot only if both are of `RoomKey`, or both of `RoomSubnet`.
    cases first with
    | roomKey secret roomID explicit =>
        cases own
        cases second with
        | roomKey secret' roomID' explicit' =>
            cases others
            exact congrArg Return.key (keys _ _ _ _ _ left right)
        | _ => cases others
    | roomSubnet roomID key =>
        cases own
        cases second with
        | roomSubnet roomID' key' =>
            cases others
            exact congrArg Return.subnet (subnets _ _ _ left right)
        | _ => cases others
    | _ => cases own

/-- The key of a room with an operator's key, and with the next one. -/
def oldKey : RoomKey :=
  deriveRoomKey Sha256.sum256 .ascii [] (ascii "office") (ascii "old-key")

/-- The key of a room after its explicit key was changed. -/
def newKey : RoomKey :=
  deriveRoomKey Sha256.sum256 .ascii [] (ascii "office") (ascii "new-key")

/-- The key and the subnet of the room, before and after its key has changed. -/
def rekeyed : List Call :=
  [.roomKey [] (ascii "office") (ascii "old-key"), .roomSubnet (ascii "office") oldKey,
    .roomKey [] (ascii "office") (ascii "new-key"), .roomSubnet (ascii "office") newKey]

/-- The old key and the old subnet are returned for the new key, and the address of a node
under the new key is not in that subnet. -/
theorem rekeyed_not_transparent :
    ¬ Transparent Sha256.sum256 .ascii rekeyed ∧
      newIPv4Allocator.returns Sha256.sum256 .ascii rekeyed =
        [.key oldKey, .subnet (deriveRoomSubnet Sha256.sum256 oldKey), .key oldKey,
          .subnet (deriveRoomSubnet Sha256.sum256 oldKey)] ∧
      oldKey ≠ newKey ∧
      ¬ (deriveRoomSubnet Sha256.sum256 oldKey).Contains
        (deriveNodeIPv4 Sha256.sum256 .ascii (ascii "node-one") newKey) := by
  have indexes : saltedSubnetIndex Sha256.sum256 oldKey ≠
      saltedSubnetIndex Sha256.sum256 newKey := by decide +kernel
  have keys : oldKey ≠ newKey := fun same => indexes (congrArg _ same)
  have served : newIPv4Allocator.returns Sha256.sum256 .ascii rekeyed =
      [.key oldKey, .subnet (deriveRoomSubnet Sha256.sum256 oldKey), .key oldKey,
        .subnet (deriveRoomSubnet Sha256.sum256 oldKey)] := rfl
  refine ⟨fun transparent => ?_, served, keys, fun inside => ?_⟩
  · have returned := transparent_iff_returns.mp transparent
    rw [served] at returned
    simp only [rekeyed, List.map_cons, List.cons.injEq] at returned
    exact keys (Return.key.inj returned.2.2.1)
  · exact disjoint_deriveRoomSubnet indexes _ ⟨inside, contains_deriveNodeIPv4 (ascii "node-one")⟩

end IPv4Allocator

end P2pMesh

import P2pMesh.Dht.Key
import P2pMesh.Foundation.Transition
import Mathlib.Data.Finset.Card
import Mathlib.Data.List.FinRange
import Mathlib.Logic.Function.Basic

/-! # The routing table

`bucket` and `RoutingTable` of `internal/dht`: one bucket for each length of the prefix that a
key shares with the local one, made when the first node comes into it. After any calls of
`Add` and `Remove` each bucket has the nodes that belong to it, each once and at most twenty
(`P2pMesh.Dht.tableInvariant`), and the nodes of a later bucket are nearer to the local one
(`P2pMesh.Dht.nearer_in_later_bucket`).
-/

namespace P2pMesh.Dht

open Foundation

/-- `Node`. -/
structure Node where
  id : Bytes
  key : Key
  addr : Bytes
  lastSeen : Int
deriving DecidableEq

/-- `K`. -/
def bucketCapacity : Nat := 20

/-- The entries, the most recently seen one last. -/
abbrev Bucket := List Node

namespace Bucket

/-- `bucket.index`. -/
def index (b : Bucket) (id : Bytes) : Option Nat :=
  b.findIdx? fun n => n.id = id

/-- `bucket.seen`: the node moves to the end. -/
def seen (b : Bucket) (idx : Nat) (now : Int) : Bucket :=
  match b[idx]? with
  | none => b
  | some n => b.eraseIdx idx ++ [{ n with lastSeen := now }]

/-- `bucket.push`. -/
def push (b : Bucket) (n : Node) : Bucket :=
  b ++ [n]

/-- `bucket.full`. -/
def full (b : Bucket) : Bool :=
  bucketCapacity ≤ b.length

/-- `bucket.leastRecentlySeen`. -/
def leastRecentlySeen (b : Bucket) : Option Node :=
  b.head?

/-- `bucket.remove`. -/
def remove (b : Bucket) (id : Bytes) : Bool × Bucket :=
  match b.index id with
  | none => (false, b)
  | some i => (true, b.eraseIdx i)

end Bucket

/-- The key of the local node and the buckets; a bucket that no node came into is `none`. -/
structure RoutingTable where
  self : Key
  buckets : Fin keySizeBits → Option Bucket

/-- What `Add` refuses a node for. -/
inductive AddError where
  | nilNode
  | selfNode
deriving DecidableEq

/-- The texts of the errors. -/
def AddError.text : AddError → String
  | .nilNode => "dht: nil node"
  | .selfNode => "dht: cannot store the local node in its own table"

section

variable (sha256 : Bytes → Digest)

/-- `NewRoutingTable`. -/
def newRoutingTable (localID : Bytes) : RoutingTable :=
  ⟨keyForNodeID sha256 localID, fun _ => none⟩

namespace RoutingTable

variable (t : RoutingTable)

/-- `bucketFor`. -/
def bucketFor (k : Key) : Option (Fin keySizeBits) :=
  if inTable : t.self.commonPrefixLen k < keySizeBits then
    some ⟨t.self.commonPrefixLen k, inTable⟩
  else none

/-- The table with another bucket. -/
def setBucket (i : Fin keySizeBits) (b : Bucket) : RoutingTable :=
  { t with buckets := Function.update t.buckets i (some b) }

/-- `Has`. -/
def has (id : Bytes) : Key × Bool :=
  let k := keyForNodeID sha256 id
  match t.bucketFor k with
  | none => (k, true)
  | some i =>
      match t.buckets i with
      | none => (k, false)
      | some b => (k, (b.index id).isSome)

/-- `Add`, with the reading of the clock. -/
def add (n : Option Node) (now : Int) : Except AddError (Option Node) × RoutingTable :=
  match n with
  | none => (.error .nilNode, t)
  | some n =>
      let n := { n with key := keyForNodeID sha256 n.id }
      match t.bucketFor n.key with
      | none => (.error .selfNode, t)
      | some i =>
          let b := (t.buckets i).getD []
          match b.index n.id with
          | some idx => (.ok none, t.setBucket i (b.seen idx now))
          | none =>
              if !b.full then (.ok none, t.setBucket i (b.push n))
              else (.ok b.leastRecentlySeen, t.setBucket i b)

/-- `Remove`. -/
def remove (id : Bytes) : Bool × RoutingTable :=
  match t.bucketFor (keyForNodeID sha256 id) with
  | none => (false, t)
  | some i =>
      match t.buckets i with
      | none => (false, t)
      | some b => ((b.remove id).1, t.setBucket i (b.remove id).2)

/-- `Peers`. -/
def peers : List Node :=
  (List.finRange keySizeBits).flatMap fun i => (t.buckets i).getD []

/-- `Size`. -/
def size : Nat :=
  ((List.finRange keySizeBits).map fun i => ((t.buckets i).getD []).length).sum

/-- The IDs of the nodes in the table. -/
def storedIDs : List Bytes :=
  t.peers.map Node.id

end RoutingTable

/-- The calls that change a table. -/
inductive TableCall where
  | add (n : Option Node) (now : Int)
  | remove (id : Bytes)

/-- The table after a call. -/
def RoutingTable.perform (t : RoutingTable) : TableCall → RoutingTable
  | .add n now => (t.add sha256 n now).2
  | .remove id => (t.remove sha256 id).2

/-- A call as a step. -/
def TableStep (before : RoutingTable) (call : TableCall) (after : RoutingTable) : Prop :=
  before.perform sha256 call = after

/-- The nodes of a bucket: no more than it can have, with the keys of their IDs, at the
prefix length of the bucket, and each ID once. -/
structure Bucket.Sound (localKey : Key) (i : Nat) (b : Bucket) : Prop where
  length_le : b.length ≤ bucketCapacity
  keys : ∀ n ∈ b, n.key = keyForNodeID sha256 n.id ∧ localKey.commonPrefixLen n.key = i
  distinct : (b.map Node.id).Nodup

/-- Every bucket of the table is sound. -/
def RoutingTable.Sound (t : RoutingTable) : Prop :=
  ∀ i b, t.buckets i = some b → b.Sound sha256 t.self i

end

variable {sha256 : Bytes → Digest}

namespace Bucket.Sound

variable {localKey : Key} {i : Nat}

/-- The empty bucket is sound. -/
theorem empty : Bucket.Sound sha256 localKey i [] :=
  ⟨Nat.zero_le _, fun _ member => absurd member List.not_mem_nil, List.nodup_nil⟩

/-- Leaving nodes out keeps a bucket sound. -/
theorem sublist {b fewer : Bucket} (sound : b.Sound sha256 localKey i) (sub : fewer.Sublist b) :
    Bucket.Sound sha256 localKey i fewer :=
  ⟨sub.length_le.trans sound.length_le, fun n member => sound.keys n (sub.subset member),
    sound.distinct.sublist (sub.map Node.id)⟩

/-- Moving a node to the end keeps a bucket sound. -/
theorem seen {b : Bucket} (sound : b.Sound sha256 localKey i) (idx : Nat) (now : Int) :
    (b.seen idx now).Sound sha256 localKey i := by
  unfold Bucket.seen
  split
  · exact sound
  next n found =>
    obtain ⟨inRange, rfl⟩ := List.getElem?_eq_some_iff.mp found
    have moved : (b.eraseIdx idx ++ [{ b[idx] with lastSeen := now }]).map Node.id =
        (b.eraseIdx idx ++ [b[idx]]).map Node.id := by
      rw [List.map_append, List.map_append]
      rfl
    have order : (b.eraseIdx idx ++ [b[idx]]).Perm b :=
      (List.perm_append_singleton _ _).trans (List.getElem_cons_eraseIdx_perm inRange)
    refine ⟨?_, ?_, ?_⟩
    · have length := order.length_eq
      rw [List.length_append, List.length_singleton] at length ⊢
      exact length.le.trans sound.length_le
    · intro n member
      rcases List.mem_append.mp member with old | moved
      · exact sound.keys n ((List.eraseIdx_sublist b idx).subset old)
      · rw [List.mem_singleton.mp moved]
        exact sound.keys b[idx] (List.getElem_mem inRange)
    · rw [moved]
      exact (order.map Node.id).nodup_iff.mpr sound.distinct

/-- A new node keeps a bucket with room sound, if it belongs there. -/
theorem push {b : Bucket} (sound : b.Sound sha256 localKey i) (space : b.full = false) {n : Node}
    (fresh : b.index n.id = none) (key : n.key = keyForNodeID sha256 n.id)
    (place : localKey.commonPrefixLen n.key = i) : (b.push n).Sound sha256 localKey i := by
  refine ⟨?_, ?_, ?_⟩
  · rw [Bucket.push, List.length_append, List.length_singleton]
    exact Nat.succ_le_of_lt (Nat.not_le.mp (of_decide_eq_false space))
  · intro other member
    rcases List.mem_append.mp member with old | new
    · exact sound.keys other old
    · rw [List.mem_singleton.mp new]
      exact ⟨key, place⟩
  · rw [Bucket.push, List.map_append, List.map_singleton]
    apply List.Nodup.append sound.distinct (List.nodup_singleton _)
    intro id known new
    obtain ⟨other, member, same⟩ := List.mem_map.mp known
    exact of_decide_eq_false (List.findIdx?_eq_none_iff.mp fresh other member)
      (same.trans (List.mem_singleton.mp new))

end Bucket.Sound

/-- `index` finds the IDs of the bucket. -/
theorem Bucket.isSome_index_iff (b : Bucket) (id : Bytes) :
    (b.index id).isSome = true ↔ id ∈ b.map Node.id := by
  rw [index, List.findIdx?_isSome, List.any_eq_true, List.mem_map]
  simp only [decide_eq_true_iff]

/-- `index` finds nothing for an ID that is not in the bucket. -/
theorem Bucket.index_eq_none_iff (b : Bucket) (id : Bytes) :
    b.index id = none ↔ id ∉ b.map Node.id := by
  rw [← b.isSome_index_iff, Bool.not_eq_true, Option.isSome_eq_false_iff,
    Option.isNone_iff_eq_none]

/-- The place that `index` finds has a node with that ID. -/
theorem Bucket.getElem_of_index {b : Bucket} {id : Bytes} {idx : Nat}
    (known : b.index id = some idx) : ∃ old, b[idx]? = some old ∧ old.id = id := by
  obtain ⟨inRange, same, _⟩ := List.findIdx?_eq_some_iff_getElem.mp known
  exact ⟨b[idx], List.getElem?_eq_getElem inRange, of_decide_eq_true same⟩

namespace RoutingTable

variable {t : RoutingTable}

/-- The bucket of a key is the number of leading bits it shares with the local key. -/
theorem bucketFor_eq_some_iff {k : Key} {i : Fin keySizeBits} :
    t.bucketFor k = some i ↔ t.self.commonPrefixLen k = i := by
  unfold bucketFor
  split
  · rw [Option.some.injEq, Fin.ext_iff]
  next outside =>
    refine ⟨nofun, fun same => ?_⟩
    rw [same] at outside
    exact absurd i.isLt outside

/-- Only the local key has no bucket. -/
theorem bucketFor_eq_none_iff {k : Key} : t.bucketFor k = none ↔ k = t.self := by
  rw [eq_comm (a := k), ← commonPrefixLen_eq_iff]
  have bound := commonPrefixLen_le t.self k
  unfold bucketFor
  split
  next inTable => exact ⟨nofun, fun all => absurd all inTable.ne⟩
  next outside => exact ⟨fun _ => le_antisymm bound (Nat.not_lt.mp outside), fun _ => rfl⟩

theorem setBucket_self (i : Fin keySizeBits) (b : Bucket) :
    (t.setBucket i b).buckets i = some b := by
  simp only [setBucket, Function.update_self]

theorem setBucket_other {i place : Fin keySizeBits} (b : Bucket) (other : place ≠ i) :
    (t.setBucket i b).buckets place = t.buckets place := by
  simp only [setBucket, Function.update_of_ne other]

/-- Every bucket of a sound table is sound, also one that was never made. -/
theorem Sound.bucket (sound : t.Sound sha256) (i : Fin keySizeBits) :
    Bucket.Sound sha256 t.self i ((t.buckets i).getD []) := by
  cases found : t.buckets i with
  | none => exact .empty
  | some b => exact sound i b found

/-- Replacing a bucket by a sound one keeps the table sound. -/
theorem Sound.setBucket (sound : t.Sound sha256) {i : Fin keySizeBits} {b : Bucket}
    (bucket : b.Sound sha256 t.self i) : (t.setBucket i b).Sound sha256 := by
  intro place other found
  by_cases same : place = i
  · rw [same, setBucket_self] at found
    rw [same, ← Option.some.inj found]
    exact bucket
  · rw [setBucket_other b same] at found
    exact sound place other found

/-- Setting a bucket to what it is changes nothing. -/
theorem setBucket_eq_self {i : Fin keySizeBits} {b : Bucket} (found : t.buckets i = some b) :
    t.setBucket i b = t := by
  rw [setBucket, ← found, Function.update_eq_self]

/-- What an `Add` of a node does, and what it returns. -/
inductive AddEffect (sha256 : Bytes → Digest) (t : RoutingTable) (n : Node) (now : Int) :
    Except AddError (Option Node) × RoutingTable → Prop
  | isSelf (place : t.bucketFor (keyForNodeID sha256 n.id) = none) :
      AddEffect sha256 t n now (.error .selfNode, t)
  | refreshed {i : Fin keySizeBits} {b : Bucket} {idx : Nat}
      (place : t.bucketFor (keyForNodeID sha256 n.id) = some i) (found : t.buckets i = some b)
      (known : b.index n.id = some idx) :
      AddEffect sha256 t n now (.ok none, t.setBucket i (b.seen idx now))
  | stored {i : Fin keySizeBits} (place : t.bucketFor (keyForNodeID sha256 n.id) = some i)
      (unknown : ((t.buckets i).getD []).index n.id = none)
      (space : ((t.buckets i).getD []).full = false) :
      AddEffect sha256 t n now (.ok none,
        t.setBucket i (((t.buckets i).getD []).push { n with key := keyForNodeID sha256 n.id }))
  | candidate {i : Fin keySizeBits} {oldest : Node} {rest : Bucket}
      (place : t.bucketFor (keyForNodeID sha256 n.id) = some i)
      (found : t.buckets i = some (oldest :: rest))
      (unknown : Bucket.index (oldest :: rest) n.id = none)
      (full : Bucket.full (oldest :: rest) = true) :
      AddEffect sha256 t n now (.ok (some oldest), t)

/-- `Add` has one of the effects of `AddEffect`. -/
theorem add_effect (sha256 : Bytes → Digest) (t : RoutingTable) (n : Node) (now : Int) :
    t.AddEffect sha256 n now (t.add sha256 (some n) now) := by
  unfold RoutingTable.add
  simp only
  split
  next place => exact .isSelf place
  next i place =>
    split
    next idx known =>
      cases found : t.buckets i with
      | none =>
          rw [found] at known
          cases known
      | some b =>
          rw [found] at known
          exact .refreshed place found known
    next unknown =>
      split
      next space =>
        rw [Bool.not_eq_true'] at space
        exact .stored place unknown space
      next full =>
        -- a full bucket has been made, so putting it back changes nothing
        rw [Bool.not_eq_true', Bool.not_eq_false] at full
        cases found : t.buckets i with
        | none =>
            rw [found] at full
            exact absurd full (by decide)
        | some b =>
            rw [found, Option.getD_some] at full unknown
            cases b with
            | nil => exact absurd full (by decide)
            | cons oldest rest =>
                rw [Option.getD_some, setBucket_eq_self found]
                exact .candidate place found unknown full

/-- What a `Remove` does, and what it returns. -/
inductive RemoveEffect (sha256 : Bytes → Digest) (t : RoutingTable) (id : Bytes) :
    Bool × RoutingTable → Prop
  | absent : RemoveEffect sha256 t id (false, t)
  | removed {i : Fin keySizeBits} {b : Bucket} {idx : Nat}
      (place : t.bucketFor (keyForNodeID sha256 id) = some i) (found : t.buckets i = some b)
      (known : b.index id = some idx) :
      RemoveEffect sha256 t id (true, t.setBucket i (b.eraseIdx idx))

/-- `Remove` has one of the effects of `RemoveEffect`. -/
theorem remove_effect (sha256 : Bytes → Digest) (t : RoutingTable) (id : Bytes) :
    t.RemoveEffect sha256 id (t.remove sha256 id) := by
  unfold RoutingTable.remove
  split
  · exact .absent
  next i place =>
    split
    · exact .absent
    next b found =>
      unfold Bucket.remove
      split
      · rw [setBucket_eq_self found]
        exact .absent
      next idx known => exact .removed place found known

/-- Every effect of an `Add` keeps the table sound and the local key as it is. -/
theorem AddEffect.sound {n : Node} {now : Int}
    {result : Except AddError (Option Node) × RoutingTable}
    (effect : t.AddEffect sha256 n now result) (sound : t.Sound sha256) :
    result.2.Sound sha256 ∧ result.2.self = t.self := by
  cases effect with
  | isSelf => exact ⟨sound, rfl⟩
  | refreshed place found known =>
      exact ⟨sound.setBucket ((sound _ _ found).seen _ now), rfl⟩
  | stored place unknown space =>
      have there := bucketFor_eq_some_iff.mp place
      exact ⟨sound.setBucket ((sound.bucket _).push space unknown rfl there), rfl⟩
  | candidate => exact ⟨sound, rfl⟩

/-- Every effect of a `Remove` keeps the table sound and the local key as it is. -/
theorem RemoveEffect.sound {id : Bytes} {result : Bool × RoutingTable}
    (effect : t.RemoveEffect sha256 id result) (sound : t.Sound sha256) :
    result.2.Sound sha256 ∧ result.2.self = t.self := by
  cases effect with
  | absent => exact ⟨sound, rfl⟩
  | removed place found known =>
      exact ⟨sound.setBucket ((sound _ _ found).sublist (List.eraseIdx_sublist _ _)), rfl⟩

/-- Every call keeps the table sound and the local key as it is. -/
theorem sound_perform (sound : t.Sound sha256) (call : TableCall) :
    (t.perform sha256 call).Sound sha256 ∧ (t.perform sha256 call).self = t.self := by
  cases call with
  | add n now =>
      cases n with
      | none => exact ⟨sound, rfl⟩
      | some n => exact (t.add_effect sha256 n now).sound sound
  | remove id => exact (t.remove_effect sha256 id).sound sound

/-- An ID is stored if a bucket has it. -/
theorem mem_storedIDs_iff {id : Bytes} :
    id ∈ t.storedIDs ↔ ∃ i, id ∈ ((t.buckets i).getD []).map Node.id := by
  simp only [storedIDs, peers, List.map_flatMap, List.mem_flatMap, List.mem_finRange, true_and]

/-- An ID is in the bucket of its key. -/
theorem Sound.place (sound : t.Sound sha256) {id : Bytes} {i : Fin keySizeBits}
    (stored : id ∈ ((t.buckets i).getD []).map Node.id) :
    t.self.commonPrefixLen (keyForNodeID sha256 id) = i := by
  obtain ⟨n, member, rfl⟩ := List.mem_map.mp stored
  obtain ⟨key, place⟩ := (sound.bucket i).keys n member
  rw [← key]
  exact place

/-- A sound table stores every ID once. -/
theorem Sound.nodup_storedIDs (sound : t.Sound sha256) : t.storedIDs.Nodup := by
  rw [storedIDs, peers, List.map_flatMap, List.nodup_flatMap]
  refine ⟨fun i _ => (sound.bucket i).distinct, (List.nodup_finRange keySizeBits).imp ?_⟩
  intro i j differ id first second
  exact differ (Fin.ext ((sound.place first).symm.trans (sound.place second)))

/-- A sound table never stores an ID with the local key. -/
theorem Sound.self_not_stored (sound : t.Sound sha256) {id : Bytes}
    (isSelf : keyForNodeID sha256 id = t.self) : id ∉ t.storedIDs := by
  intro stored
  obtain ⟨i, member⟩ := mem_storedIDs_iff.mp stored
  exact ne_of_commonPrefixLen_eq (sound.place member) isSelf

/-- `Size` counts the stored IDs. -/
theorem size_eq_length : t.size = t.storedIDs.length := by
  rw [size, storedIDs, List.length_map, peers, List.length_flatMap]

/-- An ID is not in a bucket that is not the one of its key. -/
theorem Sound.other_bucket (sound : t.Sound sha256) {id : Bytes} {i j : Fin keySizeBits}
    (place : t.bucketFor (keyForNodeID sha256 id) = some i) (other : j ≠ i) :
    id ∉ ((t.buckets j).getD []).map Node.id := by
  intro stored
  exact other (Fin.ext ((sound.place stored).symm.trans (bucketFor_eq_some_iff.mp place)))

/-- A sound table has an ID in the bucket of its key or nowhere. -/
theorem Sound.stored_iff (sound : t.Sound sha256) {id : Bytes} {i : Fin keySizeBits}
    (place : t.bucketFor (keyForNodeID sha256 id) = some i) :
    id ∈ t.storedIDs ↔ id ∈ ((t.buckets i).getD []).map Node.id := by
  rw [mem_storedIDs_iff]
  refine ⟨fun ⟨j, member⟩ => ?_, fun member => ⟨i, member⟩⟩
  by_contra absent
  by_cases same : j = i
  · exact absent (same ▸ member)
  · exact sound.other_bucket place same member

/-- `Has` answers for the stored IDs and for the local key. -/
theorem Sound.has_iff (sound : t.Sound sha256) (id : Bytes) :
    (t.has sha256 id).2 = true ↔ id ∈ t.storedIDs ∨ keyForNodeID sha256 id = t.self := by
  unfold has
  simp only
  split
  next isSelf => exact ⟨fun _ => .inr (bucketFor_eq_none_iff.mp isSelf), fun _ => rfl⟩
  next i place =>
    have other : keyForNodeID sha256 id ≠ t.self := by
      intro isSelf
      rw [bucketFor_eq_none_iff.mpr isSelf] at place
      cases place
    rw [sound.stored_iff place, or_iff_left other]
    split
    next missing =>
      rw [missing]
      exact ⟨nofun, nofun⟩
    next b found => rw [found, Option.getD_some, Bucket.isSome_index_iff]

end RoutingTable

/-- A new table is sound. -/
theorem sound_newRoutingTable (localID : Bytes) :
    (newRoutingTable sha256 localID).Sound sha256 := by
  intro i b found
  cases found

/-- The table is sound after every run of calls, with the local key it was made with. -/
theorem RoutingTable.sound_of_reachable {localID : Bytes} {t : RoutingTable}
    (reached : Reachable (TableStep sha256) (newRoutingTable sha256 localID) t) :
    t.Sound sha256 ∧ t.self = keyForNodeID sha256 localID := by
  apply reached.invariant (fun t => t.Sound sha256 ∧ t.self = keyForNodeID sha256 localID)
  · exact ⟨sound_newRoutingTable localID, rfl⟩
  · rintro before call after ⟨sound, isLocal⟩ rfl
    obtain ⟨soundAfter, same⟩ := RoutingTable.sound_perform sound call
    exact ⟨soundAfter, same.trans isLocal⟩

/-- After any calls of `Add` and `Remove` the buckets are ordered by the distance from the
local node, the nearest nodes last. -/
theorem nearer_in_later_bucket {localID : Bytes} {t : RoutingTable}
    (reached : Reachable (TableStep sha256) (newRoutingTable sha256 localID) t)
    {i j : Fin keySizeBits} (later : i < j) {n m : Node} (early : n ∈ (t.buckets i).getD [])
    (late : m ∈ (t.buckets j).getD []) :
    (distance (keyForNodeID sha256 localID) m.key).less
      (distance (keyForNodeID sha256 localID) n.key) = true := by
  obtain ⟨sound, isLocal⟩ := RoutingTable.sound_of_reachable reached
  apply less_distance_of_commonPrefixLen_lt
  rw [← isLocal, ((sound.bucket i).keys n early).2, ((sound.bucket j).keys m late).2]
  exact later

/-- After any calls of `Add` and `Remove`. -/
theorem tableInvariant {localID : Bytes} {t : RoutingTable}
    (reached : Reachable (TableStep sha256) (newRoutingTable sha256 localID) t) :
    (∀ (i : Fin keySizeBits) (b : Bucket), t.buckets i = some b →
      b.length ≤ bucketCapacity ∧ ∀ n ∈ b, n.key = keyForNodeID sha256 n.id ∧
        (keyForNodeID sha256 localID).commonPrefixLen n.key = i) ∧
    t.storedIDs.Nodup ∧ localID ∉ t.storedIDs ∧ t.size = t.storedIDs.toFinset.card ∧
    ∀ id, (t.has sha256 id).2 = true ↔
      id ∈ t.storedIDs ∨ keyForNodeID sha256 id = keyForNodeID sha256 localID := by
  obtain ⟨sound, isLocal⟩ := RoutingTable.sound_of_reachable reached
  refine ⟨?_, sound.nodup_storedIDs, sound.self_not_stored isLocal.symm, ?_, ?_⟩
  · intro i b found
    rw [← isLocal]
    exact ⟨(sound i b found).length_le, (sound i b found).keys⟩
  · rw [List.toFinset_card_of_nodup sound.nodup_storedIDs, RoutingTable.size_eq_length]
  · intro id
    rw [← isLocal]
    exact sound.has_iff id

theorem length_padded (id : Bytes) : ((id ++ List.replicate 32 0).take 32).length = 32 := by
  rw [List.length_take, List.length_append, List.length_replicate]
  omega

/-- A digest for concrete tables: the ID, padded with zeros. -/
def paddedDigest (id : Bytes) : Digest :=
  ⟨(id ++ List.replicate 32 0).take 32, length_padded id⟩

/-- A node as a peer announces it, with its key left zero. -/
def announced (name : String) : Node :=
  ⟨ascii name, ⟨List.replicate 20 0, List.length_replicate⟩, ascii "ep-" ++ ascii name, 0⟩

/-- The table of `local` after `a` and `b` were added and `a` was added again. -/
def sampleTable : RoutingTable :=
  [.add (some (announced "a")) 1, .add (some (announced "b")) 2,
    .add (some (announced "a")) 3].foldl
    (RoutingTable.perform paddedDigest) (newRoutingTable paddedDigest (ascii "local"))

/-- The sample table is reached by its calls. -/
theorem sampleTable_reached :
    Reachable (TableStep paddedDigest) (newRoutingTable paddedDigest (ascii "local"))
      sampleTable :=
  Reachable.foldl (RoutingTable.perform paddedDigest) _ _

/-- The two nodes are stored once each, and the local node is known but not stored. -/
theorem sampleTable_invariant :
    sampleTable.storedIDs.Nodup ∧ ascii "local" ∉ sampleTable.storedIDs ∧
      sampleTable.size = sampleTable.storedIDs.toFinset.card ∧ sampleTable.size = 2 ∧
      (sampleTable.has paddedDigest (ascii "local")).2 = true := by
  obtain ⟨_, distinct, notLocal, size, known⟩ := tableInvariant sampleTable_reached
  exact ⟨distinct, notLocal, size, by decide +kernel, (known _).mpr (.inr rfl)⟩

end P2pMesh.Dht

import P2pMesh.Dht.Lookup

/-! # Buckets and the history of a table

What `Add` and `Remove` leave in the buckets is compared with the calls themselves. A bucket
has its nodes in the order of their last `Add` that returned no candidate and no error, so the
candidate of a full bucket is the one whose last such `Add` is oldest
(`P2pMesh.Dht.bucketsInOrder`). An `Add` of a known ID only moves its entry: the address that is
reported is that of the `Add` that stored the ID (`P2pMesh.Dht.reported_storedBy`).
-/

namespace P2pMesh.Dht

open Foundation

section

variable (sha256 : Bytes → Digest) (localID : Bytes)

/-- The table after a list of calls. -/
def tableAfter (calls : List TableCall) : RoutingTable :=
  calls.foldl (RoutingTable.perform sha256) (newRoutingTable sha256 localID)

/-- The call is an `Add` of the node that returns no candidate and no error. -/
def TableCall.Adds (t : RoutingTable) (call : TableCall) (n : Node) : Prop :=
  ∃ now, call = .add (some n) now ∧ (t.add sha256 (some n) now).1 = .ok none

/-- The call at the position is such an `Add`. -/
def AddedAt (calls : List TableCall) (k : Nat) (n : Node) : Prop :=
  ∃ call, calls[k]? = some call ∧ call.Adds sha256 (tableAfter sha256 localID (calls.take k)) n

/-- The position of the last such `Add` of an ID. -/
structure LastAdded (calls : List TableCall) (id : Bytes) (k : Nat) : Prop where
  added : ∃ n, AddedAt sha256 localID calls k n ∧ n.id = id
  last : ∀ l n, AddedAt sha256 localID calls l n → n.id = id → l ≤ k

/-- The nodes have been added, and stand in the order of their last additions. -/
structure RecencyOrder (calls : List TableCall) (b : Bucket) : Prop where
  added : ∀ n ∈ b, ∃ k, LastAdded sha256 localID calls n.id k
  ordered : b.Pairwise fun n m => ∀ k l, LastAdded sha256 localID calls n.id k →
    LastAdded sha256 localID calls m.id l → k < l

/-- All buckets of the table are in that order. -/
def BucketsInOrder (calls : List TableCall) : Prop :=
  ∀ i, RecencyOrder sha256 localID calls (((tableAfter sha256 localID calls).buckets i).getD [])

/-- The `Add` that stored the ID had the address: the ID was not stored before it, and has been
stored ever since. -/
def StoredBy (calls : List TableCall) (id addr : Bytes) : Prop :=
  ∃ before m now later, calls = before ++ .add (some m) now :: later ∧
    m.id = id ∧ m.addr = addr ∧
    ((tableAfter sha256 localID before).add sha256 (some m) now).1 = .ok none ∧
    id ∉ (tableAfter sha256 localID before).storedIDs ∧
    ∀ mid rest, later = mid ++ rest →
      id ∈ (tableAfter sha256 localID (before ++ .add (some m) now :: mid)).storedIDs

end

variable {sha256 : Bytes → Digest} {localID : Bytes} {calls : List TableCall} {call : TableCall}

/-- One more call is performed on the table of those before it. -/
theorem tableAfter_append (calls : List TableCall) (call : TableCall) :
    tableAfter sha256 localID (calls ++ [call]) =
      (tableAfter sha256 localID calls).perform sha256 call := by
  rw [tableAfter, List.foldl_append]
  rfl

/-- The table is sound after every list of calls. -/
theorem sound_tableAfter (calls : List TableCall) :
    (tableAfter sha256 localID calls).Sound sha256 :=
  (RoutingTable.sound_of_reachable (Reachable.foldl (RoutingTable.perform sha256) _ calls)).1

/-! ### The last addition of an ID -/

/-- Only a call that was made can have added a node. -/
theorem AddedAt.lt_length {k : Nat} {n : Node} (added : AddedAt sha256 localID calls k n) :
    k < calls.length := by
  obtain ⟨call, atK, _⟩ := added
  exact (List.getElem?_eq_some_iff.mp atK).1

/-- What was added by one more call was added before or by this call. -/
theorem addedAt_append_iff {k : Nat} {n : Node} :
    AddedAt sha256 localID (calls ++ [call]) k n ↔
      AddedAt sha256 localID calls k n ∨
        (k = calls.length ∧ call.Adds sha256 (tableAfter sha256 localID calls) n) := by
  unfold AddedAt
  rcases Nat.lt_trichotomy k calls.length with before | here | beyond
  · rw [List.getElem?_append_left before, List.take_append_of_le_length before.le]
    simp only [before.ne, false_and, or_false]
  · subst here
    simp
  · rw [List.getElem?_eq_none (by rw [List.length_append, List.length_singleton]; omega),
      List.getElem?_eq_none beyond.le]
    simp [beyond.ne']

/-- A call that does not add the ID leaves its last addition. -/
theorem lastAdded_append_other {id : Bytes}
    (other : ∀ n, call.Adds sha256 (tableAfter sha256 localID calls) n → n.id ≠ id) (k : Nat) :
    LastAdded sha256 localID (calls ++ [call]) id k ↔ LastAdded sha256 localID calls id k := by
  have same (l : Nat) (n : Node) (named : n.id = id) :
      AddedAt sha256 localID (calls ++ [call]) l n ↔ AddedAt sha256 localID calls l n := by
    rw [addedAt_append_iff, or_iff_left]
    rintro ⟨_, adds⟩
    exact other n adds named
  constructor
  · rintro ⟨⟨n, added, named⟩, last⟩
    refine ⟨⟨n, (same k n named).mp added, named⟩, fun l m earlier named => ?_⟩
    exact last l m ((same l m named).mpr earlier) named
  · rintro ⟨⟨n, added, named⟩, last⟩
    refine ⟨⟨n, (same k n named).mpr added, named⟩, fun l m earlier named => ?_⟩
    exact last l m ((same l m named).mp earlier) named

/-- A call that adds the ID is its last addition. -/
theorem lastAdded_append_own {n : Node}
    (adds : call.Adds sha256 (tableAfter sha256 localID calls) n) (k : Nat) :
    LastAdded sha256 localID (calls ++ [call]) n.id k ↔ k = calls.length := by
  have here : AddedAt sha256 localID (calls ++ [call]) calls.length n :=
    addedAt_append_iff.mpr (.inr ⟨rfl, adds⟩)
  have bound (l : Nat) (m : Node) (added : AddedAt sha256 localID (calls ++ [call]) l m) :
      l ≤ calls.length := by
    have inRange := added.lt_length
    rw [List.length_append, List.length_singleton] at inRange
    exact Nat.le_of_lt_succ inRange
  constructor
  · rintro ⟨⟨m, added, _⟩, last⟩
    exact le_antisymm (bound k m added) (last _ n here rfl)
  · rintro rfl
    exact ⟨⟨n, here, rfl⟩, fun l m added _ => bound l m added⟩

/-- A call adds one node at most. -/
theorem TableCall.Adds.unique {t : RoutingTable} {n m : Node} (first : call.Adds sha256 t n)
    (second : call.Adds sha256 t m) : m = n := by
  obtain ⟨_, rfl, _⟩ := first
  obtain ⟨_, same, _⟩ := second
  cases same
  rfl

namespace RecencyOrder

variable {b : Bucket}

/-- Leaving nodes out keeps the others in order. -/
theorem sublist {fewer : Bucket} (order : RecencyOrder sha256 localID calls b)
    (sub : fewer.Sublist b) : RecencyOrder sha256 localID calls fewer :=
  ⟨fun n member => order.added n (sub.subset member), order.ordered.sublist sub⟩

/-- A call that adds none of the nodes. -/
theorem append_other (order : RecencyOrder sha256 localID calls b)
    (other : ∀ m, call.Adds sha256 (tableAfter sha256 localID calls) m → m.id ∉ b.map Node.id) :
    RecencyOrder sha256 localID (calls ++ [call]) b := by
  have same (n : Node) (member : n ∈ b) (k : Nat) :
      LastAdded sha256 localID (calls ++ [call]) n.id k ↔ LastAdded sha256 localID calls n.id k :=
    lastAdded_append_other (fun m adds named => other m adds
      (List.mem_map.mpr ⟨n, member, named.symm⟩)) k
  refine ⟨fun n member => ?_, ?_⟩
  · obtain ⟨k, last⟩ := order.added n member
    exact ⟨k, (same n member k).mpr last⟩
  · refine order.ordered.imp_of_mem fun {n m} left right earlier k l lastN lastM => ?_
    exact earlier k l ((same n left k).mp lastN) ((same m right l).mp lastM)

/-- A node that is added goes to the end. -/
theorem concat {n x : Node} (order : RecencyOrder sha256 localID calls b)
    (adds : call.Adds sha256 (tableAfter sha256 localID calls) n) (named : x.id = n.id)
    (absent : n.id ∉ b.map Node.id) :
    RecencyOrder sha256 localID (calls ++ [call]) (b ++ [x]) := by
  have kept : RecencyOrder sha256 localID (calls ++ [call]) b :=
    order.append_other fun m other => adds.unique other ▸ absent
  have now := lastAdded_append_own adds
  rw [← named] at now
  refine ⟨fun m member => ?_, ?_⟩
  · rcases List.mem_append.mp member with old | new
    · exact kept.added m old
    · rw [List.mem_singleton.mp new]
      exact ⟨_, (now _).mpr rfl⟩
  · refine List.pairwise_append.mpr ⟨kept.ordered, List.pairwise_singleton _ _, ?_⟩
    intro m old y new k l lastM lastY
    rw [List.mem_singleton.mp new] at lastY
    rw [(now l).mp lastY]
    have differs : n.id ≠ m.id := fun same => absent (List.mem_map.mpr ⟨m, old, same.symm⟩)
    have earlier := (lastAdded_append_other
      (fun a other => (adds.unique other).symm ▸ differs) k).mp lastM
    obtain ⟨_, added, _⟩ := earlier.added
    exact added.lt_length

end RecencyOrder

/-! ### One call -/

/-- A node that is seen again goes to the end of its bucket, with the new time. -/
theorem Bucket.seen_eq {b : Bucket} {id : Bytes} {idx : Nat} (known : b.index id = some idx)
    (now : Int) : ∃ old ∈ b, old.id = id ∧
      b.seen idx now = b.eraseIdx idx ++ [{ old with lastSeen := now }] := by
  obtain ⟨old, entry, same⟩ := Bucket.getElem_of_index known
  refine ⟨old, List.mem_of_getElem? entry, same, ?_⟩
  rw [Bucket.seen, entry]

/-- The rest of a bucket does not have the ID of the entry that is moved. -/
theorem Bucket.Sound.notMem_eraseIdx {localKey : Key} {i : Nat} {b : Bucket}
    (sound : b.Sound sha256 localKey i) {id : Bytes} {idx : Nat} (known : b.index id = some idx) :
    id ∉ (b.eraseIdx idx).map Node.id := by
  obtain ⟨old, -, rfl, moved⟩ := Bucket.seen_eq known 0
  have distinct := (sound.seen idx 0).distinct
  rw [moved, List.map_append] at distinct
  intro member
  exact List.disjoint_of_nodup_append distinct member (List.mem_singleton_self _)

/-- An `Add` adds the node it is called with, exactly if it returns neither a candidate nor an
error. -/
theorem adds_add_iff {t : RoutingTable} {n m : Node} {now : Int} :
    (TableCall.add (some n) now).Adds sha256 t m ↔
      m = n ∧ (t.add sha256 (some n) now).1 = .ok none := by
  constructor
  · rintro ⟨_, same, returned⟩
    cases same
    exact ⟨rfl, returned⟩
  · rintro ⟨rfl, returned⟩
    exact ⟨now, rfl, returned⟩

/-- A bucket that exists is in the order of the last additions. -/
theorem BucketsInOrder.bucket (order : BucketsInOrder sha256 localID calls) {i : Fin keySizeBits}
    {b : Bucket} (found : (tableAfter sha256 localID calls).buckets i = some b) :
    RecencyOrder sha256 localID calls b := by
  have inOrder := order i
  rwa [found] at inOrder

/-- The call leaves the nodes of all buckets but one, to which the node that it adds, if any,
belongs. -/
theorem BucketsInOrder.setBucket (order : BucketsInOrder sha256 localID calls)
    {i : Fin keySizeBits} {b : Bucket}
    (after : tableAfter sha256 localID (calls ++ [call]) =
      (tableAfter sha256 localID calls).setBucket i b)
    (own : RecencyOrder sha256 localID (calls ++ [call]) b)
    (elsewhere : ∀ m, call.Adds sha256 (tableAfter sha256 localID calls) m →
      (tableAfter sha256 localID calls).bucketFor (keyForNodeID sha256 m.id) = some i) :
    BucketsInOrder sha256 localID (calls ++ [call]) := by
  intro j
  rw [after]
  by_cases same : j = i
  · rw [same, RoutingTable.setBucket_self]
    exact own
  · rw [RoutingTable.setBucket_other b same]
    exact (order j).append_other fun m adds =>
      (sound_tableAfter calls).other_bucket (elsewhere m adds) same

/-- The call changes nothing. -/
theorem BucketsInOrder.idle (order : BucketsInOrder sha256 localID calls)
    (after : tableAfter sha256 localID (calls ++ [call]) = tableAfter sha256 localID calls)
    (none : ∀ m, ¬ call.Adds sha256 (tableAfter sha256 localID calls) m) :
    BucketsInOrder sha256 localID (calls ++ [call]) := by
  intro i
  rw [after]
  exact (order i).append_other fun m adds => absurd adds (none m)

/-- `Add` keeps the buckets in order, whatever it does with the node. -/
theorem BucketsInOrder.add (order : BucketsInOrder sha256 localID calls) (n : Node) (now : Int) :
    BucketsInOrder sha256 localID (calls ++ [.add (some n) now]) := by
  have sound : (tableAfter sha256 localID calls).Sound sha256 := sound_tableAfter calls
  have after : tableAfter sha256 localID (calls ++ [.add (some n) now]) =
      ((tableAfter sha256 localID calls).add sha256 (some n) now).2 := tableAfter_append _ _
  have adds (m : Node) : (TableCall.add (some n) now).Adds sha256
      (tableAfter sha256 localID calls) m ↔
        m = n ∧ ((tableAfter sha256 localID calls).add sha256 (some n) now).1 = .ok none :=
    adds_add_iff
  have effect := (tableAfter sha256 localID calls).add_effect sha256 n now
  generalize (tableAfter sha256 localID calls).add sha256 (some n) now = result at *
  cases effect with
  | isSelf place => exact order.idle after fun m added => nomatch ((adds m).mp added).2
  | refreshed place found known =>
      obtain ⟨old, -, same, moved⟩ := Bucket.seen_eq known now
      refine order.setBucket after ?_ fun m added => ((adds m).mp added).1 ▸ place
      rw [moved]
      exact ((order.bucket found).sublist (List.eraseIdx_sublist _ _)).concat
        ((adds n).mpr ⟨rfl, rfl⟩) same ((sound _ _ found).notMem_eraseIdx known)
  | stored place unknown space =>
      refine order.setBucket after ?_ fun m added => ((adds m).mp added).1 ▸ place
      exact (order _).concat ((adds n).mpr ⟨rfl, rfl⟩) rfl
        ((Bucket.index_eq_none_iff _ _).mp unknown)
  | candidate place found unknown full =>
      exact order.idle after fun m added => nomatch ((adds m).mp added).2

/-- `Remove` keeps the buckets in order. -/
theorem BucketsInOrder.remove (order : BucketsInOrder sha256 localID calls) (id : Bytes) :
    BucketsInOrder sha256 localID (calls ++ [.remove id]) := by
  have after : tableAfter sha256 localID (calls ++ [.remove id]) =
      ((tableAfter sha256 localID calls).remove sha256 id).2 := tableAfter_append _ _
  have none (m : Node) :
      ¬ (TableCall.remove id).Adds sha256 (tableAfter sha256 localID calls) m := nofun
  have effect := (tableAfter sha256 localID calls).remove_effect sha256 id
  generalize (tableAfter sha256 localID calls).remove sha256 id = result at *
  cases effect with
  | absent => exact order.idle after none
  | removed place found known =>
      refine order.setBucket after ?_ fun m added => absurd added (none m)
      exact ((order.bucket found).sublist (List.eraseIdx_sublist _ _)).append_other
        fun m added => absurd added (none m)

/-- After any calls. -/
theorem bucketsInOrder_of_calls (calls : List TableCall) : BucketsInOrder sha256 localID calls := by
  induction calls using List.reverseRecOn with
  | nil =>
      intro i
      exact ⟨fun _ member => absurd member List.not_mem_nil, List.Pairwise.nil⟩
  | append_singleton calls call order =>
      cases call with
      | add n now =>
          cases n with
          | none => exact order.idle (tableAfter_append _ _) nofun
          | some n => exact order.add n now
      | remove id => exact order.remove id

/-- After any calls of `Add` and `Remove`, each bucket has its nodes in the order of their last
`Add` that returned no candidate and no error. An `Add` of an unknown ID that meets a full
bucket returns the node whose last such `Add` is oldest and leaves every bucket. -/
theorem bucketsInOrder (sha256 : Bytes → Digest) (localID : Bytes) (calls : List TableCall) :
    (∀ i b, (tableAfter sha256 localID calls).buckets i = some b →
      RecencyOrder sha256 localID calls b) ∧
    ∀ (n : Node) (now : Int) (i : Fin keySizeBits) (b : Bucket),
      (tableAfter sha256 localID calls).bucketFor (keyForNodeID sha256 n.id) = some i →
      (tableAfter sha256 localID calls).buckets i = some b → b.full = true →
      n.id ∉ (tableAfter sha256 localID calls).storedIDs →
        ∃ oldest ∈ b,
          ((tableAfter sha256 localID calls).add sha256 (some n) now).1 = .ok (some oldest) ∧
          (∃ k, LastAdded sha256 localID calls oldest.id k ∧
            ∀ other ∈ b, ∀ l, LastAdded sha256 localID calls other.id l → k ≤ l) ∧
          ((tableAfter sha256 localID calls).add sha256 (some n) now).2.buckets =
            (tableAfter sha256 localID calls).buckets := by
  have order : BucketsInOrder sha256 localID calls := bucketsInOrder_of_calls calls
  refine ⟨fun i b => order.bucket, fun n now i b place found full unknown => ?_⟩
  have absent : b.index n.id = none := by
    rw [(sound_tableAfter calls).stored_iff place, found] at unknown
    exact (Bucket.index_eq_none_iff _ _).mpr unknown
  have effect := (tableAfter sha256 localID calls).add_effect sha256 n now
  generalize (tableAfter sha256 localID calls).add sha256 (some n) now = result at *
  -- The bucket is full and does not know the node, so `Add` can only return the head as a
  -- candidate.
  cases effect with
  | isSelf nowhere => exact nomatch nowhere.symm.trans place
  | refreshed there other known =>
      cases Option.some.inj (place.symm.trans there)
      cases Option.some.inj (found.symm.trans other)
      exact nomatch absent.symm.trans known
  | stored there _ space =>
      cases Option.some.inj (place.symm.trans there)
      rw [found] at space
      exact nomatch full.symm.trans space
  | @candidate _ oldest rest there other _ _ =>
      cases Option.some.inj (place.symm.trans there)
      cases Option.some.inj (found.symm.trans other)
      obtain ⟨added, ordered⟩ := order.bucket found
      obtain ⟨k, last⟩ := added oldest List.mem_cons_self
      refine ⟨oldest, List.mem_cons_self, rfl, ⟨k, last, fun node member l later => ?_⟩, rfl⟩
      rcases List.mem_cons.mp member with rfl | behind
      · obtain ⟨n, atK, named⟩ := last.added
        exact later.last k n atK named
      · exact ((List.pairwise_cons.mp ordered).1 node behind k l last later).le

/-- Twenty nodes of one bucket are added, and the first of them again: the second one is the
candidate. -/
example :
    let named (i : Nat) : Node := { announced "" with id := [UInt8.ofNat (128 + i)] }
    let calls := (List.range 20).map fun i => TableCall.add (some (named i)) i
    (((tableAfter paddedDigest (ascii "local") (calls ++ [.add (some (named 0)) 20])).add
      paddedDigest (some (named 20)) 21).1.toOption.join.map Node.id) = some (named 1).id := by
  decide +kernel

/-! ### The address of an entry -/

namespace RoutingTable

variable {t : RoutingTable}

/-- The peers are the nodes of the buckets. -/
theorem mem_peers_iff {n : Node} : n ∈ t.peers ↔ ∃ i, n ∈ (t.buckets i).getD [] := by
  simp only [peers, List.mem_flatMap, List.mem_finRange, true_and]

/-- Replacing a bucket brings in the nodes of the new one only. -/
theorem mem_peers_setBucket {i : Fin keySizeBits} {b : Bucket} {n : Node}
    (member : n ∈ (t.setBucket i b).peers) : n ∈ b ∨ n ∈ t.peers := by
  obtain ⟨j, found⟩ := mem_peers_iff.mp member
  by_cases same : j = i
  · rw [same, setBucket_self] at found
    exact .inl found
  · rw [setBucket_other b same] at found
    exact .inr (mem_peers_iff.mpr ⟨j, found⟩)

/-- An entry after an `Add` has the ID and the address of one before it, or it is the node that
was stored. -/
theorem AddEffect.origin (sound : t.Sound sha256) {n x : Node} {now : Int}
    {result : Except AddError (Option Node) × RoutingTable}
    (effect : t.AddEffect sha256 n now result) (member : x ∈ result.2.peers) :
    (∃ old ∈ t.peers, old.id = x.id ∧ old.addr = x.addr) ∨
      (result.1 = .ok none ∧ n.id ∉ t.storedIDs ∧ n.id = x.id ∧ n.addr = x.addr) := by
  have kept {x : Node} (before : x ∈ t.peers) :
      ∃ old ∈ t.peers, old.id = x.id ∧ old.addr = x.addr := ⟨x, before, rfl, rfl⟩
  cases effect with
  | isSelf => exact .inl (kept member)
  | refreshed place found known =>
      refine .inl ?_
      have inTable {y : Node} (listed : y ∈ _) : y ∈ t.peers :=
        mem_peers_iff.mpr ⟨_, by rw [found]; exact listed⟩
      rcases mem_peers_setBucket member with moved | elsewhere
      · obtain ⟨old, listed, -, eq⟩ := Bucket.seen_eq known now
        rw [eq] at moved
        rcases List.mem_append.mp moved with other | last
        · exact kept (inTable ((List.eraseIdx_sublist _ _).subset other))
        · rw [List.mem_singleton.mp last]
          exact ⟨old, inTable listed, rfl, rfl⟩
      · exact kept elsewhere
  | @stored i place unknown space =>
      rcases mem_peers_setBucket member with here | elsewhere
      · rcases List.mem_append.mp here with other | new
        · exact .inl (kept (mem_peers_iff.mpr ⟨i, other⟩))
        · refine .inr ⟨rfl, ?_, ?_, ?_⟩
          · rw [sound.stored_iff place]
            exact (Bucket.index_eq_none_iff _ _).mp unknown
          · rw [List.mem_singleton.mp new]
          · rw [List.mem_singleton.mp new]
      · exact .inl (kept elsewhere)
  | candidate => exact .inl (kept member)

/-- `Remove` brings no peer in. -/
theorem RemoveEffect.mem_peers {id : Bytes} {x : Node} {result : Bool × RoutingTable}
    (effect : t.RemoveEffect sha256 id result) (member : x ∈ result.2.peers) : x ∈ t.peers := by
  cases effect with
  | absent => exact member
  | removed place found known =>
      rcases mem_peers_setBucket member with left | elsewhere
      · exact mem_peers_iff.mpr ⟨_, by rw [found]; exact (List.eraseIdx_sublist _ _).subset left⟩
      · exact elsewhere

end RoutingTable

/-- An ID that is still stored was stored by the same call. -/
theorem StoredBy.append {id addr : Bytes} (storedBy : StoredBy sha256 localID calls id addr)
    (call : TableCall) (kept : id ∈ (tableAfter sha256 localID (calls ++ [call])).storedIDs) :
    StoredBy sha256 localID (calls ++ [call]) id addr := by
  obtain ⟨before, m, now, later, rfl, named, address, accepted, absent, since⟩ := storedBy
  refine ⟨before, m, now, later ++ [call], by simp, named, address, accepted, absent, ?_⟩
  intro mid rest eq
  rcases List.eq_nil_or_concat rest with rfl | ⟨rest, last, rfl⟩
  · rw [List.append_nil] at eq
    rw [← eq]
    simpa using kept
  · rw [List.concat_eq_append, ← List.append_assoc] at eq
    exact since mid rest (List.append_inj' eq rfl).1

/-- After any calls, `Peers` and `Nearest` report for an ID the address of the `Add` that stored
it, whatever addresses the later ones gave. -/
theorem reported_storedBy (sha256 : Bytes → Digest) (localID : Bytes) (calls : List TableCall)
    (sorter : SliceSort) (target : Key) (k : Nat) (n : Node)
    (reported : n ∈ (tableAfter sha256 localID calls).peers ∨
      n ∈ (tableAfter sha256 localID calls).nearest sorter target k) :
    StoredBy sha256 localID calls n.id n.addr := by
  have listed : n ∈ (tableAfter sha256 localID calls).peers :=
    reported.elim id RoutingTable.mem_nearest
  clear reported
  induction calls using List.reverseRecOn generalizing n with
  | nil =>
      obtain ⟨i, nothing⟩ := RoutingTable.mem_peers_iff.mp listed
      cases nothing
  | append_singleton calls call ih =>
      have extend (old : Node) (before : old ∈ (tableAfter sha256 localID calls).peers)
          (sameID : old.id = n.id) (sameAddr : old.addr = n.addr) :
          StoredBy sha256 localID (calls ++ [call]) n.id n.addr := by
        have storedBy := ih old before
        rw [sameID, sameAddr] at storedBy
        exact storedBy.append call (List.mem_map_of_mem listed)
      rw [tableAfter_append] at listed
      cases call with
      | add m now =>
          cases m with
          | none => exact extend n listed rfl rfl
          | some m =>
              rcases (RoutingTable.add_effect sha256 _ m now).origin (sound_tableAfter calls) listed
                with ⟨old, before, sameID, sameAddr⟩ | ⟨accepted, absent, sameID, sameAddr⟩
              · exact extend old before sameID sameAddr
              · refine ⟨calls, m, now, [], rfl, sameID, sameAddr, accepted, sameID ▸ absent, ?_⟩
                intro mid rest eq
                rw [(List.append_eq_nil_iff.mp eq.symm).1, tableAfter_append]
                exact List.mem_map_of_mem listed
      | remove id =>
          exact extend n ((RoutingTable.remove_effect sha256 _ id).mem_peers listed) rfl rfl

/-- The node `a` is added, and added again at a new address. -/
def movedCalls : List TableCall :=
  [.add (some (announced "a")) 1, .add (some { announced "a" with addr := ascii "ep-new" }) 2]

/-- A node that is added again keeps the endpoint that it was first stored with. -/
theorem movedCalls_storedBy :
    StoredBy paddedDigest (ascii "local") movedCalls (ascii "a") (ascii "ep-a") := by
  refine reported_storedBy paddedDigest (ascii "local") movedCalls insertionSorter
    (keyForNodeID paddedDigest (ascii "a")) 1
    ⟨ascii "a", keyForNodeID paddedDigest (ascii "a"), ascii "ep-a", 2⟩ (.inl ?_)
  decide +kernel

/-- Both calls return no candidate and no error; the old address is reported. -/
theorem movedCalls_stale :
    AddedAt paddedDigest (ascii "local") movedCalls 1
      { announced "a" with addr := ascii "ep-new" } ∧
    ((tableAfter paddedDigest (ascii "local") movedCalls).peers.map fun n => (n.id, n.addr)) =
      [(ascii "a", ascii "ep-a")] := by
  refine ⟨⟨_, rfl, 2, rfl, ?_⟩, ?_⟩
  · decide +kernel
  · decide +kernel

end P2pMesh.Dht

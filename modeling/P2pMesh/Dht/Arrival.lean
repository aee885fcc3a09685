import P2pMesh.Dht.Lookup
import P2pMesh.Foundation.Shortlist

/-! # The arrival order of answers

Two runs of one lookup in which the answers of each round arrive in different orders, and in
which `sort.Slice` may treat ties differently. When the IDs that a node answers with depend
only on its ID, both return the same IDs in the same order and query the same nodes
(`P2pMesh.Dht.found_of_arrival`): after each round the shortlist is that of all nodes accepted
up to then.
-/

namespace P2pMesh.Dht

open Foundation

/-- A record that a lookup can come to: one of the table, or one in the answer of such a
record. -/
inductive Node.Occurs (t : RoutingTable) (query : Query) (target : Key) : Node → Prop
  | stored {n : Node} (member : n ∈ t.peers) : Node.Occurs t query target n
  | answered {source n : Node} (asked : Node.Occurs t query target source)
      (answer : some n ∈ query source target) : Node.Occurs t query target n

/-- Records of answers have the keys of their IDs, and different IDs that occur have different
keys. -/
structure KeyedApart (sha256 : Bytes → Digest) (t : RoutingTable) (query : Query)
    (target : Key) : Prop where
  authentic : ∀ source n : Node, source.Occurs t query target → some n ∈ query source target →
    n.key = keyForNodeID sha256 n.id
  distinct : ∀ n m : Node, n.Occurs t query target → m.Occurs t query target →
    keyForNodeID sha256 n.id = keyForNodeID sha256 m.id → n.id = m.id

/-- The IDs that a node answers with are the same for all records of its ID that occur, whatever
address they have and whenever the node was seen. -/
def AnswersByID (t : RoutingTable) (query : Query) (target : Key) : Prop :=
  ∀ n m : Node, n.Occurs t query target → m.Occurs t query target → n.id = m.id →
    ∀ x, some x ∈ query n target → ∃ y, some y ∈ query m target ∧ y.id = x.id

/-- A record that occurs, with the key of its ID. -/
structure Node.Known (sha256 : Bytes → Digest) (t : RoutingTable) (query : Query) (target : Key)
    (n : Node) : Prop where
  key : n.key = keyForNodeID sha256 n.id
  occurs : n.Occurs t query target

/-- Two states of a lookup with the same IDs, where the shortlist is one of some set. -/
structure Search.Agree (sha256 : Bytes → Digest) (t : RoutingTable) (f : Finder)
    (s u : Search) : Prop where
  queried : s.queried = u.queried
  ids : s.best.map Node.id = u.best.map Node.id
  known : (∀ n ∈ s.best, n.Known sha256 t f.query f.target) ∧
    ∀ n ∈ u.best, n.Known sha256 t f.query f.target
  short : ∃ ranks, s.best.map (Node.rank f.target) = shortlist f.k ranks

variable {sha256 : Bytes → Digest} {t : RoutingTable} {f : Finder}

/-- Among the records that occur, only those of one ID are equally far from the target. -/
theorem KeyedApart.rank_eq_iff {query : Query} {target : Key}
    (apart : KeyedApart sha256 t query target) {n m : Node} (known : n.Known sha256 t query target)
    (other : m.Known sha256 t query target) : n.rank target = m.rank target ↔ n.id = m.id := by
  constructor
  · intro same
    apply apart.distinct _ _ known.occurs other.occurs
    rw [← known.key, ← other.key]
    exact distance_injective target (toNat_injective same)
  · intro same
    rw [Node.rank, Node.rank, known.key, other.key, same]

/-- Nodes at the same distances have the same IDs. -/
theorem KeyedApart.ids_eq_iff {query : Query} {target : Key}
    (apart : KeyedApart sha256 t query target) {first second : List Node}
    (known : ∀ n ∈ first, n.Known sha256 t query target)
    (other : ∀ n ∈ second, n.Known sha256 t query target) :
    first.map (Node.rank target) = second.map (Node.rank target) ↔
      first.map Node.id = second.map Node.id := by
  induction first generalizing second with
  | nil => rw [List.map_nil, List.map_nil, List.nil_eq, List.nil_eq, List.map_eq_nil_iff,
      List.map_eq_nil_iff]
  | cons n rest ih =>
      cases second with
      | nil => exact ⟨nofun, nofun⟩
      | cons m more =>
          rw [List.map_cons, List.map_cons, List.map_cons, List.map_cons, List.cons.injEq,
            List.cons.injEq, apart.rank_eq_iff (known n List.mem_cons_self)
              (other m List.mem_cons_self),
            ih (fun n member => known n (List.mem_cons_of_mem _ member))
              (fun n member => other n (List.mem_cons_of_mem _ member))]

/-- Merging a node into a shortlist gives the shortlist with its distance. -/
theorem Finder.merge_ranks (apart : KeyedApart sha256 t f.query f.target) {best : List Node}
    (known : ∀ n ∈ best, n.Known sha256 t f.query f.target) {n : Node}
    (added : n.Known sha256 t f.query f.target) {ranks : Finset Nat}
    (short : best.map (Node.rank f.target) = shortlist f.k ranks) :
    (f.merge best n).map (Node.rank f.target) =
      shortlist f.k (insert (n.rank f.target) ranks) := by
  have listed : (best.any fun e => e.id = n.id) = true ↔
      n.rank f.target ∈ best.map (Node.rank f.target) := by
    rw [List.any_eq_true, List.mem_map]
    constructor
    · rintro ⟨e, member, same⟩
      exact ⟨e, member, (apart.rank_eq_iff (known e member) added).mpr (of_decide_eq_true same)⟩
    · rintro ⟨e, member, same⟩
      exact ⟨e, member, decide_eq_true ((apart.rank_eq_iff (known e member) added).mp same)⟩
  rw [Finder.merge, mergeBest]
  split
  next present =>
    have member := listed.mp present
    rw [short] at member
    rw [Finset.insert_eq_of_mem (mem_of_mem_shortlist member), short]
  next absent =>
    rw [List.map_take]
    apply take_eq_shortlist_insert ((f.sorter f.target).pairwise_map _)
    · have order := ((f.sorter f.target).perm (best ++ [n])).map (Node.rank f.target)
      rwa [List.map_append, short] at order
    · rw [← short]
      exact fun member => absent (listed.mpr member)

/-- The shortlist after a list of records has the smallest distances of all that were merged,
whatever their order. -/
theorem Finder.foldl_merge_ranks (apart : KeyedApart sha256 t f.query f.target)
    {nodes best : List Node} (known : ∀ n ∈ best, n.Known sha256 t f.query f.target)
    (added : ∀ n ∈ nodes, n.Known sha256 t f.query f.target) {ranks : Finset Nat}
    (short : best.map (Node.rank f.target) = shortlist f.k ranks) :
    (nodes.foldl f.merge best).map (Node.rank f.target) =
      shortlist f.k ((nodes.map (Node.rank f.target)).toFinset ∪ ranks) := by
  induction nodes generalizing best ranks with
  | nil => rw [List.foldl_nil, List.map_nil, List.toFinset_nil, Finset.empty_union, short]
  | cons n rest ih =>
      have first := added n List.mem_cons_self
      have merged : ∀ other ∈ f.merge best n, other.Known sha256 t f.query f.target := by
        intro other member
        rcases mem_mergeBest member with old | rfl
        · exact known other old
        · exact first
      rw [List.foldl_cons, ih merged (fun other more => added other (List.mem_cons_of_mem _ more))
        (merge_ranks apart known first short), List.map_cons, List.toFinset_cons,
        Finset.union_insert, Finset.insert_union]

/-- Which IDs a round queries depends on the IDs of the shortlist only. -/
theorem Finder.todo_ids (f : Finder) (s : Search) :
    (f.todo s).map Node.id =
      ((s.best.map Node.id).filter fun id => id ∉ s.queried).take f.alpha := by
  rw [Finder.todo, List.map_take, List.filter_map]
  rfl

/-- A round queries nodes of the shortlist. -/
theorem Finder.mem_best_of_mem_todo {s : Search} {n : Node} (asked : n ∈ f.todo s) : n ∈ s.best :=
  List.mem_of_mem_filter (List.mem_of_mem_take asked)

/-- The same lookup with another order of ties and of answers. -/
def Finder.reorder (f : Finder) (sorter : SliceSort) (arrival : Arrival) : Finder :=
  { f with sorter := sorter, arrival := arrival }

section

variable {sorter : SliceSort} {arrival : Arrival} {s u : Search} {queried : List Bytes}

/-- A node that one run accepts has its like in the other. -/
theorem Finder.exists_accepted (apart : KeyedApart sha256 t f.query f.target)
    (byID : AnswersByID t f.query f.target)
    (known : ∀ n ∈ s.best, n.Known sha256 t f.query f.target)
    (other : ∀ n ∈ u.best, n.Known sha256 t f.query f.target) (i : Nat)
    (ids : (f.todo s).map Node.id = ((f.reorder sorter arrival).todo u).map Node.id) {x : Node}
    (member : x ∈ f.accepted queried (f.answers i s)) :
    ∃ y ∈ (f.reorder sorter arrival).accepted queried ((f.reorder sorter arrival).answers i u),
      y.id = x.id ∧ y.key = x.key := by
  obtain ⟨arrived, unqueried, foreign⟩ := f.mem_accepted_iff.mp member
  obtain ⟨source, asked, answer⟩ := f.mem_answers_iff.mp arrived
  have asksID : source.id ∈ ((f.reorder sorter arrival).todo u).map Node.id := by
    rw [← ids]
    exact List.mem_map_of_mem asked
  obtain ⟨like, likeAsked, same⟩ := List.mem_map.mp asksID
  have occurs := (known source (mem_best_of_mem_todo asked)).occurs
  have likeOccurs := (other like (mem_best_of_mem_todo likeAsked)).occurs
  obtain ⟨y, likeAnswer, sameID⟩ := byID source like occurs likeOccurs same.symm x answer
  have sameKey : y.key = x.key := by
    rw [apart.authentic _ _ likeOccurs likeAnswer, sameID, ← apart.authentic _ _ occurs answer]
  refine ⟨y, Finder.mem_accepted_iff _ |>.mpr ⟨?_, ?_, ?_⟩, sameID, sameKey⟩
  · exact (Finder.mem_answers_iff _).mpr ⟨like, likeAsked, likeAnswer⟩
  · rw [sameID]
    exact unqueried
  · rw [sameKey]
    exact foreign

/-- The distances that one run accepts are among those of the other. -/
theorem Finder.accepted_ranks_subset (sorter : SliceSort) (arrival : Arrival)
    (apart : KeyedApart sha256 t f.query f.target) (byID : AnswersByID t f.query f.target)
    (known : ∀ n ∈ s.best, n.Known sha256 t f.query f.target)
    (other : ∀ n ∈ u.best, n.Known sha256 t f.query f.target) (i : Nat)
    (ids : (f.todo s).map Node.id = ((f.reorder sorter arrival).todo u).map Node.id) :
    ((f.accepted queried (f.answers i s)).map (Node.rank f.target)).toFinset ⊆
      (((f.reorder sorter arrival).accepted queried
        ((f.reorder sorter arrival).answers i u)).map (Node.rank f.target)).toFinset := by
  intro rank ranked
  obtain ⟨x, member, rfl⟩ := List.mem_map.mp (List.mem_toFinset.mp ranked)
  obtain ⟨y, accepted, _, sameKey⟩ := f.exists_accepted apart byID known other i ids member
  rw [List.mem_toFinset]
  refine List.mem_map.mpr ⟨y, accepted, ?_⟩
  rw [Node.rank, Node.rank, sameKey]

/-- Both runs accept nodes at the same distances. -/
theorem Finder.accepted_ranks (apart : KeyedApart sha256 t f.query f.target)
    (byID : AnswersByID t f.query f.target)
    (known : ∀ n ∈ s.best, n.Known sha256 t f.query f.target)
    (other : ∀ n ∈ u.best, n.Known sha256 t f.query f.target) (queried : List Bytes) (i : Nat)
    (ids : (f.todo s).map Node.id = ((f.reorder sorter arrival).todo u).map Node.id) :
    ((f.accepted queried (f.answers i s)).map (Node.rank f.target)).toFinset =
      (((f.reorder sorter arrival).accepted queried
        ((f.reorder sorter arrival).answers i u)).map (Node.rank f.target)).toFinset := by
  apply Finset.Subset.antisymm
    (f.accepted_ranks_subset sorter arrival apart byID known other i ids)
  -- the first run is the second one reordered back
  exact (f.reorder sorter arrival).accepted_ranks_subset f.sorter f.arrival apart byID other known
    i ids.symm

/-- A round progresses if it accepts a node. -/
theorem Finder.round_snd (f : Finder) (i : Nat) (s : Search) :
    (f.round i s).2 = !(f.accepted (f.queriedBy s) (f.answers i s)).isEmpty := by
  rw [Finder.round, f.foldl_absorb, Bool.false_or]

/-- The records that are accepted occur, if those of the shortlist do. -/
theorem Finder.known_of_accepted (apart : KeyedApart sha256 t f.query f.target)
    (known : ∀ n ∈ s.best, n.Known sha256 t f.query f.target) (queried : List Bytes) (i : Nat) :
    ∀ x ∈ f.accepted queried (f.answers i s), x.Known sha256 t f.query f.target := by
  intro x member
  obtain ⟨source, asked, answer⟩ := f.mem_answers_iff.mp (f.mem_accepted_iff.mp member).1
  have occurs := (known source (mem_best_of_mem_todo asked)).occurs
  exact ⟨apart.authentic source x occurs answer, .answered occurs answer⟩

/-- Nodes at the same distances are none, or some in both lists. -/
theorem isEmpty_of_ranks {target : Key} {first second : List Node}
    (same : (first.map (Node.rank target)).toFinset = (second.map (Node.rank target)).toFinset) :
    first.isEmpty = second.isEmpty := by
  rw [Bool.eq_iff_iff, List.isEmpty_iff, List.isEmpty_iff,
    ← List.map_eq_nil_iff (f := Node.rank target), ← List.toFinset_eq_empty_iff, same,
    List.toFinset_eq_empty_iff, List.map_eq_nil_iff]

end

namespace Search.Agree

variable {s u : Search} (sorter : SliceSort) (arrival : Arrival)

/-- Two lookups that agree query the same IDs next. -/
theorem todo_ids (agree : s.Agree sha256 t f u) :
    (f.todo s).map Node.id = ((f.reorder sorter arrival).todo u).map Node.id := by
  rw [f.todo_ids, Finder.todo_ids, agree.ids, agree.queried]
  rfl

/-- Two lookups that agree have queried the same IDs after the round. -/
theorem queriedBy (agree : s.Agree sha256 t f u) :
    f.queriedBy s = (f.reorder sorter arrival).queriedBy u := by
  rw [Finder.queriedBy, Finder.queriedBy, agree.queried, agree.todo_ids sorter arrival]

/-- A round keeps the agreement, and both runs progress or neither. -/
theorem round (agree : s.Agree sha256 t f u) (apart : KeyedApart sha256 t f.query f.target)
    (byID : AnswersByID t f.query f.target) (i : Nat) :
    (f.round i s).1.Agree sha256 t f ((f.reorder sorter arrival).round i u).1 ∧
      (f.round i s).2 = ((f.reorder sorter arrival).round i u).2 := by
  obtain ⟨ranks, short⟩ := agree.short
  obtain ⟨known, other⟩ := agree.known
  have alsoShort : u.best.map (Node.rank f.target) = shortlist f.k ranks := by
    rw [← short, (apart.ids_eq_iff known other).mpr agree.ids]
  have accepted := f.accepted_ranks apart byID known other (f.queriedBy s) i
    (agree.todo_ids sorter arrival)
  have added := f.known_of_accepted apart known (f.queriedBy s) i
  have alsoAdded := (f.reorder sorter arrival).known_of_accepted apart other (f.queriedBy s) i
  have left := f.foldl_merge_ranks apart known added short
  have right := (f.reorder sorter arrival).foldl_merge_ranks apart other alsoAdded alsoShort
  have best := f.round_fst_best i s
  have alsoBest := (f.reorder sorter arrival).round_fst_best i u
  rw [← agree.queriedBy sorter arrival] at alsoBest
  have stays := f.foldl_merge_forall known added
  have alsoStays := (f.reorder sorter arrival).foldl_merge_forall other alsoAdded
  rw [← best] at left stays
  rw [← alsoBest] at right alsoStays
  refine ⟨⟨agree.queriedBy sorter arrival, ?_, ⟨stays, alsoStays⟩, ⟨_, left⟩⟩, ?_⟩
  · apply (apart.ids_eq_iff stays alsoStays).mp
    rw [left, accepted]
    exact right.symm
  · rw [f.round_snd, Finder.round_snd, ← agree.queriedBy sorter arrival, isEmpty_of_ranks accepted]

/-- Both runs end with the same IDs. -/
theorem loop (apart : KeyedApart sha256 t f.query f.target)
    (byID : AnswersByID t f.query f.target) (rounds i : Nat) (agree : s.Agree sha256 t f u) :
    (f.loop rounds i s).Agree sha256 t f ((f.reorder sorter arrival).loop rounds i u) := by
  induction rounds generalizing i s u with
  | zero => exact agree
  | succ rounds ih =>
      obtain ⟨next, progress⟩ := agree.round sorter arrival apart byID i
      have idle : (f.todo s).isEmpty = ((f.reorder sorter arrival).todo u).isEmpty := by
        rw [← List.isEmpty_map (f := Node.id), agree.todo_ids sorter arrival, List.isEmpty_map]
      rw [Finder.loop, Finder.loop, ← idle, ← progress]
      split
      · exact agree
      · split
        · exact ih (i + 1) next
        · exact next

end Search.Agree

/-- The nodes of a sound table are known. -/
theorem known_of_stored {query : Query} {target : Key} (sound : t.Sound sha256) {n : Node}
    (member : n ∈ t.peers) : n.Known sha256 t query target :=
  ⟨(sound.mem_peers member).1, .stored member⟩

/-- The first shortlist is that of the table, whatever the order of ties. -/
theorem nearest_ranks {query : Query} {target : Key} (sound : t.Sound sha256)
    (apart : KeyedApart sha256 t query target) (sorter : SliceSort) (k : Nat) :
    (filterSelf (t.nearest sorter target k) t.self).map (Node.rank target) =
      shortlist k (t.peers.map (Node.rank target)).toFinset := by
  have order := ((sorter target).perm t.peers).map (Node.rank target)
  have distinct : (t.peers.map (Node.rank target)).Nodup := by
    have ids := sound.nodup_storedIDs
    rw [RoutingTable.storedIDs, List.Nodup, List.pairwise_map] at ids
    rw [List.Nodup, List.pairwise_map]
    apply ids.imp_of_mem
    intro a b left right differ same
    exact differ ((apart.rank_eq_iff (known_of_stored sound left)
      (known_of_stored sound right)).mp same)
  rw [filterSelf, List.filter_eq_self.mpr]
  · rw [RoutingTable.nearest, List.map_take, take_eq_shortlist ((sorter target).pairwise_map _)
      (order.nodup_iff.mpr distinct), List.toFinset_eq_of_perm _ _ order]
  · intro n member
    exact decide_eq_true (sound.mem_peers (RoutingTable.mem_nearest member)).2

/-- The answers of a lookup may arrive in any order. If, among the records of the table and of
answers, those of answers have the keys of their IDs, different IDs have different keys, and the
IDs that a node answers with depend on its ID only, then the IDs that are found and the IDs that
are queried are the same. -/
theorem found_of_arrival {localID : Bytes}
    (reached : Reachable (TableStep sha256) (newRoutingTable sha256 localID) t)
    (params : LookupParams) {query : Query} {target : Key}
    (apart : KeyedApart sha256 t query target) (byID : AnswersByID t query target)
    (sorter alsoSorter : SliceSort) (arrival alsoArrival : Arrival) :
    ∃ s u, (Lookup.mk (some t) (some query) params).find sorter arrival target = .ok s ∧
      (Lookup.mk (some t) (some query) params).find alsoSorter alsoArrival target = .ok u ∧
      s.best.map Node.id = u.best.map Node.id ∧ s.queried = u.queried := by
  obtain ⟨sound, _⟩ := RoutingTable.sound_of_reachable reached
  have first := nearest_ranks sound apart sorter params.withDefaults.k.toNat
  have second := nearest_ranks sound apart alsoSorter params.withDefaults.k.toNat
  have known (sorter : SliceSort) : ∀ n ∈ filterSelf
      (t.nearest sorter target params.withDefaults.k.toNat) t.self, n.Known sha256 t query target :=
    fun n member => known_of_stored sound (RoutingTable.mem_nearest (List.mem_of_mem_filter member))
  have start : Search.Agree sha256 t (Lookup.finder params sorter arrival query t target)
      ⟨filterSelf (t.nearest sorter target params.withDefaults.k.toNat) t.self, []⟩
      ⟨filterSelf (t.nearest alsoSorter target params.withDefaults.k.toNat) t.self, []⟩ := by
    refine ⟨rfl, ?_, ⟨known sorter, known alsoSorter⟩, ⟨_, first⟩⟩
    exact (apart.ids_eq_iff (known sorter) (known alsoSorter)).mp (first.trans second.symm)
  have final := start.loop alsoSorter alsoArrival apart byID params.withDefaults.maxRounds.toNat 0
  exact ⟨_, _, rfl, rfl, final.ids, final.queried⟩

/-- A record with the key of its ID, at an address. -/
def recordAt (name addr : String) : Node :=
  ⟨ascii name, keyForNodeID paddedDigest (ascii name), ascii addr, 0⟩

/-- Nodes `a` and `b` know `x` at different addresses, and at the first one it knows `y`. -/
def addressQuery : Query := fun n _ =>
  if n.id = ascii "a" then [some (recordAt "x" "1")]
  else if n.id = ascii "b" then [some (recordAt "x" "2")]
  else if n.id = ascii "x" ∧ n.addr = ascii "1" then [some (recordAt "y" "3")]
  else []

/-- The answers of a round arrive in the reverse order of the queries. -/
def inReverse : Arrival :=
  ⟨fun _ answers => answers.reverse, fun _ answers => answers.reverse_perm⟩

/-- Queries in the sample table that are answered with records of a few names. -/
theorem keyedApart_sample {query : Query} {target : Key}
    (answers : ∀ source n, some n ∈ query source target →
      n = recordAt "x" "1" ∨ n = recordAt "x" "2" ∨ n = recordAt "y" "3") :
    KeyedApart paddedDigest sampleTable query target := by
  have named {n : Node} (occurs : n.Occurs sampleTable query target) :
      n.id ∈ [ascii "a", ascii "b", ascii "x", ascii "y"] := by
    cases occurs with
    | stored member =>
        have all : ∀ n ∈ sampleTable.peers,
            n.id ∈ [ascii "a", ascii "b", ascii "x", ascii "y"] := by decide +kernel
        exact all n member
    | answered _ answer =>
        rcases answers _ n answer with rfl | rfl | rfl
        · decide
        · decide
        · decide
  refine ⟨fun source n _ answer => ?_, fun n m left right same => ?_⟩
  · rcases answers source n answer with rfl | rfl | rfl
    · rfl
    · rfl
    · rfl
  · have apart : ∀ a ∈ [ascii "a", ascii "b", ascii "x", ascii "y"],
        ∀ b ∈ [ascii "a", ascii "b", ascii "x", ascii "y"],
          keyForNodeID paddedDigest a = keyForNodeID paddedDigest b → a = b := by decide
    exact apart n.id (named left) m.id (named right) same

/-- The record of `x` that arrives first decides at which address it is asked, and so whether
`y` is found. -/
theorem firstArrival_decides :
    KeyedApart paddedDigest sampleTable addressQuery (keyForNodeID paddedDigest (ascii "x")) ∧
    ∃ s u, (Lookup.mk (some sampleTable) (some addressQuery) ⟨0, 0, 0⟩).find insertionSorter
        inOrder (keyForNodeID paddedDigest (ascii "x")) = .ok s ∧
      (Lookup.mk (some sampleTable) (some addressQuery) ⟨0, 0, 0⟩).find insertionSorter
        inReverse (keyForNodeID paddedDigest (ascii "x")) = .ok u ∧
      s.best.map Node.id ≠ u.best.map Node.id ∧ ascii "y" ∈ s.queried ∧ ascii "y" ∉ u.queried := by
  refine ⟨keyedApart_sample ?_, _, _, rfl, rfl, by decide +kernel, by decide +kernel,
    by decide +kernel⟩
  intro source n answer
  unfold addressQuery at answer
  split at answer
  · exact .inl (Option.some.inj (List.mem_singleton.mp answer))
  · split at answer
    · exact .inr (.inl (Option.some.inj (List.mem_singleton.mp answer)))
    · split at answer
      · exact .inr (.inr (Option.some.inj (List.mem_singleton.mp answer)))
      · cases answer

/-- A transport that dials the address of a record: who is there answers, with `x` and `y` at
the addresses of the table and with `y` at the address that is told for `x`. -/
def dialQuery : Query := fun n _ =>
  if n.addr = ascii "ep-a" ∨ n.addr = ascii "ep-b" then
    [some (recordAt "x" "1"), some (recordAt "y" "3")]
  else if n.addr = ascii "1" then [some (recordAt "y" "3")]
  else []

/-- The records of each ID that occur with this transport have one address. -/
theorem dialQuery_address {target : Key} {n : Node}
    (occurs : n.Occurs sampleTable dialQuery target) :
    (n.id, n.addr) ∈ [(ascii "a", ascii "ep-a"), (ascii "b", ascii "ep-b"),
      (ascii "x", ascii "1"), (ascii "y", ascii "3")] := by
  cases occurs with
  | stored member =>
      have all : ∀ n ∈ sampleTable.peers, (n.id, n.addr) ∈ [(ascii "a", ascii "ep-a"),
          (ascii "b", ascii "ep-b"), (ascii "x", ascii "1"), (ascii "y", ascii "3")] := by
        decide +kernel
      exact all n member
  | answered _ answer =>
      unfold dialQuery at answer
      split at answer
      · rcases List.mem_cons.mp answer with first | second
        · rw [Option.some.inj first]
          decide
        · rw [Option.some.inj (List.mem_singleton.mp second)]
          decide
      · split at answer
        · rw [Option.some.inj (List.mem_singleton.mp answer)]
          decide
        · cases answer

/-- A transport that dials addresses, in a network that tells one address of each node: the order
of the answers makes no difference. -/
theorem sameAnswers_found :
    ∃ s u, (Lookup.mk (some sampleTable) (some dialQuery) ⟨0, 0, 0⟩).find
          insertionSorter inOrder (keyForNodeID paddedDigest (ascii "x")) = .ok s ∧
      (Lookup.mk (some sampleTable) (some dialQuery) ⟨0, 0, 0⟩).find
          insertionSorter inReverse (keyForNodeID paddedDigest (ascii "x")) = .ok u ∧
      s.best.map Node.id = u.best.map Node.id ∧ s.queried = u.queried := by
  apply found_of_arrival sampleTable_reached ⟨0, 0, 0⟩
  · apply keyedApart_sample
    intro source n answer
    unfold dialQuery at answer
    split at answer
    · rcases List.mem_cons.mp answer with first | second
      · exact .inl (Option.some.inj first)
      · exact .inr (.inr (Option.some.inj (List.mem_singleton.mp second)))
    · split at answer
      · exact .inr (.inr (Option.some.inj (List.mem_singleton.mp answer)))
      · cases answer
  · intro n m left right same x answer
    have addresses : ∀ p ∈ [(ascii "a", ascii "ep-a"), (ascii "b", ascii "ep-b"),
        (ascii "x", ascii "1"), (ascii "y", ascii "3")], ∀ q ∈ [(ascii "a", ascii "ep-a"),
        (ascii "b", ascii "ep-b"), (ascii "x", ascii "1"), (ascii "y", ascii "3")],
        p.1 = q.1 → p.2 = q.2 := by decide
    have sameAddress : n.addr = m.addr :=
      addresses _ (dialQuery_address left) _ (dialQuery_address right) same
    refine ⟨x, ?_, rfl⟩
    rw [dialQuery, ← sameAddress]
    exact answer

end P2pMesh.Dht

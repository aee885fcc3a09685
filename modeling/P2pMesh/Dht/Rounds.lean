import P2pMesh.Dht.Arrival

/-! # The rounds of a lookup

`Nearest` returns the nodes of the table that are nearest to the target
(`P2pMesh.Dht.nearestExact_iff`). From there on the shortlist of a lookup has at most `K` nodes in
the order of their distances, each ID once and each node from the table or from an answer, and
no ID is queried twice (`P2pMesh.Dht.shortlistInvariant`).

A lookup stops when all nodes of the shortlist have been queried, when a round brings no node
that can be queried, or when the rounds are used up (`P2pMesh.Dht.queried_or_stalled`). In the
second case nodes of the shortlist may be left that were not queried.
-/

namespace P2pMesh.Dht

open Foundation

variable {sha256 : Bytes → Digest} {t : RoutingTable}

/-! ### The nearest nodes of a table -/

/-- The order of the distances is that of the exclusive or of the keys. -/
theorem pairwise_xor {target : Key} {nodes : List Node}
    (sorted : (nodes.map (Node.rank target)).Pairwise (· ≤ ·)) :
    nodes.Pairwise fun a b => target.toNat ^^^ a.key.toNat ≤ target.toNat ^^^ b.key.toNat := by
  refine (List.pairwise_map.mp sorted).imp fun {a b} closer => ?_
  rw [← toNat_distance, ← toNat_distance]
  exact closer

namespace RoutingTable

variable (sorter : SliceSort) (target : Key) (n : Nat)

/-- `Nearest` returns the peers in the order of their distances. -/
theorem nearest_sorted :
    ((t.nearest sorter target n).map (Node.rank target)).Pairwise (· ≤ ·) := by
  rw [nearest, List.map_take]
  exact ((sorter target).pairwise_map t.peers).sublist (List.take_sublist _ _)

/-- `Nearest` returns as many peers as were asked for, or all of them. -/
theorem length_nearest : (t.nearest sorter target n).length = min n t.size := by
  rw [nearest, List.length_take, ((sorter target).perm _).length_eq, size_eq_length, storedIDs,
    List.length_map]

/-- `Nearest` returns every ID once. -/
theorem Sound.nodup_nearest (sound : t.Sound sha256) :
    ((t.nearest sorter target n).map Node.id).Nodup := by
  have order := ((sorter target).perm t.peers).map Node.id
  rw [nearest, List.map_take]
  exact (order.nodup_iff.mpr sound.nodup_storedIDs).sublist (List.take_sublist _ _)

/-- A node that is left out comes after all that are returned. -/
theorem rank_le_of_left_out {a e : Node} (returned : a ∈ t.nearest sorter target n)
    (stored : e ∈ t.peers) (leftOut : e ∉ t.nearest sorter target n) :
    a.rank target ≤ e.rank target := by
  have sorted := (sorter target).pairwise_map t.peers
  have listed := ((sorter target).perm t.peers).mem_iff.mpr stored
  rw [← List.take_append_drop n ((sorter target).sort t.peers)] at sorted listed
  have dropped := (List.mem_append.mp listed).resolve_left leftOut
  rw [List.map_append] at sorted
  exact (List.pairwise_append.mp sorted).2.2 _ (List.mem_map_of_mem returned) _
    (List.mem_map_of_mem dropped)

end RoutingTable

/-- What `Nearest` returns, when its list of candidates can be made. -/
theorem nearestOn_eq_some_iff {maxAlloc : Nat} {sorter : SliceSort} {target : Key} {n : Nat}
    {nodes : List Node} : t.nearestOn maxAlloc sorter target n = some nodes ↔
      scoredSize * n ≤ maxAlloc ∧ t.nearest sorter target n = nodes := by
  have makes : Makes maxAlloc scoredSize n ↔ scoredSize * n ≤ maxAlloc := by
    rw [Makes]
    omega
  rw [RoutingTable.nearestOn, Int.toNat_natCast, ← makes]
  split
  next fits => rw [Option.some.injEq, and_iff_right fits]
  next fits => exact ⟨fun none => (by cases none), fun both => absurd both.1 fits⟩

/-- `Nearest` returns as many nodes as it can, each once and in the order of their distances,
and leaves out none that is nearer, exactly if `make` does not panic for `n` candidates. -/
theorem nearestExact_iff {localID : Bytes}
    (reached : Reachable (TableStep sha256) (newRoutingTable sha256 localID) t)
    (maxAlloc : Nat) (sorter : SliceSort) (target : Key) (n : Nat) :
    (∃ nodes, t.nearestOn maxAlloc sorter target n = some nodes ∧
      nodes.length = min n t.size ∧ (nodes.map Node.id).Nodup ∧ (∀ a ∈ nodes, a ∈ t.peers) ∧
      (nodes.Pairwise fun a b =>
        target.toNat ^^^ a.key.toNat ≤ target.toNat ^^^ b.key.toNat) ∧
      ∀ e ∈ t.peers, e ∉ nodes → ∀ a ∈ nodes,
        target.toNat ^^^ a.key.toNat ≤ target.toNat ^^^ e.key.toNat) ↔
      scoredSize * n ≤ maxAlloc := by
  obtain ⟨sound, _⟩ := RoutingTable.sound_of_reachable reached
  constructor
  · rintro ⟨nodes, returned, _⟩
    exact (nearestOn_eq_some_iff.mp returned).1
  · intro fits
    refine ⟨_, nearestOn_eq_some_iff.mpr ⟨fits, rfl⟩, RoutingTable.length_nearest sorter target n,
      sound.nodup_nearest sorter target n, fun a => RoutingTable.mem_nearest,
      pairwise_xor (RoutingTable.nearest_sorted sorter target n),
      fun e stored leftOut a returned => ?_⟩
    rw [← toNat_distance, ← toNat_distance]
    exact RoutingTable.rank_le_of_left_out sorter target n returned stored leftOut

/-- One of the two nodes of the sample table. -/
theorem sampleTable_nearest :
    ∃ nodes, sampleTable.nearestOn maxAlloc48 insertionSorter
        (keyForNodeID paddedDigest (ascii "b")) (1 : Nat) = some nodes ∧ nodes.length = 1 ∧
      ∀ e ∈ sampleTable.peers, e ∉ nodes → ∀ a ∈ nodes,
        (keyForNodeID paddedDigest (ascii "b")).toNat ^^^ a.key.toNat ≤
          (keyForNodeID paddedDigest (ascii "b")).toNat ^^^ e.key.toNat := by
  obtain ⟨nodes, returned, length, _, _, _, leftOut⟩ := (nearestExact_iff sampleTable_reached
    maxAlloc48 insertionSorter (keyForNodeID paddedDigest (ascii "b")) 1).mpr (by decide)
  have two : sampleTable.size = 2 := by decide +kernel
  rw [two] at length
  exact ⟨nodes, returned, length, leftOut⟩

/-- More than 2 ^ 43 candidates of 32 bytes cannot be made room for where addresses have 48 bits,
and `Nearest` panics with two nodes in its table. -/
theorem sampleTable_nearest_panics :
    sampleTable.size = 2 ∧ sampleTable.nearestOn maxAlloc48 insertionSorter
      (keyForNodeID paddedDigest (ascii "b")) 8796093022209 = none := by
  decide +kernel

/-! ### The shortlist -/

/-- At most `K` nodes, in the order of their distances and each ID once. -/
structure Shortlist (f : Finder) (best : List Node) : Prop where
  length_le : best.length ≤ f.k
  distinct : (best.map Node.id).Nodup
  sorted : (best.map (Node.rank f.target)).Pairwise (· ≤ ·)

/-- The shortlist of a lookup and the queries that were made. -/
structure Search.Sound (t : RoutingTable) (f : Finder) (s : Search) : Prop where
  short : Shortlist f s.best
  origin : ∀ n ∈ s.best, n ∈ t.peers ∨
    ∃ source, source.id ∈ s.queried ∧ some n ∈ f.query source f.target
  once : s.queried.Nodup

/-- Merging a node keeps the shortlist sorted, without repetition and of `K` nodes at most. -/
theorem Shortlist.merge {f : Finder} {best : List Node} (short : Shortlist f best) (n : Node) :
    Shortlist f (f.merge best n) := by
  rw [Finder.merge, mergeBest]
  split
  next known => exact short
  next unknown =>
    have fresh : n.id ∉ best.map Node.id := by
      intro member
      obtain ⟨e, listed, same⟩ := List.mem_map.mp member
      exact unknown (List.any_eq_true.mpr ⟨e, listed, decide_eq_true same⟩)
    have order := ((f.sorter f.target).perm (best ++ [n])).map Node.id
    have distinct : ((best ++ [n]).map Node.id).Nodup := by
      rw [List.map_append, List.map_singleton, ← List.concat_eq_append]
      exact short.distinct.concat fresh
    refine ⟨List.length_take_le _ _, ?_, ?_⟩
    · rw [List.map_take]
      exact (order.nodup_iff.mpr distinct).sublist (List.take_sublist _ _)
    · rw [List.map_take]
      exact ((f.sorter f.target).pairwise_map _).sublist (List.take_sublist _ _)

/-- So does merging a list of nodes. -/
theorem Shortlist.foldl_merge {f : Finder} {best : List Node} (short : Shortlist f best)
    (nodes : List Node) : Shortlist f (nodes.foldl f.merge best) := by
  induction nodes generalizing best with
  | nil => exact short
  | cons n rest ih => exact ih (short.merge n)

/-- No node of a round was queried before. -/
theorem Finder.nodup_queriedBy {f : Finder} {s : Search} (distinct : (s.best.map Node.id).Nodup)
    (once : s.queried.Nodup) : (f.queriedBy s).Nodup := by
  rw [Finder.queriedBy, f.todo_ids]
  refine once.append ((distinct.filter _).sublist (List.take_sublist _ _)) ?_
  intro id asked again
  have unasked := (List.mem_filter.mp (List.mem_of_mem_take again)).2
  exact of_decide_eq_true unasked asked

/-- A round keeps the state of the lookup sound. -/
theorem Search.Sound.round {f : Finder} {s : Search} (sound : s.Sound t f) (i : Nat) :
    (f.round i s).1.Sound t f := by
  refine ⟨?_, ?_, Finder.nodup_queriedBy sound.short.distinct sound.once⟩
  · rw [f.round_fst_best]
    exact sound.short.foldl_merge _
  · rw [f.round_fst_best]
    refine f.foldl_merge_forall (P := fun n => n ∈ t.peers ∨
      ∃ source, source.id ∈ f.queriedBy s ∧ some n ∈ f.query source f.target) ?_ ?_
    · intro n listed
      rcases sound.origin n listed with stored | ⟨source, asked, answer⟩
      · exact .inl stored
      · exact .inr ⟨source, List.mem_append_left _ asked, answer⟩
    · intro n accepted
      obtain ⟨source, asked, answer⟩ := f.mem_answers_iff.mp (f.mem_accepted_iff.mp accepted).1
      exact .inr ⟨source, List.mem_append_right _ (List.mem_map_of_mem asked), answer⟩

/-- A lookup in a sound table, after any number of rounds. -/
theorem RoutingTable.Sound.searchAfter (sound : t.Sound sha256) (params : LookupParams)
    (sorter : SliceSort) (arrival : Arrival) (query : Query) (target : Key) (rounds : Nat) :
    (Lookup.searchAfter params sorter arrival query t target rounds).Sound t
      (Lookup.finder params sorter arrival query t target) := by
  refine Finder.loop_invariant _
    (P := Search.Sound t (Lookup.finder params sorter arrival query t target))
    (fun i s before => before.round i) rounds 0 ?_
  have fewer : (filterSelf (t.nearest sorter target params.withDefaults.k.toNat) t.self).Sublist
      (t.nearest sorter target params.withDefaults.k.toNat) := List.filter_sublist
  refine ⟨⟨?_, ?_, ?_⟩, ?_, List.nodup_nil⟩
  · exact fewer.length_le.trans (List.length_take_le _ _)
  · exact (sound.nodup_nearest sorter target _).sublist (fewer.map _)
  · exact (nearest_sorted sorter target _).sublist (fewer.map _)
  · exact fun n listed => .inl (mem_nearest (fewer.subset listed))

/-- For every reached table, target, parameters, answers and arrival order: no ID is queried
twice, up to any round, and the list that is returned has at most `K` nodes, each ID once, in
the order of their distances, each from the table or from the answer of a node that was
queried. It is returned on the platforms that can make a list of `K` candidates and a list of
`Alpha` queries; on the others a `make` of the lookup panics. -/
theorem shortlistInvariant {localID : Bytes}
    (reached : Reachable (TableStep sha256) (newRoutingTable sha256 localID) t)
    (params : LookupParams) (sorter : SliceSort) (arrival : Arrival) (query : Query)
    (target : Key) :
    (∀ rounds, (Lookup.searchAfter params sorter arrival query t target rounds).queried.Nodup) ∧
    ∃ s, (Lookup.mk (some t) (some query) params).find sorter arrival target = .ok s ∧
      (∀ maxAlloc, (Lookup.mk (some t) (some query) params).findOn maxAlloc sorter arrival target =
        if params.Makes maxAlloc then some (.ok s) else none) ∧
      s = Lookup.searchAfter params sorter arrival query t target
        params.withDefaults.maxRounds.toNat ∧
      s.best.length ≤ params.withDefaults.k.toNat ∧ (s.best.map Node.id).Nodup ∧
      (s.best.Pairwise fun a b =>
        target.toNat ^^^ a.key.toNat ≤ target.toNat ^^^ b.key.toNat) ∧
      ∀ n ∈ s.best, n ∈ t.peers ∨
        ∃ source, source.id ∈ s.queried ∧ some n ∈ query source target := by
  obtain ⟨tableSound, _⟩ := RoutingTable.sound_of_reachable reached
  have sound := tableSound.searchAfter params sorter arrival query target
  refine ⟨fun rounds => (sound rounds).once, _, rfl, fun maxAlloc => rfl, rfl, ?_⟩
  obtain ⟨short, origin, _⟩ := sound params.withDefaults.maxRounds.toNat
  exact ⟨short.length_le, short.distinct, pairwise_xor short.sorted, origin⟩

/-- A lookup in the sample table whose nodes all know `x` and `y`. -/
theorem sampleTable_shortlist :
    ∃ s, (Lookup.mk (some sampleTable)
        (some fun _ _ => [some (recordAt "x" "1"), none, some (recordAt "y" "3")])
          ⟨0, 0, 0⟩).find insertionSorter inOrder (keyForNodeID paddedDigest (ascii "x")) = .ok s ∧
      s.best.length ≤ 20 ∧ s.queried.Nodup := by
  obtain ⟨once, s, found, _, atEnd, length, _⟩ := shortlistInvariant sampleTable_reached ⟨0, 0, 0⟩
    insertionSorter inOrder (fun _ _ => [some (recordAt "x" "1"), none, some (recordAt "y" "3")])
    (keyForNodeID paddedDigest (ascii "x"))
  refine ⟨s, found, length, ?_⟩
  rw [atEnd]
  exact once _

/-! ### How a lookup ends -/

/-- The answers of the last round of a lookup that ended with `s` brought only nodes that were
queried, and the local one. -/
def Lookup.Stalled (params : LookupParams) (sorter : SliceSort) (arrival : Arrival)
    (query : Query) (t : RoutingTable) (target : Key) (s : Search) : Prop :=
  ∃ r, Lookup.roundsUsed params sorter arrival query t target = r + 1 ∧
    ∀ source ∈ (Lookup.finder params sorter arrival query t target).todo
        (Lookup.searchAfter params sorter arrival query t target r),
      ∀ n, some n ∈ query source target → n.id ∈ s.queried ∨ n.key = t.self

/-- A loop ends when its rounds are used up, when there is nothing to query, or after a round
that did not progress. -/
theorem Finder.loop_ends (f : Finder) (rounds i : Nat) (s : Search) :
    f.used rounds i s = rounds ∨ f.todo (f.loop rounds i s) = [] ∨
      ∃ r, f.used rounds i s = r + 1 ∧
        f.loop rounds i s = (f.round (i + r) (f.loop r i s)).1 ∧
        (f.round (i + r) (f.loop r i s)).2 = false := by
  induction rounds generalizing i s with
  | zero => exact .inl rfl
  | succ rounds ih =>
      rw [used, loop]
      by_cases idle : (f.todo s).isEmpty
      · rw [if_pos idle, if_pos idle]
        exact .inr (.inl (List.isEmpty_iff.mp idle))
      rw [if_neg idle, if_neg idle]
      by_cases progressed : (f.round i s).2
      · rw [if_pos progressed, if_pos progressed]
        rcases ih (i + 1) (f.round i s).1 with all | done | ⟨r, used, ended, stalled⟩
        · exact .inl (congrArg (· + 1) all)
        · exact .inr (.inl done)
        · refine .inr (.inr ⟨r + 1, congrArg (· + 1) used, ?_⟩)
          rw [f.loop_succ r i idle progressed, Nat.add_comm r 1, ← Nat.add_assoc]
          exact ⟨ended, stalled⟩
      · rw [if_neg progressed, if_neg progressed]
        exact .inr (.inr ⟨0, rfl, rfl, Bool.not_eq_true _ ▸ progressed⟩)

/-- A round that did not progress brought only nodes that were queried, and the local one. -/
theorem Finder.stalled {f : Finder} {i : Nat} {s : Search} (stalled : (f.round i s).2 = false)
    {source n : Node} (asked : source ∈ f.todo s) (answer : some n ∈ f.query source f.target) :
    n.id ∈ f.queriedBy s ∨ n.key = f.localKey := by
  rw [f.round_snd, Bool.not_eq_false', List.isEmpty_iff] at stalled
  by_contra fresh
  rw [not_or] at fresh
  have accepted : n ∈ f.accepted (f.queriedBy s) (f.answers i s) :=
    f.mem_accepted_iff.mpr ⟨f.mem_answers_iff.mpr ⟨source, asked, answer⟩, fresh⟩
  rw [stalled] at accepted
  cases accepted

/-- A lookup that returns before its rounds are used up has queried every node it returns, or
its last round brought no node that could be queried. -/
theorem queried_or_stalled (params : LookupParams) (sorter : SliceSort) (arrival : Arrival)
    (query : Query) (t : RoutingTable) (target : Key) (s : Search)
    (found : (Lookup.mk (some t) (some query) params).find sorter arrival target = .ok s)
    (early : Lookup.roundsUsed params sorter arrival query t target <
      params.withDefaults.maxRounds.toNat) :
    (∀ n ∈ s.best, n.id ∈ s.queried) ∨
      Lookup.Stalled params sorter arrival query t target s := by
  cases found
  rcases Finder.loop_ends (Lookup.finder params sorter arrival query t target)
    params.withDefaults.maxRounds.toNat 0
    ⟨filterSelf (t.nearest sorter target params.withDefaults.k.toNat) t.self, []⟩
    with all | done | ⟨r, used, ended, stalled⟩
  · exact absurd all early.ne
  · refine .inl fun n listed => ?_
    by_contra unqueried
    exact Finder.todo_ne_nil _ params.alpha_pos listed unqueried done
  · refine .inr ⟨r, used, fun source asked n answer => ?_⟩
    rw [ended]
    exact Finder.stalled stalled asked answer

/-- The table of `local` after four nodes were added. -/
def fourNodes : RoutingTable :=
  (["a", "b", "c", "d"].map fun name => .add (some (announced name)) 1).foldl
    (RoutingTable.perform paddedDigest) (newRoutingTable paddedDigest (ascii "local"))

/-- Nobody answers: three nodes are queried in the first of 160 rounds, and the fourth one is
returned without having been queried. -/
theorem fourNodes_unqueried :
    Lookup.roundsUsed ⟨0, 0, 0⟩ insertionSorter inOrder (fun _ _ => []) fourNodes
      (keyForNodeID paddedDigest (ascii "x")) = 1 ∧
    ∃ s, (Lookup.mk (some fourNodes) (some fun _ _ => []) ⟨0, 0, 0⟩).find insertionSorter inOrder
        (keyForNodeID paddedDigest (ascii "x")) = .ok s ∧
      ∃ n ∈ s.best, n.id ∉ s.queried := by
  refine ⟨by decide +kernel, _, rfl, ?_⟩
  decide +kernel

/-- The lookup ended with that round because it brought no node. -/
theorem fourNodes_stalled :
    ∃ s, (Lookup.mk (some fourNodes) (some fun _ _ => []) ⟨0, 0, 0⟩).find insertionSorter inOrder
        (keyForNodeID paddedDigest (ascii "x")) = .ok s ∧
      Lookup.Stalled ⟨0, 0, 0⟩ insertionSorter inOrder (fun _ _ => []) fourNodes
        (keyForNodeID paddedDigest (ascii "x")) s := by
  refine ⟨_, rfl, (queried_or_stalled ⟨0, 0, 0⟩ insertionSorter inOrder (fun _ _ => []) fourNodes
    (keyForNodeID paddedDigest (ascii "x")) _ rfl ?_).resolve_left ?_⟩
  · decide +kernel
  · decide +kernel

end P2pMesh.Dht

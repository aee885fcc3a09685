import P2pMesh.Dht.RoutingTable
import P2pMesh.Foundation.Slice
import P2pMesh.Foundation.Sorting

/-! # The iterative lookup

`Lookup.Find` of `internal/dht/lookup.go`. The order in which `sort.Slice` leaves nodes at one
distance, and the order in which the answers of a round arrive, are parameters. A lookup
returns authentic nodes when the records that it takes over from the nodes it queries are
authentic, and it takes over any record whose key is not the local one
(`P2pMesh.Dht.foundAuthentic`).
-/

namespace P2pMesh.Dht

open Foundation

/-- The distance of a node from the target, as a number. -/
def Node.rank (target : Key) (n : Node) : Nat :=
  (distance target n.key).toNat

/-- `sort.Slice` with the comparison of distances, which is that of the numbers
(`P2pMesh.Dht.less_iff`): some sorted order of the nodes. -/
abbrev SliceSort := (target : Key) → Sorting (Node.rank target)

/-- The order in which the answers of each round arrive. -/
structure Arrival where
  order (round : Nat) (answers : List (List (Option Node))) : List (List (Option Node))
  perm : ∀ round answers, (order round answers).Perm answers

/-- The size of a `scored`, a pointer and a key, in bytes. -/
def scoredSize : Nat := 32

/-- The size of a pointer in bytes. -/
def pointerSize : Nat := 8

/-- The nodes that `Nearest` returns when it has made its list of candidates. -/
def RoutingTable.nearest (t : RoutingTable) (sorter : SliceSort) (target : Key) (n : Nat) :
    List Node :=
  ((sorter target).sort t.peers).take n

/-- `Nearest`, where the runtime allocates up to `maxAlloc` bytes at once; `none` is the panic of
its `make`. -/
def RoutingTable.nearestOn (maxAlloc : Nat) (t : RoutingTable) (sorter : SliceSort)
    (target : Key) (n : Int) : Option (List Node) :=
  if Makes maxAlloc scoredSize n then some (t.nearest sorter target n.toNat) else none

/-- `LookupParams`. -/
structure LookupParams where
  alpha : Int
  k : Int
  maxRounds : Int

/-- `withDefaults`. -/
def LookupParams.withDefaults (p : LookupParams) : LookupParams where
  alpha := if p.alpha ≤ 0 then 3 else p.alpha
  k := if p.k ≤ 0 then bucketCapacity else p.k
  maxRounds := if p.maxRounds ≤ 0 then keySizeBits else p.maxRounds

/-- The lists that a lookup makes can be made: that of the candidates, for `K` of them, and that
of the queries of a round, for `Alpha`. -/
def LookupParams.Makes (maxAlloc : Nat) (p : LookupParams) : Prop :=
  Foundation.Makes maxAlloc scoredSize p.withDefaults.k ∧
    Foundation.Makes maxAlloc pointerSize p.withDefaults.alpha

instance (maxAlloc : Nat) (p : LookupParams) : Decidable (p.Makes maxAlloc) :=
  inferInstanceAs (Decidable (_ ∧ _))

/-- What a node answers to a query; the error is not looked at. -/
abbrev Query := Node → Key → List (Option Node)

/-- `Lookup`. -/
structure Lookup where
  table : Option RoutingTable
  query : Option Query
  params : LookupParams

/-- The errors of `Find`. -/
inductive FindError where
  | noQuery
  | noTable
deriving DecidableEq

/-- The texts of the errors. -/
def FindError.text : FindError → String
  | .noQuery => "dht: lookup has no Query function"
  | .noTable => "dht: lookup has no routing table"

/-- The shortlist of a `Find`, and the IDs of the nodes that it has queried. -/
structure Search where
  best : List Node
  queried : List Bytes

/-- `filterSelf`. -/
def filterSelf (nodes : List Node) (self : Key) : List Node :=
  nodes.filter fun n => n.key ≠ self

/-- `mergeBest`. -/
def mergeBest (sorter : SliceSort) (best : List Node) (n : Node) (target : Key) (cap : Nat) :
    List Node :=
  if best.any fun e => e.id = n.id then best
  else ((sorter target).sort (best ++ [n])).take cap

/-- What stays the same during a `Find`. -/
structure Finder where
  sorter : SliceSort
  arrival : Arrival
  query : Query
  target : Key
  localKey : Key
  alpha : Nat
  k : Nat

namespace Finder

variable (f : Finder)

/-- `mergeBest` with the target and the `K` of the lookup. -/
def merge (best : List Node) (n : Node) : List Node :=
  mergeBest f.sorter best n f.target f.k

/-- A node of an answer; nodes that were queried and the local key are passed over. -/
def absorb (queried : List Bytes) (found : List Node × Bool) : Option Node → List Node × Bool
  | none => found
  | some n =>
      if n.id ∈ queried then found
      else if n.key = f.localKey then found
      else (f.merge found.1 n, true)

/-- The nodes that a round queries. -/
def todo (s : Search) : List Node :=
  (s.best.filter fun n => n.id ∉ s.queried).take f.alpha

/-- The nodes of the answers of a round, as they arrive. -/
def answers (round : Nat) (s : Search) : List (Option Node) :=
  (f.arrival.order round ((f.todo s).map fun n => f.query n f.target)).flatten

/-- The IDs that have been queried at the end of a round. -/
def queriedBy (s : Search) : List Bytes :=
  s.queried ++ (f.todo s).map Node.id

/-- A round, and whether it progressed. -/
def round (i : Nat) (s : Search) : Search × Bool :=
  let merged := (f.answers i s).foldl (f.absorb (f.queriedBy s)) (s.best, false)
  (⟨merged.1, f.queriedBy s⟩, merged.2)

/-- The rounds that are left, and the number of the next one. -/
def loop : Nat → Nat → Search → Search
  | 0, _, s => s
  | rounds + 1, i, s =>
      if (f.todo s).isEmpty then s
      else if (f.round i s).2 then loop rounds (i + 1) (f.round i s).1
      else (f.round i s).1

/-- The rounds that a loop makes queries in. -/
def used : Nat → Nat → Search → Nat
  | 0, _, _ => 0
  | rounds + 1, i, s =>
      if (f.todo s).isEmpty then 0
      else if (f.round i s).2 then used rounds (i + 1) (f.round i s).1 + 1
      else 1

/-- A record that a loop takes over from the answers: a node that is queried in one of its rounds
answers with it, its ID has not been queried at the end of the round, and its key is not the
local one. -/
def TakesOver (rounds i : Nat) (s : Search) (n : Node) : Prop :=
  ∃ r < f.used rounds i s, ∃ source ∈ f.todo (f.loop r i s), some n ∈ f.query source f.target ∧
    n.id ∉ f.queriedBy (f.loop r i s) ∧ n.key ≠ f.localKey

end Finder

/-- What stays the same during a `Find` in a table. -/
def Lookup.finder (params : LookupParams) (sorter : SliceSort) (arrival : Arrival) (query : Query)
    (t : RoutingTable) (target : Key) : Finder where
  sorter := sorter
  arrival := arrival
  query := query
  target := target
  localKey := t.self
  alpha := params.withDefaults.alpha.toNat
  k := params.withDefaults.k.toNat

/-- `Find`: the nodes that it returns, and the IDs of those that it queried, when the lists that
it makes can be made. -/
def Lookup.find (l : Lookup) (sorter : SliceSort) (arrival : Arrival) (target : Key) :
    Except FindError Search :=
  match l.query with
  | none => .error .noQuery
  | some query =>
      match l.table with
      | none => .error .noTable
      | some t =>
          let p := l.params.withDefaults
          .ok ((finder l.params sorter arrival query t target).loop p.maxRounds.toNat 0
            ⟨filterSelf (t.nearest sorter target p.k.toNat) t.self, []⟩)

/-- `Find`, where the runtime allocates up to `maxAlloc` bytes at once; `none` is the panic of a
`make`. The first round makes its list of queries also when it has nothing to query. -/
def Lookup.findOn (maxAlloc : Nat) (l : Lookup) (sorter : SliceSort) (arrival : Arrival)
    (target : Key) : Option (Except FindError Search) :=
  match l.find sorter arrival target with
  | .error e => some (.error e)
  | .ok s => if l.params.Makes maxAlloc then some (.ok s) else none

/-- The state of a lookup after some rounds, or at its end if that comes before. -/
def Lookup.searchAfter (params : LookupParams) (sorter : SliceSort) (arrival : Arrival)
    (query : Query) (t : RoutingTable) (target : Key) (rounds : Nat) : Search :=
  (Lookup.finder params sorter arrival query t target).loop rounds 0
    ⟨filterSelf (t.nearest sorter target params.withDefaults.k.toNat) t.self, []⟩

/-- The rounds that a lookup makes queries in. -/
def Lookup.roundsUsed (params : LookupParams) (sorter : SliceSort) (arrival : Arrival)
    (query : Query) (t : RoutingTable) (target : Key) : Nat :=
  (Lookup.finder params sorter arrival query t target).used
    params.withDefaults.maxRounds.toNat 0
    ⟨filterSelf (t.nearest sorter target params.withDefaults.k.toNat) t.self, []⟩

/-- A record that a lookup takes over: a node that it queries in some round answers with it, its
ID has not been queried up to then, and its key is not the local one. -/
def Lookup.Takes (params : LookupParams) (sorter : SliceSort) (arrival : Arrival) (query : Query)
    (t : RoutingTable) (target : Key) (n : Node) : Prop :=
  (finder params sorter arrival query t target).TakesOver params.withDefaults.maxRounds.toNat 0
    ⟨filterSelf (t.nearest sorter target params.withDefaults.k.toNat) t.self, []⟩ n

/-- A node of a shortlist was there before or has been merged. -/
theorem mem_mergeBest {sorter : SliceSort} {best : List Node} {n other : Node} {target : Key}
    {cap : Nat} (member : other ∈ mergeBest sorter best n target cap) :
    other ∈ best ∨ other = n := by
  unfold mergeBest at member
  split at member
  · exact .inl member
  · have joined := ((sorter target).perm _).mem_iff.mp (List.mem_of_mem_take member)
    rcases List.mem_append.mp joined with old | new
    · exact .inl old
    · exact .inr (List.mem_singleton.mp new)

namespace Finder

variable (f : Finder)

/-- A node of an answer that is not passed over. -/
def accepts (queried : List Bytes) (n : Node) : Bool :=
  n.id ∉ queried ∧ n.key ≠ f.localKey

/-- The nodes of the answers that are not passed over. -/
def accepted (queried : List Bytes) (answers : List (Option Node)) : List Node :=
  answers.filterMap fun n => n.filter (f.accepts queried)

/-- A node of the answers is taken over unless it was queried or has the local key. -/
theorem mem_accepted_iff {queried : List Bytes} {answers : List (Option Node)} {n : Node} :
    n ∈ f.accepted queried answers ↔ some n ∈ answers ∧ n.id ∉ queried ∧ n.key ≠ f.localKey := by
  rw [accepted, List.mem_filterMap]
  constructor
  · rintro ⟨answer, member, passed⟩
    obtain ⟨rfl, accepts⟩ := Option.filter_eq_some_iff.mp passed
    exact ⟨member, of_decide_eq_true accepts⟩
  · rintro ⟨member, accepts⟩
    exact ⟨some n, member, Option.filter_eq_some_iff.mpr ⟨rfl, decide_eq_true accepts⟩⟩

/-- A node is merged and marks the round as one with progress, if it is taken over at all. -/
theorem absorb_some (queried : List Bytes) (found : List Node × Bool) (n : Node) :
    f.absorb queried found (some n) =
      if f.accepts queried n then (f.merge found.1 n, true) else found := by
  rw [absorb, accepts]
  by_cases old : n.id ∈ queried
  · simp only [old, ↓reduceIte, not_true_eq_false, false_and, decide_false, Bool.false_eq_true]
  · by_cases isLocal : n.key = f.localKey
    · simp only [isLocal, ↓reduceIte, ite_self, ne_eq, not_true_eq_false, and_false, decide_false,
        Bool.false_eq_true]
    · simp only [old, isLocal, ↓reduceIte, ne_eq, not_false_eq_true, and_self, decide_true]

/-- Absorbing answers is merging the nodes that are accepted. -/
theorem foldl_absorb (queried : List Bytes) (answers : List (Option Node)) (best : List Node)
    (progressed : Bool) :
    answers.foldl (f.absorb queried) (best, progressed) =
      ((f.accepted queried answers).foldl f.merge best,
        progressed || !(f.accepted queried answers).isEmpty) := by
  induction answers generalizing best progressed with
  | nil => simp only [List.foldl_nil, accepted, List.filterMap_nil, List.isEmpty_nil, Bool.not_true,
      Bool.or_false]
  | cons first rest ih =>
      cases first with
      | none => exact ih best progressed
      | some n =>
          rw [List.foldl_cons, absorb_some, accepted, List.filterMap_cons, Option.filter_some]
          cases f.accepts queried n with
          | true =>
              simp only [↓reduceIte, List.foldl_cons, List.isEmpty_cons, Bool.not_false,
                Bool.or_true]
              exact ih _ true
          | false => exact ih best progressed

/-- A node arrives in a round exactly if a node that the round queries answers with it. -/
theorem mem_answers_iff {i : Nat} {s : Search} {n : Option Node} :
    n ∈ f.answers i s ↔ ∃ source ∈ f.todo s, n ∈ f.query source f.target := by
  rw [answers, List.mem_flatten]
  constructor
  · rintro ⟨answer, arrived, member⟩
    obtain ⟨source, asked, rfl⟩ := List.mem_map.mp ((f.arrival.perm _ _).mem_iff.mp arrived)
    exact ⟨source, asked, member⟩
  · rintro ⟨source, asked, member⟩
    exact ⟨_, (f.arrival.perm _ _).mem_iff.mpr (List.mem_map_of_mem asked), member⟩

/-- What holds for the shortlist and for every merged node holds for the new shortlist. -/
theorem foldl_merge_forall {P : Node → Prop} {nodes best : List Node} (initial : ∀ n ∈ best, P n)
    (added : ∀ n ∈ nodes, P n) : ∀ n ∈ nodes.foldl f.merge best, P n := by
  induction nodes generalizing best with
  | nil => exact initial
  | cons first rest ih =>
      apply ih
      · intro n member
        rcases mem_mergeBest member with old | rfl
        · exact initial n old
        · exact added n List.mem_cons_self
      · exact fun n member => added n (List.mem_cons_of_mem _ member)

/-- The shortlist of a round is the old one with the accepted nodes merged in. -/
theorem round_fst_best (i : Nat) (s : Search) :
    (f.round i s).1.best =
      (f.accepted (f.queriedBy s) (f.answers i s)).foldl f.merge s.best := by
  rw [round, foldl_absorb]

/-- What every round preserves holds at the end of a loop. -/
theorem loop_invariant {P : Search → Prop} (preserved : ∀ i s, P s → P (f.round i s).1)
    (rounds i : Nat) {s : Search} (start : P s) : P (f.loop rounds i s) := by
  induction rounds generalizing i s with
  | zero => exact start
  | succ rounds ih =>
      rw [loop]
      split
      · exact start
      · split
        · exact ih (i + 1) (preserved i s start)
        · exact preserved i s start

/-- A round that progresses is followed by the rest of the loop. -/
theorem loop_succ (rounds i : Nat) {s : Search} (asks : ¬ (f.todo s).isEmpty)
    (progressed : (f.round i s).2 = true) :
    f.loop (rounds + 1) i s = f.loop rounds (i + 1) (f.round i s).1 := by
  rw [loop, if_neg asks, if_pos progressed]

/-- The records that a loop takes over are those of the first round and, if that progresses,
those of the rest of the loop. -/
theorem takesOver_succ_iff (rounds i : Nat) (s : Search) (n : Node) :
    f.TakesOver (rounds + 1) i s n ↔ ¬ (f.todo s).isEmpty ∧
      (n ∈ f.accepted (f.queriedBy s) (f.answers i s) ∨
        ((f.round i s).2 = true ∧ f.TakesOver rounds (i + 1) (f.round i s).1 n)) := by
  have first : n ∈ f.accepted (f.queriedBy s) (f.answers i s) ↔ ∃ source ∈ f.todo s,
      some n ∈ f.query source f.target ∧ n.id ∉ f.queriedBy s ∧ n.key ≠ f.localKey := by
    rw [mem_accepted_iff, mem_answers_iff]
    grind
  rw [TakesOver, used]
  by_cases idle : (f.todo s).isEmpty
  · simp only [idle, ↓reduceIte, not_true_eq_false, false_and, Nat.not_lt_zero, exists_false]
  simp only [idle, ↓reduceIte, not_false_eq_true, true_and, Bool.false_eq_true, first]
  by_cases progressed : (f.round i s).2
  · simp only [progressed, ↓reduceIte, true_and]
    constructor
    · rintro ⟨r, early, taken⟩
      cases r with
      | zero => exact .inl taken
      | succ r =>
          rw [f.loop_succ r i idle progressed] at taken
          exact .inr ⟨r, Nat.lt_of_succ_lt_succ early, taken⟩
    · rintro (taken | ⟨r, early, taken⟩)
      · exact ⟨0, Nat.succ_pos _, taken⟩
      · refine ⟨r + 1, Nat.succ_lt_succ early, ?_⟩
        rw [f.loop_succ r i idle progressed]
        exact taken
  · simp only [progressed, ↓reduceIte, Bool.false_eq_true, false_and, or_false, Nat.lt_one_iff,
      exists_eq_left]
    rfl

/-- What holds of the nodes of the shortlist, and of every record that is taken over, holds of
the nodes that are found. -/
theorem loop_forall {P : Node → Prop} (rounds i : Nat) {s : Search}
    (taken : ∀ n, f.TakesOver rounds i s n → P n) (initial : ∀ n ∈ s.best, P n) :
    ∀ n ∈ (f.loop rounds i s).best, P n := by
  induction rounds generalizing i s with
  | zero => exact initial
  | succ rounds ih =>
      by_cases idle : (f.todo s).isEmpty
      · rw [loop, if_pos idle]
        exact initial
      have next : ∀ n ∈ (f.round i s).1.best, P n := by
        rw [round_fst_best]
        exact f.foldl_merge_forall initial fun n accepted =>
          taken n ((f.takesOver_succ_iff rounds i s n).mpr ⟨idle, .inl accepted⟩)
      by_cases progressed : (f.round i s).2
      · rw [f.loop_succ rounds i idle progressed]
        exact ih (i + 1) (fun n later => taken n
          ((f.takesOver_succ_iff rounds i s n).mpr ⟨idle, .inr ⟨progressed, later⟩⟩)) next
      · rw [loop, if_neg idle, if_neg progressed]
        exact next

section Room

variable {f}

/-- A shortlist that is not full after a merge has lost nothing in it. -/
theorem merge_of_length_lt {best : List Node} {n : Node} (room : (f.merge best n).length < f.k) :
    best.length < f.k ∧ (∀ e ∈ best, e ∈ f.merge best n) ∧
      n.id ∈ (f.merge best n).map Node.id := by
  rw [merge, mergeBest] at room ⊢
  split at room
  next known =>
    obtain ⟨e, member, same⟩ := List.any_eq_true.mp known
    rw [if_pos known]
    exact ⟨room, fun _ kept => kept, List.mem_map.mpr ⟨e, member, of_decide_eq_true same⟩⟩
  next unknown =>
    have order := (f.sorter f.target).perm (best ++ [n])
    have length : ((f.sorter f.target).sort (best ++ [n])).length = best.length + 1 := by
      rw [order.length_eq, List.length_append, List.length_singleton]
    rw [List.length_take, length] at room
    rw [if_neg unknown, List.take_of_length_le (by omega)]
    exact ⟨by omega, fun e kept => order.mem_iff.mpr (List.mem_append_left _ kept),
      List.mem_map_of_mem (order.mem_iff.mpr (List.mem_append_right _ (List.mem_singleton_self n)))⟩

/-- While the shortlist has room, merging drops nothing. -/
theorem foldl_merge_of_length_lt {nodes best : List Node}
    (room : (nodes.foldl f.merge best).length < f.k) :
    best.length < f.k ∧ (∀ e ∈ best, e ∈ nodes.foldl f.merge best) ∧
      ∀ n ∈ nodes, n.id ∈ (nodes.foldl f.merge best).map Node.id := by
  induction nodes generalizing best with
  | nil => exact ⟨room, fun _ kept => kept, fun _ member => absurd member List.not_mem_nil⟩
  | cons first rest ih =>
      obtain ⟨space, kept, listed⟩ := ih room
      obtain ⟨before, merged, there⟩ := merge_of_length_lt space
      refine ⟨before, fun e member => kept e (merged e member), fun n member => ?_⟩
      rcases List.mem_cons.mp member with rfl | more
      · obtain ⟨e, inside, same⟩ := List.mem_map.mp there
        exact List.mem_map.mpr ⟨e, kept e inside, same⟩
      · exact listed n more

/-- A list that is not full at the end has the ID of every record that was taken over. -/
theorem loop_of_length_lt (rounds i : Nat) {s : Search}
    (room : (f.loop rounds i s).best.length < f.k) :
    s.best.length < f.k ∧ (∀ e ∈ s.best, e ∈ (f.loop rounds i s).best) ∧
      ∀ n, f.TakesOver rounds i s n → n.id ∈ (f.loop rounds i s).best.map Node.id := by
  induction rounds generalizing i s with
  | zero =>
      exact ⟨room, fun _ kept => kept, fun n ⟨r, early, _⟩ => absurd early (Nat.not_lt_zero r)⟩
  | succ rounds ih =>
      by_cases idle : (f.todo s).isEmpty
      · rw [loop, if_pos idle] at room ⊢
        exact ⟨room, fun _ kept => kept, fun n taken =>
          absurd idle ((f.takesOver_succ_iff rounds i s n).mp taken).1⟩
      -- What a round keeps and lists is kept by the rest of the loop.
      have step (space : (f.round i s).1.best.length < f.k) :
          s.best.length < f.k ∧ (∀ e ∈ s.best, e ∈ (f.round i s).1.best) ∧
            ∀ n ∈ f.accepted (f.queriedBy s) (f.answers i s),
              n.id ∈ (f.round i s).1.best.map Node.id := by
        rw [round_fst_best] at space ⊢
        exact foldl_merge_of_length_lt space
      by_cases progressed : (f.round i s).2
      · rw [f.loop_succ rounds i idle progressed] at room ⊢
        obtain ⟨space, kept, later⟩ := ih (i + 1) room
        obtain ⟨before, stays, listed⟩ := step space
        refine ⟨before, fun e member => kept e (stays e member), fun n taken => ?_⟩
        rcases ((f.takesOver_succ_iff rounds i s n).mp taken).2 with accepted | ⟨_, more⟩
        · obtain ⟨e, member, same⟩ := List.mem_map.mp (listed n accepted)
          exact List.mem_map.mpr ⟨e, kept e member, same⟩
        · exact later n more
      · rw [loop, if_neg idle, if_neg progressed] at room ⊢
        obtain ⟨before, stays, listed⟩ := step room
        refine ⟨before, stays, fun n taken => ?_⟩
        rcases ((f.takesOver_succ_iff rounds i s n).mp taken).2 with accepted | ⟨more, _⟩
        · exact listed n accepted
        · exact absurd more progressed

end Room

/-- Merging a node that is there changes nothing. -/
theorem merge_of_mem {best : List Node} {n : Node} (member : n ∈ best) : f.merge best n = best := by
  have known : (best.any fun e => e.id = n.id) = true :=
    List.any_eq_true.mpr ⟨n, member, decide_eq_true rfl⟩
  rw [merge, mergeBest, if_pos known]

/-- A node that is not known is added as long as there is room. -/
theorem mem_merge_self {best : List Node} {n : Node} (fresh : n.id ∉ best.map Node.id)
    (room : best.length < f.k) : n ∈ f.merge best n := by
  have unknown : ¬ (best.any fun e => e.id = n.id) = true := by
    intro known
    obtain ⟨e, member, same⟩ := List.any_eq_true.mp known
    exact fresh (List.mem_map.mpr ⟨e, member, of_decide_eq_true same⟩)
  have order := (f.sorter f.target).perm (best ++ [n])
  rw [merge, mergeBest, if_neg unknown, List.take_of_length_le]
  · exact order.mem_iff.mpr (List.mem_append_right _ (List.mem_singleton_self n))
  · rw [order.length_eq, List.length_append, List.length_singleton]
    exact room

/-- Merging one node over and over changes nothing after the first time. -/
theorem foldl_merge_of_mem {nodes best : List Node} {n : Node} (member : n ∈ best)
    (same : ∀ other ∈ nodes, other = n) : nodes.foldl f.merge best = best := by
  induction nodes with
  | nil => rfl
  | cons first rest ih =>
      rw [List.foldl_cons, same first List.mem_cons_self, f.merge_of_mem member]
      exact ih fun other more => same other (List.mem_cons_of_mem _ more)

/-- A round has something to query as long as the shortlist has a node that was not queried. -/
theorem todo_ne_nil (positive : 0 < f.alpha) {s : Search} {n : Node} (member : n ∈ s.best)
    (unqueried : n.id ∉ s.queried) : f.todo s ≠ [] := by
  have waiting : n ∈ s.best.filter fun n => n.id ∉ s.queried :=
    List.mem_filter.mpr ⟨member, decide_eq_true unqueried⟩
  rw [todo, ne_eq, List.take_eq_nil_iff]
  rintro (zero | empty)
  · exact positive.ne' zero
  · rw [empty] at waiting
    cases waiting

variable {f}

/-- When all answers are one record, that is all that can be accepted. -/
theorem eq_of_accepted {r : Node} (only : f.query = fun _ _ => [some r]) {queried : List Bytes}
    {i : Nat} {s : Search} {n : Node} (member : n ∈ f.accepted queried (f.answers i s)) :
    n = r := by
  obtain ⟨source, _, answer⟩ := f.mem_answers_iff.mp (f.mem_accepted_iff.mp member).1
  rw [only] at answer
  exact Option.some.inj (List.mem_singleton.mp answer)

/-- If every answer is one record, the shortlist stays as it is once it has that record. -/
theorem loop_best_of_mem {r : Node} (only : f.query = fun _ _ => [some r]) (rounds i : Nat)
    {s : Search} (member : r ∈ s.best) : (f.loop rounds i s).best = s.best := by
  refine f.loop_invariant (P := fun u => u.best = s.best) (fun i u same => ?_) rounds i rfl
  rw [round_fst_best, ← same]
  exact f.foldl_merge_of_mem (same ▸ member) fun other accepted => eq_of_accepted only accepted

/-- The first round takes a record over when there is room for it. -/
theorem mem_loop_of_answered {r : Node} (only : f.query = fun _ _ => [some r])
    (foreign : r.key ≠ f.localKey) {s : Search} (asks : f.todo s ≠ [])
    (fresh : r.id ∉ s.best.map Node.id) (unqueried : r.id ∉ s.queried)
    (room : s.best.length < f.k) (rounds i : Nat) : r ∈ (f.loop (rounds + 1) i s).best := by
  have unasked : r.id ∉ f.queriedBy s := by
    rw [queriedBy, List.mem_append]
    rintro (old | asked)
    · exact unqueried old
    · obtain ⟨n, member, same⟩ := List.mem_map.mp asked
      exact fresh (List.mem_map.mpr
        ⟨n, List.mem_of_mem_filter (List.mem_of_mem_take member), same⟩)
  obtain ⟨source, asked⟩ := List.exists_mem_of_ne_nil _ asks
  have accepted : r ∈ f.accepted (f.queriedBy s) (f.answers i s) := by
    refine f.mem_accepted_iff.mpr ⟨f.mem_answers_iff.mpr ⟨source, asked, ?_⟩, unasked, foreign⟩
    rw [only]
    exact List.mem_singleton_self _
  have next : r ∈ (f.round i s).1.best := by
    rw [round_fst_best]
    cases split : f.accepted (f.queriedBy s) (f.answers i s) with
    | nil =>
        rw [split] at accepted
        cases accepted
    | cons first rest =>
        -- All that is accepted is the one record, so merging it once is enough.
        have all (other : Node) (member : other ∈ first :: rest) : other = r :=
          eq_of_accepted only (split ▸ member)
        have taken := f.mem_merge_self fresh room
        rw [List.foldl_cons, all first List.mem_cons_self, f.foldl_merge_of_mem taken]
        · exact taken
        · exact fun other member => all other (List.mem_cons_of_mem _ member)
  rw [loop]
  split
  next empty => exact absurd (List.isEmpty_iff.mp empty) asks
  · split
    · rw [loop_best_of_mem only rounds (i + 1) next]
      exact next
    · exact next

end Finder

variable {sha256 : Bytes → Digest}

/-- A peer of a sound table has the key of its ID, and is not the node itself. -/
theorem RoutingTable.Sound.mem_peers {t : RoutingTable} (sound : t.Sound sha256) {n : Node}
    (member : n ∈ t.peers) : n.key = keyForNodeID sha256 n.id ∧ n.key ≠ t.self := by
  obtain ⟨i, _, found⟩ := List.mem_flatMap.mp member
  obtain ⟨key, place⟩ := (sound.bucket i).keys n found
  exact ⟨key, ne_of_commonPrefixLen_eq place⟩

/-- `Nearest` returns peers of the table. -/
theorem RoutingTable.mem_nearest {t : RoutingTable} {sorter : SliceSort} {target : Key} {k : Nat}
    {n : Node} (member : n ∈ t.nearest sorter target k) : n ∈ t.peers :=
  ((sorter target).perm _).mem_iff.mp (List.mem_of_mem_take member)

/-- The first shortlist of a lookup that has room for all nodes of the table. -/
theorem RoutingTable.Sound.nearest_perm {t : RoutingTable} (sound : t.Sound sha256)
    (sorter : SliceSort) (target : Key) {k : Nat} (room : t.size ≤ k) :
    (filterSelf (t.nearest sorter target k) t.self).Perm t.peers := by
  have order := (sorter target).perm t.peers
  have length : ((sorter target).sort t.peers).length ≤ k := by
    rw [order.length_eq]
    rw [size_eq_length, storedIDs, List.length_map] at room
    exact room
  rw [filterSelf, List.filter_eq_self.mpr]
  · rw [nearest, List.take_of_length_le length]
    exact order
  · intro n member
    exact decide_eq_true (sound.mem_peers (mem_nearest member)).2

/-- The key is that of the ID, and the node is not the local one. -/
def Node.Authentic (sha256 : Bytes → Digest) (localID : Bytes) (n : Node) : Prop :=
  n.key = keyForNodeID sha256 n.id ∧ n.id ≠ localID

/-- With the defaults filled in, a lookup has at least one round. -/
theorem LookupParams.maxRounds_pos (p : LookupParams) :
    ∃ rounds, p.withDefaults.maxRounds.toNat = rounds + 1 := by
  apply Nat.exists_eq_succ_of_ne_zero
  simp only [withDefaults, keySizeBits]
  split
  · decide
  · omega

/-- With the defaults filled in, a round may query at least one node. -/
theorem LookupParams.alpha_pos (p : LookupParams) : 0 < p.withDefaults.alpha.toNat := by
  simp only [withDefaults]
  split
  · decide
  · omega

/-- A lookup in which all answers are one record. -/
theorem mem_find_of_answered {localID : Bytes} {t : RoutingTable}
    (reached : Reachable (TableStep sha256) (newRoutingTable sha256 localID) t)
    (params : LookupParams) (sorter : SliceSort) (arrival : Arrival) (target : Key) {r : Node}
    (foreign : r.key ≠ keyForNodeID sha256 localID) (fresh : r.id ∉ t.storedIDs)
    (nonempty : t.storedIDs ≠ []) (room : t.size < params.withDefaults.k.toNat) :
    ∃ s, (Lookup.mk (some t) (some fun _ _ => [some r]) params).find sorter arrival target = .ok s ∧
      r ∈ s.best := by
  obtain ⟨sound, isLocal⟩ := RoutingTable.sound_of_reachable reached
  obtain ⟨rounds, enough⟩ := params.maxRounds_pos
  have order := sound.nearest_perm sorter target room.le
  refine ⟨_, rfl, ?_⟩
  rw [enough]
  apply Finder.mem_loop_of_answered
  · rfl
  · rw [← isLocal] at foreign
    exact foreign
  · have stored : t.peers ≠ [] := fun empty => nonempty (List.map_eq_nil_iff.mpr empty)
    obtain ⟨n, member⟩ := List.exists_mem_of_ne_nil _ stored
    exact Finder.todo_ne_nil _ params.alpha_pos (order.mem_iff.mpr member) List.not_mem_nil
  · rwa [(order.map Node.id).mem_iff]
  · exact List.not_mem_nil
  · rw [RoutingTable.size_eq_length, RoutingTable.storedIDs, List.length_map] at room
    rw [order.length_eq]
    exact room

/-- What is found was stored, or has been taken over. -/
theorem mem_find {params : LookupParams} {sorter : SliceSort} {arrival : Arrival} {query : Query}
    {t : RoutingTable} {target : Key} {s : Search}
    (found : (Lookup.mk (some t) (some query) params).find sorter arrival target = .ok s) :
    ∀ n ∈ s.best, n ∈ t.peers ∨ Lookup.Takes params sorter arrival query t target n := by
  cases found
  refine Finder.loop_forall _ _ _ (fun n taken => .inr taken) fun n member => .inl ?_
  exact RoutingTable.mem_nearest (List.mem_of_mem_filter member)

/-- A list that is shorter than `K` has the ID of every record that has been taken over. -/
theorem mem_ids_of_taken {params : LookupParams} {sorter : SliceSort} {arrival : Arrival}
    {query : Query} {t : RoutingTable} {target : Key} {s : Search}
    (found : (Lookup.mk (some t) (some query) params).find sorter arrival target = .ok s)
    (room : s.best.length < params.withDefaults.k.toNat) {n : Node}
    (taken : Lookup.Takes params sorter arrival query t target n) : n.id ∈ s.best.map Node.id := by
  cases found
  exact (Finder.loop_of_length_lt _ _ room).2.2 n taken

/-- For every reached table, target, parameters, order of ties and arrival order. If every record
that a lookup takes over from the nodes it queries has the key of its ID, every node that is
found is authentic; if the list is shorter than `K`, and the records that are taken over are of
new IDs and agree on the keys, only then. And if `Query` answers with one record that does not
have the local key, a lookup that has room for it finds it, whatever its ID is. -/
theorem foundAuthentic {localID : Bytes} {t : RoutingTable}
    (reached : Reachable (TableStep sha256) (newRoutingTable sha256 localID) t)
    (params : LookupParams) (sorter : SliceSort) (arrival : Arrival) (target : Key) :
    (∀ (query : Query) (s : Search),
      (Lookup.mk (some t) (some query) params).find sorter arrival target = .ok s →
        ((∀ n, Lookup.Takes params sorter arrival query t target n →
            n.key = keyForNodeID sha256 n.id) →
          ∀ n ∈ s.best, n.Authentic sha256 localID) ∧
        (s.best.length < params.withDefaults.k.toNat →
          (∀ n, Lookup.Takes params sorter arrival query t target n → n.id ∉ t.storedIDs ∧
            ∀ m, Lookup.Takes params sorter arrival query t target m → m.id = n.id →
              m.key = n.key) →
          (∀ n ∈ s.best, n.Authentic sha256 localID) →
            ∀ n, Lookup.Takes params sorter arrival query t target n →
              n.key = keyForNodeID sha256 n.id)) ∧
    ∀ r : Node, r.key ≠ keyForNodeID sha256 localID → r.id ∉ t.storedIDs → t.storedIDs ≠ [] →
      t.size < params.withDefaults.k.toNat →
        ∃ s, (Lookup.mk (some t) (some fun _ _ => [some r]) params).find sorter arrival target =
          .ok s ∧ r ∈ s.best := by
  obtain ⟨sound, isLocal⟩ := RoutingTable.sound_of_reachable reached
  refine ⟨fun query s found =>
      ⟨fun authentic n member => ?_, fun room apart authentic n taken => ?_⟩,
    fun r => mem_find_of_answered reached params sorter arrival target⟩
  · have kept : n.key = keyForNodeID sha256 n.id ∧ n.key ≠ t.self := by
      rcases mem_find found n member with stored | taken
      · exact sound.mem_peers stored
      · obtain ⟨_, _, _, _, _, _, foreign⟩ := id taken
        exact ⟨authentic n taken, foreign⟩
    refine ⟨kept.1, fun isSelf => kept.2 ?_⟩
    rw [kept.1, isSelf, isLocal]
  · -- With room left, the shortlist has a record for every ID that was taken over.
    obtain ⟨e, member, same⟩ := List.mem_map.mp (mem_ids_of_taken found room taken)
    obtain ⟨fresh, agree⟩ := apart n taken
    rcases mem_find found e member with stored | alsoTaken
    · exact absurd (same ▸ List.mem_map_of_mem stored) fresh
    · rw [← agree e alsoTaken same, ← same]
      exact (authentic e member).1

/-- A sorter for concrete lookups. -/
def insertionSorter : SliceSort := fun target => .insertion (Node.rank target)

/-- Answers arrive in the order of the queries. -/
def inOrder : Arrival :=
  ⟨fun _ answers => answers, fun _ answers => .refl answers⟩

/-- A record with the ID of the local node and a key that is not its own. -/
def forgedSelf : Node :=
  ⟨ascii "local", ⟨List.replicate 20 255, List.length_replicate⟩, ascii "ep-x", 0⟩

/-- A neighbour that answers with it makes the lookup return the local node. -/
theorem forgedSelf_found :
    ∃ s, (Lookup.mk (some sampleTable) (some fun _ _ => [some forgedSelf]) ⟨0, 0, 0⟩).find
        insertionSorter inOrder forgedSelf.key = .ok s ∧
      forgedSelf ∈ s.best ∧ forgedSelf.id = ascii "local" ∧
      forgedSelf.key ≠ keyForNodeID paddedDigest forgedSelf.id := by
  obtain ⟨s, found, member⟩ := mem_find_of_answered sampleTable_reached ⟨0, 0, 0⟩
    insertionSorter inOrder forgedSelf.key (r := forgedSelf) (by decide) (by decide +kernel)
    (by decide +kernel) (by decide +kernel)
  exact ⟨s, found, member, rfl, by decide⟩

/-- Neighbour `a` answers with the record of `b`, and every other node with a forged one. -/
def oneHonest : Query := fun n _ =>
  if n.id = ascii "a" then sampleTable.peers.map some else [some forgedSelf]

/-- With one query, of the neighbour that answers with the records of its table, the forged
record of the other is never taken over, and the nodes that are found are authentic. -/
theorem announcedNodes_authentic :
    ∃ s, (Lookup.mk (some sampleTable) (some oneHonest) ⟨1, 0, 1⟩).find insertionSorter inOrder
        (keyForNodeID paddedDigest (ascii "a")) = .ok s ∧
      s.best.map Node.id = [ascii "a", ascii "b"] ∧
      ∀ n ∈ s.best, n.Authentic paddedDigest (ascii "local") := by
  refine ⟨_, rfl, by decide +kernel, ?_⟩
  refine ((foundAuthentic sampleTable_reached ⟨1, 0, 1⟩ insertionSorter inOrder
    (keyForNodeID paddedDigest (ascii "a"))).1 oneHonest _ rfl).1 ?_
  rintro n ⟨r, early, source, asked, answer, _⟩
  have once : Lookup.roundsUsed ⟨1, 0, 1⟩ insertionSorter inOrder oneHonest sampleTable
      (keyForNodeID paddedDigest (ascii "a")) = 1 := by decide +kernel
  have first : ∀ source ∈ (Lookup.finder ⟨1, 0, 1⟩ insertionSorter inOrder oneHonest sampleTable
      (keyForNodeID paddedDigest (ascii "a"))).todo
        (Lookup.searchAfter ⟨1, 0, 1⟩ insertionSorter inOrder oneHonest sampleTable
          (keyForNodeID paddedDigest (ascii "a")) 0), source.id = ascii "a" := by decide +kernel
  obtain rfl : r = 0 := Nat.lt_one_iff.mp (lt_of_lt_of_eq early once)
  have answered : some n ∈ sampleTable.peers.map some := by
    have sent : some n ∈ oneHonest source (keyForNodeID paddedDigest (ascii "a")) := answer
    rwa [oneHonest, if_pos (first source asked)] at sent
  obtain ⟨other, member, same⟩ := List.mem_map.mp answered
  rw [← Option.some.inj same]
  exact ((RoutingTable.sound_of_reachable sampleTable_reached).1.mem_peers member).1

end P2pMesh.Dht

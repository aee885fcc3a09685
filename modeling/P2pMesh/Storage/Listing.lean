import P2pMesh.Foundation.Sorting
import P2pMesh.Storage.Nodes

/-! # Listing nodes

`ListNodes` of `internal/storage/sqlstore.go`, which builds its statement piece by piece, and the
part of SQL that these statements are in, as SQLite and MySQL read it. Rows with the same time
of creation may come in any order.

The statement means what the filter says, and no value of the filter is in its text; a filter
with an offset and no limit makes a statement that is refused
(`P2pMesh.NodeTable.listNodes_correct`). Nodes with different times of creation can be read page
by page (`P2pMesh.NodeTable.listNodes_pages`).
-/

namespace P2pMesh

open Foundation

/-- `NodeFilter` of `internal/storage`. -/
structure NodeFilter where
  roomID : Bytes
  status : Bytes
  limit : Int
  offset : Int

/-- A value that is bound to a placeholder. -/
inductive Arg where
  | text (value : Bytes)
  | number (value : Int)
deriving DecidableEq

/-- The text of a statement, and the values for its placeholders. -/
structure Query where
  text : Bytes
  args : List Arg
deriving DecidableEq

/-- The front of the statement of `ListNodes`. -/
def selectNodes : Bytes :=
  ascii ("SELECT id, pubkey, room_id, ipv6_addr, ipv4_addr, public_addr, nat_type, status, " ++
    "created_at, last_seen FROM nodes")

namespace NodeFilter

/-- The condition on the room. -/
def withRoom (f : NodeFilter) (q : Query) : Query :=
  if f.roomID ≠ [] then ⟨q.text ++ ascii " WHERE room_id = ?", q.args ++ [.text f.roomID]⟩
  else q

/-- The condition on the status, after that on the room if there is one. -/
def withStatus (f : NodeFilter) (q : Query) : Query :=
  if f.status ≠ [] then
    ⟨(if 0 < q.args.length then q.text ++ ascii " AND" else q.text ++ ascii " WHERE") ++
      ascii " status = ?", q.args ++ [.text f.status]⟩
  else q

/-- The statement with its order. -/
def ordered (q : Query) : Query :=
  { q with text := q.text ++ ascii " ORDER BY created_at DESC" }

/-- The statement with the limit of a filter. -/
def withLimit (f : NodeFilter) (q : Query) : Query :=
  if 0 < f.limit then ⟨q.text ++ ascii " LIMIT ?", q.args ++ [.number f.limit]⟩ else q

/-- The statement with the offset of a filter. -/
def withOffset (f : NodeFilter) (q : Query) : Query :=
  if 0 < f.offset then ⟨q.text ++ ascii " OFFSET ?", q.args ++ [.number f.offset]⟩ else q

/-- The statement that `ListNodes` builds. -/
def listQuery (f : NodeFilter) : Query :=
  f.withOffset (f.withLimit (ordered (f.withStatus (f.withRoom ⟨selectNodes, []⟩))))

end NodeFilter

/-- A column that is compared with an argument. -/
inductive Column where
  | roomID
  | status
deriving DecidableEq

/-- The name of a column. -/
def Column.name : Column → Bytes
  | .roomID => ascii "room_id"
  | .status => ascii "status"

/-- The value of a column. -/
def Column.of (n : Node) : Column → Bytes
  | .roomID => n.roomID
  | .status => n.status

/-- A statement that selects nodes, the newest first. -/
structure Select where
  conditions : List Column
  limit : Bool
  offset : Bool
deriving DecidableEq

namespace Select

/-- Comparisons with placeholders, joined by `AND`. -/
def readConditions : List Bytes → Option (List Column × List Bytes)
  | name :: equals :: mark :: rest =>
      if equals = ascii "=" ∧ mark = ascii "?" then
        match [Column.roomID, .status].find? fun column => column.name = name with
        | none => none
        | some column =>
            match rest with
            | [] => some ([column], [])
            | word :: more =>
                if word = ascii "AND" then
                  (readConditions more).map fun read => (column :: read.1, read.2)
                else some ([column], word :: more)
      else none
  | _ => none

/-- The end of a statement: an offset comes after a limit only. -/
def readEnd (conditions : List Column) (rest : List Bytes) : Option Select :=
  if rest = [] then some ⟨conditions, false, false⟩
  else if rest = [ascii "LIMIT", ascii "?"] then some ⟨conditions, true, false⟩
  else if rest = [ascii "LIMIT", ascii "?", ascii "OFFSET", ascii "?"] then
    some ⟨conditions, true, true⟩
  else none

/-- The order, after the conditions. -/
def readOrder (conditions : List Column) : List Bytes → Option Select
  | order :: by_ :: column :: desc :: rest =>
      if [order, by_, column, desc] =
          [ascii "ORDER", ascii "BY", ascii "created_at", ascii "DESC"] then
        readEnd conditions rest
      else none
  | _ => none

/-- The words of a text, which are parted by single spaces. -/
def words (text : Bytes) : List Bytes :=
  text.splitOn 32

/-- How the database reads the text of a statement. -/
def read (text : Bytes) : Option Select :=
  let front := words selectNodes
  if (words text).take front.length = front then
    match (words text).drop front.length with
    | [] => none
    | word :: more =>
        if word = ascii "WHERE" then
          (readConditions more).bind fun read => readOrder read.1 read.2
        else readOrder [] (word :: more)
  else none

/-- The conditions with the first arguments, and the other arguments. -/
def bindConditions : List Column → List Arg → Option (List (Column × Bytes) × List Arg)
  | [], args => some ([], args)
  | column :: columns, .text value :: args =>
      (bindConditions columns args).map fun bound => ((column, value) :: bound.1, bound.2)
  | _ :: _, _ => none

/-- The limit and the offset. -/
def bindWindow (s : Select) (args : List Arg) : Option (Option Int × Int) :=
  match s.limit, s.offset, args with
  | false, false, [] => some (none, 0)
  | true, false, [.number limit] => some (some limit, 0)
  | true, true, [.number limit, .number offset] => some (some limit, offset)
  | _, _, _ => none

/-- The rows of a window; a negative limit is none. -/
def window (rows : List Node) : Option Int × Int → List Node
  | (none, offset) => rows.drop offset.toNat
  | (some limit, offset) =>
      if limit < 0 then rows.drop offset.toNat else (rows.drop offset.toNat).take limit.toNat

end Select

/-- Newer nodes come first. -/
def Node.age (n : Node) : Int :=
  -n.createdAt

/-- The rows that a statement selects; there are none if it is refused. -/
def NodeTable.select (order : Sorting Node.age) (table : NodeTable) (q : Query) :
    Option (List Node) :=
  (Select.read q.text).bind fun s =>
    (Select.bindConditions s.conditions q.args).bind fun bound =>
      (s.bindWindow bound.2).map fun bounds =>
        Select.window (order.sort (table.rows.filter fun n =>
          bound.1.all fun condition => condition.1.of n = condition.2)) bounds

/-- `ListNodes`. -/
def NodeTable.listNodes (order : Sorting Node.age) (table : NodeTable) (f : NodeFilter) :
    Option (List Node) :=
  table.select order f.listQuery

/-- What the filter asks of a node. -/
def NodeFilter.picks (f : NodeFilter) (n : Node) : Bool :=
  (f.roomID = [] ∨ n.roomID = f.roomID) ∧ (f.status = [] ∨ n.status = f.status)

/-- The part of a listing that the filter asks for. -/
def NodeFilter.window (f : NodeFilter) (rows : List Node) : List Node :=
  let rest := rows.drop f.offset.toNat
  if 0 < f.limit then rest.take f.limit.toNat else rest

/-- The text of the statement of a filter, by the fields that are set. -/
def shapeText (room status limit offset : Bool) : Bytes :=
  selectNodes ++ (if room then ascii " WHERE room_id = ?" else []) ++
    (if status then (if room then ascii " AND" else ascii " WHERE") ++ ascii " status = ?"
      else []) ++
    ascii " ORDER BY created_at DESC" ++ (if limit then ascii " LIMIT ?" else []) ++
    (if offset then ascii " OFFSET ?" else [])

/-- How the statement of a filter is read. -/
theorem read_shapeText : ∀ room status limit offset : Bool,
    Select.read (shapeText room status limit offset) =
      if offset && !limit then none
      else some ⟨(if room then [.roomID] else []) ++ (if status then [.status] else []), limit,
        offset⟩ := by
  decide +kernel

/-- The values of the filter, in the order of the placeholders. -/
def NodeFilter.values (f : NodeFilter) : List Arg × List Arg :=
  ((if f.roomID ≠ [] then [.text f.roomID] else []) ++
    (if f.status ≠ [] then [.text f.status] else []),
  (if 0 < f.limit then [.number f.limit] else []) ++
    (if 0 < f.offset then [.number f.offset] else []))

/-- A piece of a statement and its value, if they are asked for. -/
theorem Query.piece_eq (q : Query) (asked : Prop) [Decidable asked] (text : Bytes) (value : Arg) :
    (if asked then ⟨q.text ++ text, q.args ++ [value]⟩ else q) =
      Query.mk (q.text ++ if asked then text else [])
        (q.args ++ if asked then [value] else []) := by
  split
  · rfl
  · rw [List.append_nil, List.append_nil]

namespace NodeFilter

variable (f : NodeFilter) (q : Query)

/-- The room adds its clause and its value, if it is given. -/
theorem withRoom_eq : f.withRoom q =
    ⟨q.text ++ if f.roomID ≠ [] then ascii " WHERE room_id = ?" else [],
      q.args ++ if f.roomID ≠ [] then [.text f.roomID] else []⟩ :=
  q.piece_eq _ _ _

/-- The status adds its clause and its value, if it is given; the word in front depends on the
values before. -/
theorem withStatus_eq : f.withStatus q =
    ⟨q.text ++ if f.status ≠ [] then
        (if 0 < q.args.length then ascii " AND" else ascii " WHERE") ++ ascii " status = ?" else [],
      q.args ++ if f.status ≠ [] then [.text f.status] else []⟩ := by
  rw [← q.piece_eq, withStatus, ← apply_ite (q.text ++ ·), List.append_assoc]

/-- A positive limit adds its clause and its value. -/
theorem withLimit_eq : f.withLimit q =
    ⟨q.text ++ if 0 < f.limit then ascii " LIMIT ?" else [],
      q.args ++ if 0 < f.limit then [.number f.limit] else []⟩ :=
  q.piece_eq _ _ _

/-- A positive offset adds its clause and its value. -/
theorem withOffset_eq : f.withOffset q =
    ⟨q.text ++ if 0 < f.offset then ascii " OFFSET ?" else [],
      q.args ++ if 0 < f.offset then [.number f.offset] else []⟩ :=
  q.piece_eq _ _ _

/-- The query has one of sixteen shapes, with the values of the filter in their order. -/
theorem listQuery_eq : f.listQuery =
    ⟨shapeText (f.roomID ≠ []) (f.status ≠ []) (0 < f.limit) (0 < f.offset),
      f.values.1 ++ f.values.2⟩ := by
  have roomFirst : (0 < (if f.roomID ≠ [] then [Arg.text f.roomID] else []).length) ↔
      f.roomID ≠ [] := by
    split
    next given => exact iff_of_true Nat.one_pos given
    next absent => exact iff_of_false (Nat.lt_irrefl 0) absent
  simp only [listQuery, withOffset_eq, withLimit_eq, ordered, withStatus_eq, withRoom_eq,
    List.nil_append, roomFirst, shapeText, values, decide_eq_true_eq, List.append_assoc]

/-- The conditions of a filter take its first values. -/
theorem bindConditions_eq (more : List Arg) :
    Select.bindConditions
        ((if f.roomID ≠ [] then [.roomID] else []) ++ if f.status ≠ [] then [.status] else [])
        (f.values.1 ++ more) =
      some ((if f.roomID ≠ [] then [(.roomID, f.roomID)] else []) ++
        (if f.status ≠ [] then [(.status, f.status)] else []), more) := by
  unfold values
  split
  · split
    · rfl
    · rfl
  · split
    · rfl
    · rfl

/-- They say what the filter asks of a node. -/
theorem picks_eq (n : Node) :
    (((if f.roomID ≠ [] then [(.roomID, f.roomID)] else []) ++
      (if f.status ≠ [] then [(.status, f.status)] else []) : List (Column × Bytes)).all
        fun condition => condition.1.of n = condition.2) = f.picks n := by
  rw [Bool.eq_iff_iff, List.all_eq_true]
  simp only [decide_eq_true_eq]
  by_cases room : f.roomID = []
  · by_cases status : f.status = []
    · simp [picks, room, status]
    · simp [picks, room, status, Column.of]
  · by_cases status : f.status = []
    · simp [picks, room, status, Column.of]
    · simp [picks, room, status, Column.of]

/-- The end of the statement takes the other values. -/
theorem bindWindow_eq (conditions : List Column) (allowed : ¬ (0 < f.offset ∧ f.limit ≤ 0))
    (rows : List Node) :
    (Select.bindWindow ⟨conditions, 0 < f.limit, 0 < f.offset⟩ f.values.2).map
      (Select.window rows) = some (f.window rows) := by
  unfold values window
  by_cases limit : 0 < f.limit
  · have nonneg : ¬ f.limit < 0 := by omega
    by_cases offset : 0 < f.offset
    · simp [limit, offset, Select.bindWindow, Select.window, nonneg]
    · have zero : f.offset.toNat = 0 := by omega
      simp [limit, offset, Select.bindWindow, Select.window, nonneg, zero]
  · have offset : ¬ 0 < f.offset := fun positive => allowed ⟨positive, by omega⟩
    have zero : f.offset.toNat = 0 := by omega
    simp [limit, offset, Select.bindWindow, Select.window, zero]

end NodeFilter

namespace NodeTable

/-- An offset without a limit is refused; otherwise the matching nodes are sorted by age and the
window is cut. -/
theorem listNodes_eq (order : Sorting Node.age) (table : NodeTable) (f : NodeFilter) :
    table.listNodes order f =
      if 0 < f.offset ∧ f.limit ≤ 0 then none
      else some (f.window (order.sort (table.rows.filter f.picks))) := by
  rw [listNodes, select, f.listQuery_eq]
  simp only [read_shapeText]
  by_cases refused : 0 < f.offset ∧ f.limit ≤ 0
  · have short : ¬ 0 < f.limit := by omega
    simp [refused, short]
  · have accepted : (decide (0 < f.offset) && !decide (0 < f.limit)) = false := by
      simp only [Bool.and_eq_false_iff, decide_eq_false_iff_not, Bool.not_eq_false',
        decide_eq_true_eq]
      omega
    simp only [accepted, refused, Bool.false_eq_true, ↓reduceIte, decide_eq_true_eq,
      Option.bind_some, f.bindConditions_eq, f.picks_eq, f.bindWindow_eq _ refused]

/-- The statement that `ListNodes` builds selects the nodes that the filter picks, the newest
first, from the offset on and up to the limit; it is refused if there is an offset and no limit.
Its text depends only on which fields of the filter are set: no value is part of it. -/
theorem listNodes_correct (f : NodeFilter) :
    (∀ (order : Sorting Node.age) (table : NodeTable), table.listNodes order f =
      if 0 < f.offset ∧ f.limit ≤ 0 then none
      else some (f.window (order.sort (table.rows.filter f.picks)))) ∧
    ∀ g : NodeFilter, (f.roomID = [] ↔ g.roomID = []) → (f.status = [] ↔ g.status = []) →
      (0 < f.limit ↔ 0 < g.limit) → (0 < f.offset ↔ 0 < g.offset) →
        f.listQuery.text = g.listQuery.text := by
  refine ⟨fun order table => listNodes_eq order table f, ?_⟩
  intro g room status limit offset
  simp only [f.listQuery_eq, g.listQuery_eq, ne_eq, room, status, limit, offset]

/-- When the nodes that the filter picks have different times of creation there is one listing of
them, and the pages that are read at different times are its parts. -/
theorem listNodes_pages {table : NodeTable} {f : NodeFilter} {size : Nat} (positive : 0 < size)
    (distinct : ∀ a ∈ table.rows.filter f.picks, ∀ b ∈ table.rows.filter f.picks,
      a.createdAt = b.createdAt → a = b) :
    ∃ listing : List Node, listing.Perm (table.rows.filter f.picks) ∧
      listing.Pairwise (fun a b => b.createdAt ≤ a.createdAt) ∧
      ∀ (order : Sorting Node.age) (page : Nat),
        table.listNodes order { f with limit := size, offset := (page * size : Nat) } =
          some ((listing.drop (page * size)).take size) := by
  let newest : Sorting Node.age := .insertion Node.age
  refine ⟨newest.sort (table.rows.filter f.picks), newest.perm _, ?_, fun order page => ?_⟩
  · refine (newest.sorted _).imp fun {a b} older => ?_
    unfold Node.age at older
    omega
  · have same : order.sort (table.rows.filter f.picks) =
        newest.sort (table.rows.filter f.picks) := by
      apply Sorting.sort_eq_of_perm order newest (List.Perm.refl _)
      intro a first b second ages
      unfold Node.age at ages
      exact distinct a first b second (by omega)
    have limited : (0 : Int) < size := by omega
    have picks : NodeFilter.picks { f with limit := size, offset := (page * size : Nat) } =
        f.picks := rfl
    rw [listNodes_eq, picks, same, if_neg fun refused => not_le.mpr limited refused.2]
    simp only [NodeFilter.window, limited, ↓reduceIte, Int.toNat_natCast]

/-- Two nodes of a room, the second one newer, and a node of another room with the age of the
first. -/
def threeNodes : NodeTable where
  rows := [⟨[1], some [1], ascii "r", [6], [], [], [], [], 1, 1⟩,
    ⟨[2], some [2], ascii "r", [7], [], [], [], [], 2, 2⟩,
    ⟨[3], some [3], ascii "s", [8], [], [], [], [], 1, 1⟩]
  unique := by decide

/-- The nodes of the room are read on two pages. -/
theorem threeNodes_paged : ∃ listing : List Node,
    listing.Perm (threeNodes.rows.filter (NodeFilter.picks ⟨ascii "r", [], 0, 0⟩)) ∧
      listing.Pairwise (fun a b => b.createdAt ≤ a.createdAt) ∧
      ∀ (order : Sorting Node.age) (page : Nat),
        threeNodes.listNodes order ⟨ascii "r", [], (1 : Nat), (page * 1 : Nat)⟩ =
          some ((listing.drop (page * 1)).take 1) :=
  listNodes_pages (f := ⟨ascii "r", [], 0, 0⟩) Nat.one_pos (by decide)

end NodeTable

end P2pMesh

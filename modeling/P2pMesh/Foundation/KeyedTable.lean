import Mathlib.Data.List.Nodup

/-! # Tables with a primary key

A table is a list of rows whose keys are distinct. An upsert merges the new row into
the row with its key or appends it, as `INSERT … ON CONFLICT(key) DO UPDATE` does;
the rows after an upsert or a deletion are characterised by membership.
-/

namespace Foundation

variable {Row Key : Type*} [DecidableEq Key]

/-- Rows with different keys. -/
structure KeyedTable (key : Row → Key) where
  rows : List Row
  unique : (rows.map key).Nodup

namespace KeyedTable

variable {key : Row → Key}

/-- A table without rows. -/
def empty : KeyedTable key :=
  ⟨[], List.nodup_nil⟩

/-- The row with this key. -/
def find (table : KeyedTable key) (k : Key) : Option Row :=
  table.rows.find? fun row => key row = k

omit [DecidableEq Key] in
/-- A key has one row. -/
theorem eq_of_key_eq (table : KeyedTable key) {first second : Row} (left : first ∈ table.rows)
    (right : second ∈ table.rows) (same : key first = key second) : first = second :=
  List.inj_on_of_nodup_map table.unique left right same

/-- A row that is found is in the table, under the key. -/
theorem mem_of_find {table : KeyedTable key} {k : Key} {row : Row}
    (found : table.find k = some row) : row ∈ table.rows ∧ key row = k := by
  unfold find at found
  have chosen := List.find?_some found
  exact ⟨List.mem_of_find?_eq_some found, of_decide_eq_true chosen⟩

/-- `find` finds the row with the key. -/
theorem find_eq_some_iff (table : KeyedTable key) (k : Key) (row : Row) :
    table.find k = some row ↔ row ∈ table.rows ∧ key row = k := by
  refine ⟨mem_of_find, ?_⟩
  rintro ⟨member, rfl⟩
  cases found : table.find (key row) with
  | none =>
      have absent := List.find?_eq_none.mp found row member
      simp at absent
  | some other =>
      obtain ⟨present, same⟩ := mem_of_find found
      rw [table.eq_of_key_eq present member same]

/-- `find` finds nothing if no row has the key. -/
theorem find_eq_none_iff (table : KeyedTable key) (k : Key) :
    table.find k = none ↔ ∀ row ∈ table.rows, key row ≠ k := by
  unfold find
  rw [List.find?_eq_none]
  simp only [decide_eq_true_eq, ne_eq]

/-- Delete the row with this key. -/
def erase (table : KeyedTable key) (k : Key) : KeyedTable key where
  rows := table.rows.filter fun row => key row ≠ k
  unique := table.unique.sublist (List.filter_sublist.map key)

/-- An erasure removes the row with the key and no other. -/
theorem mem_erase_iff (table : KeyedTable key) (k : Key) (row : Row) :
    row ∈ (table.erase k).rows ↔ row ∈ table.rows ∧ key row ≠ k := by
  simp only [erase, ne_eq, decide_not, List.mem_filter, Bool.not_eq_true', decide_eq_false_iff_not]

/-- After an erasure the key is not found, and the others are as before. -/
theorem find_erase (table : KeyedTable key) (k other : Key) :
    (table.erase k).find other = if other = k then none else table.find other := by
  split
  · rename_i same
    rw [find_eq_none_iff]
    intro row member
    rw [same]
    exact ((table.mem_erase_iff k row).mp member).2
  · rename_i differs
    apply Option.ext
    intro row
    rw [find_eq_some_iff, find_eq_some_iff, mem_erase_iff]
    constructor
    · rintro ⟨⟨member, _⟩, found⟩
      exact ⟨member, found⟩
    · rintro ⟨member, found⟩
      exact ⟨⟨member, found.trans_ne differs⟩, found⟩

section Upsert

variable (merge : Row → Row → Row) (keeps : ∀ old new, key (merge old new) = key old)

/-- The rows after an upsert: the row of the key is merged, or a new one is added. -/
def upsertRows (table : KeyedTable key) (row : Row) : List Row :=
  match table.find (key row) with
  | some _ => table.rows.map fun old => if key old = key row then merge old row else old
  | none => table.rows ++ [row]

include keeps in
/-- An upsert keeps the keys distinct. -/
theorem nodup_upsertRows (table : KeyedTable key) (row : Row) :
    ((table.upsertRows merge row).map key).Nodup := by
  unfold upsertRows
  cases found : table.find (key row) with
  | some _ =>
      have same : (table.rows.map fun old => if key old = key row then merge old row else old).map
          key = table.rows.map key := by
        rw [List.map_map]
        apply List.map_congr_left
        intro old _
        rw [Function.comp_apply]
        split
        · exact keeps old row
        · rfl
      rw [same]
      exact table.unique
  | none =>
      have absent := (find_eq_none_iff table (key row)).mp found
      rw [List.map_append]
      refine List.nodup_append.mpr ⟨table.unique, List.nodup_singleton _, ?_⟩
      intro k member k' last
      obtain ⟨old, present, rfl⟩ := List.mem_map.mp member
      rw [List.mem_singleton.mp last]
      exact absent old present

/-- Merge the row into the row with its key, or append it. -/
def upsert (table : KeyedTable key) (row : Row) : KeyedTable key :=
  ⟨table.upsertRows merge row, table.nodup_upsertRows merge keeps row⟩

/-- The row that an upsert leaves under the key of the given row. -/
def merged (table : KeyedTable key) (row : Row) : Row :=
  match table.find (key row) with
  | some old => merge old row
  | none => row

include keeps in
theorem key_merged (table : KeyedTable key) (row : Row) :
    key (table.merged merge row) = key row := by
  unfold merged
  cases found : table.find (key row) with
  | none => rfl
  | some old => exact (keeps old row).trans (mem_of_find found).2

/-- An upsert replaces the row with the key by the merged one and leaves all others. -/
theorem mem_upsert_iff (table : KeyedTable key) (row other : Row) :
    other ∈ (table.upsert merge keeps row).rows ↔
      (other ∈ table.rows ∧ key other ≠ key row) ∨ other = table.merged merge row := by
  change other ∈ table.upsertRows merge row ↔ _
  unfold upsertRows merged
  cases found : table.find (key row) with
  | none =>
      have absent := (find_eq_none_iff table (key row)).mp found
      simp only [List.mem_append, List.mem_singleton]
      refine or_congr_left ⟨fun member => ⟨member, absent other member⟩, And.left⟩
  | some old =>
      obtain ⟨present, same⟩ := mem_of_find found
      simp only [List.mem_map]
      constructor
      · rintro ⟨source, member, rfl⟩
        split
        · rename_i conflict
          rw [table.eq_of_key_eq member present (conflict.trans same.symm)]
          exact Or.inr rfl
        · rename_i differs
          exact Or.inl ⟨member, differs⟩
      · rintro (⟨member, differs⟩ | rfl)
        · exact ⟨other, member, if_neg differs⟩
        · exact ⟨old, present, if_pos same⟩

/-- After an upsert the key has the merged row, and the others are as before. -/
theorem find_upsert (table : KeyedTable key) (row : Row) (k : Key) :
    (table.upsert merge keeps row).find k =
      if k = key row then some (table.merged merge row) else table.find k := by
  split
  · rename_i same
    rw [find_eq_some_iff, mem_upsert_iff, same]
    exact ⟨Or.inr rfl, table.key_merged merge keeps row⟩
  · rename_i differs
    apply Option.ext
    intro other
    rw [find_eq_some_iff, find_eq_some_iff, mem_upsert_iff]
    constructor
    · rintro ⟨⟨member, _⟩ | rfl, found⟩
      · exact ⟨member, found⟩
      · exact absurd (found.symm.trans (table.key_merged merge keeps row)) differs
    · rintro ⟨member, found⟩
      exact ⟨Or.inl ⟨member, found.trans_ne differs⟩, found⟩

/-- An upsert outside of what a query selects leaves the selection. -/
theorem filter_upsert (selects : Row → Bool) (table : KeyedTable key) (row : Row)
    (unselected : table.find (key row) = none → selects row = false)
    (stable : ∀ old, table.find (key row) = some old →
      selects (merge old row) = selects old ∧ (selects old = true → merge old row = old)) :
    (table.upsert merge keeps row).rows.filter selects = table.rows.filter selects := by
  change (table.upsertRows merge row).filter selects = _
  unfold upsertRows
  cases found : table.find (key row) with
  | none => simp [List.filter_append, unselected found]
  | some _ =>
      have same (old : Row) (member : old ∈ table.rows) (conflict : key old = key row) :=
        stable old ((table.find_eq_some_iff _ _).mpr ⟨member, conflict⟩)
      rw [List.filter_map]
      have selection : table.rows.filter
          (selects ∘ fun old => if key old = key row then merge old row else old) =
            table.rows.filter selects := by
        refine List.filter_congr fun old member => ?_
        by_cases conflict : key old = key row
        · simp only [Function.comp_apply, conflict, ↓reduceIte, (same old member conflict).1]
        · simp only [Function.comp_apply, conflict, ↓reduceIte]
      rw [selection]
      refine (List.map_congr_left fun old member => ?_).trans (List.map_id _)
      obtain ⟨listed, selected⟩ := List.mem_filter.mp member
      by_cases conflict : key old = key row
      · simp only [conflict, ↓reduceIte, (same old listed conflict).2 selected, id_eq]
      · simp only [conflict, ↓reduceIte, id_eq]

end Upsert

/-- Append the row unless its key is there already. -/
def insertNew (table : KeyedTable key) (row : Row) : KeyedTable key :=
  table.upsert (fun old _ => old) (fun _ _ => rfl) row

/-- An insertion that ignores conflicts appends the row, if its key is new. -/
theorem rows_insertNew (table : KeyedTable key) (row : Row) :
    (table.insertNew row).rows =
      if table.find (key row) = none then table.rows ++ [row] else table.rows := by
  change table.upsertRows (fun old _ => old) row = _
  unfold upsertRows
  cases table.find (key row) with
  | none => rfl
  | some old => simp only [ite_self, List.map_id', reduceCtorEq, ↓reduceIte]

/-- The rows after an insertion that ignores conflicts. -/
theorem mem_insertNew_iff (table : KeyedTable key) (row other : Row) :
    other ∈ (table.insertNew row).rows ↔
      other ∈ table.rows ∨ (table.find (key row) = none ∧ other = row) := by
  rw [insertNew, mem_upsert_iff]
  unfold merged
  cases found : table.find (key row) with
  | none =>
      have absent := (find_eq_none_iff table (key row)).mp found
      simp only [true_and]
      exact or_congr_left ⟨And.left, fun member => ⟨member, absent other member⟩⟩
  | some old =>
      obtain ⟨present, same⟩ := mem_of_find found
      simp only [reduceCtorEq, false_and, or_false]
      constructor
      · rintro (⟨member, _⟩ | rfl)
        · exact member
        · exact present
      · intro member
        by_cases conflict : key other = key row
        · exact Or.inr (table.eq_of_key_eq member present (conflict.trans same.symm))
        · exact Or.inl ⟨member, conflict⟩

/-- Change the row with this key. -/
def modify (change : Row → Row) (keeps : ∀ row, key (change row) = key row)
    (table : KeyedTable key) (k : Key) : KeyedTable key where
  rows := table.rows.map fun row => if key row = k then change row else row
  unique := by
    rw [List.map_map, List.map_congr_left (g := key)]
    · exact table.unique
    · intro row _
      rw [Function.comp_apply]
      split
      · exact keeps row
      · rfl

end KeyedTable

end Foundation

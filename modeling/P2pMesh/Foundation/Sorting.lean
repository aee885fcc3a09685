import Mathlib.Data.List.Sort
import Mathlib.Data.List.Nodup
import Mathlib.Order.Defs.LinearOrder

/-! # Sorting by a key

A sorting function orders a list by a key and may leave elements with the same key in any
order. Elements whose keys differ pairwise have only one order
(`Foundation.Sorting.sort_eq_of_strict`), so every two sorting functions agree on them,
whatever the order of their inputs (`Foundation.Sorting.sort_eq_of_perm`). Insertion sort is a
sorting function that keeps the order of elements with the same key.
-/

namespace Foundation

variable {α κ : Type} [LinearOrder κ]

/-- A function that sorts by a key. -/
structure Sorting (key : α → κ) where
  sort : List α → List α
  perm : ∀ list, (sort list).Perm list
  sorted : ∀ list, (sort list).Pairwise fun a b => key a ≤ key b

namespace Sorting

variable {key : α → κ}

/-- The keys of a sorted list increase. -/
theorem pairwise_map (s : Sorting key) (list : List α) :
    ((s.sort list).map key).Pairwise (· ≤ ·) :=
  List.pairwise_map.mpr (s.sorted list)

/-- Two sorted orders of elements with different keys are the same. -/
theorem eq_of_sorted (key : α → κ) {left right : List α} (perm : left.Perm right)
    (distinct : ∀ a ∈ left, ∀ b ∈ left, key a = key b → a = b)
    (sorted : left.Pairwise fun a b => key a ≤ key b)
    (sorted' : right.Pairwise fun a b => key a ≤ key b) : left = right := by
  refine List.Perm.eq_of_pairwise ?_ sorted sorted' perm
  intro a b first second forwards backwards
  exact distinct a first b (perm.mem_iff.mpr second) (le_antisymm forwards backwards)

/-- The only order of elements with different keys. -/
theorem sort_eq_of_strict (s : Sorting key) {list ordered : List α} (perm : list.Perm ordered)
    (strict : ordered.Pairwise fun a b => key a < key b) : s.sort list = ordered := by
  have nodup : (ordered.map key).Nodup := by
    rw [List.Nodup, List.pairwise_map]
    exact strict.imp ne_of_lt
  have whole := (s.perm list).trans perm
  apply eq_of_sorted key whole
  · intro a first b second same
    exact List.inj_on_of_nodup_map nodup (whole.mem_iff.mp first) (whole.mem_iff.mp second) same
  · exact s.sorted list
  · exact strict.imp le_of_lt

/-- Sorting forgets the order of elements with different keys. -/
theorem sort_eq_of_perm (s t : Sorting key) {left right : List α} (perm : left.Perm right)
    (distinct : ∀ a ∈ left, ∀ b ∈ left, key a = key b → a = b) : s.sort left = t.sort right := by
  have whole : (s.sort left).Perm (t.sort right) :=
    ((s.perm left).trans perm).trans (t.perm right).symm
  apply eq_of_sorted key whole
  · intro a first b second
    exact distinct a ((s.perm left).mem_iff.mp first) b ((s.perm left).mem_iff.mp second)
  · exact s.sorted left
  · exact t.sorted right

/-- Insertion sort. -/
def insertion (key : α → κ) : Sorting key where
  sort := List.insertionSort fun a b => key a ≤ key b
  perm := List.perm_insertionSort _
  sorted := by
    have : Std.Total fun a b => key a ≤ key b := ⟨fun a b => le_total (key a) (key b)⟩
    have : IsTrans α fun a b => key a ≤ key b := ⟨fun _ _ _ => le_trans⟩
    exact List.pairwise_insertionSort _

end Sorting

/-- A list in which nothing of a group stands behind something else is the group and then the
rest. -/
theorem eq_filter_append_filter (group : α → Bool) {list : List α}
    (first : list.Pairwise fun a b => group b = true → group a = true) :
    list = list.filter group ++ list.filter fun a => !group a := by
  induction list with
  | nil => rfl
  | cons a list ih =>
      obtain ⟨own, later⟩ := List.pairwise_cons.mp first
      cases inside : group a with
      | true =>
          simp only [List.filter_cons, inside, Bool.not_true, Bool.false_eq_true, ↓reduceIte,
            List.cons_append]
          rw [← ih later]
      | false =>
          have none : ∀ b ∈ a :: list, group b = false := by
            intro b member
            rcases List.mem_cons.mp member with same | member
            · rw [same, inside]
            · rw [← Bool.not_eq_true]
              intro grouped
              rw [own b member grouped] at inside
              cases inside
          rw [List.filter_eq_nil_iff.mpr fun b member => by rw [none b member]; decide,
            List.filter_eq_self.mpr fun b member => by rw [none b member]; rfl, List.nil_append]

end Foundation

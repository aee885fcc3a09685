import Mathlib.Data.Finset.Sort

/-! # Shortlists

The least elements of a set, in order, up to a number. Adding elements one at a time to a
shortlist of that length gives the shortlist of the whole set, so the order in which they are
added, and elements that were cut off and come again, make no difference
(`Foundation.take_eq_shortlist_insert`).
-/

namespace Foundation

variable {β : Type*} [LinearOrder β]

/-- The `k` least elements of the set, in order. -/
def shortlist (k : Nat) (s : Finset β) : List β :=
  s.sort.take k

/-- A shortlist has elements of its set. -/
theorem mem_of_mem_shortlist {k : Nat} {s : Finset β} {x : β} (member : x ∈ shortlist k s) :
    x ∈ s :=
  (Finset.mem_sort _).mp (List.mem_of_mem_take member)

/-- Cutting off before or after an insertion. -/
theorem take_orderedInsert (k : Nat) (x : β) (l : List β) :
    (l.orderedInsert (· ≤ ·) x).take k = ((l.take k).orderedInsert (· ≤ ·) x).take k := by
  induction l generalizing k with
  | nil => rw [List.take_nil]
  | cons y rest ih =>
      cases k with
      | zero => rw [List.take_zero, List.take_zero]
      | succ k =>
          rw [List.take_succ_cons, List.orderedInsert_cons, List.orderedInsert_cons]
          split
          · rw [List.take_succ_cons, List.take_succ_cons]
            cases k with
            | zero => rw [List.take_zero, List.take_zero]
            | succ k => rw [List.take_succ_cons, List.take_succ_cons, List.take_take,
                Nat.min_eq_left (Nat.le_succ k)]
          · rw [List.take_succ_cons, List.take_succ_cons, ih]

/-- A new element is inserted in its place. -/
theorem sort_insert_eq {s : Finset β} {x : β} (fresh : x ∉ s) :
    (insert x s).sort = s.sort.orderedInsert (· ≤ ·) x := by
  apply List.Perm.eq_of_pairwise' (Finset.pairwise_sort _ _)
    ((Finset.pairwise_sort s (· ≤ ·)).orderedInsert x _)
  have listed : (insert x s).sort.Perm (x :: s.toList) :=
    (Finset.sort_perm_toList _ _).trans (Finset.toList_insert fresh)
  have resorted : (x :: s.toList).Perm (x :: s.sort) :=
    (Finset.sort_perm_toList s _).symm.cons x
  exact listed.trans (resorted.trans (List.perm_orderedInsert _ x _).symm)

/-- An element of the set that is not in the shortlist is behind all of it, and the shortlist
has its full length. -/
theorem behind_shortlist {k : Nat} {s : Finset β} {x : β} (member : x ∈ s)
    (cut : x ∉ shortlist k s) :
    (∀ y ∈ shortlist k s, y ≤ x) ∧ (shortlist k s).length = k := by
  have sorted := Finset.pairwise_sort s (· ≤ ·)
  have split := List.take_append_drop k s.sort
  have dropped : x ∈ s.sort.drop k := by
    have listed := (Finset.mem_sort (· ≤ ·)).mpr member
    rw [← split] at listed
    exact (List.mem_append.mp listed).resolve_left cut
  refine ⟨fun y kept => ?_, ?_⟩
  · rw [← split] at sorted
    exact (List.pairwise_append.mp sorted).2.2 y kept x dropped
  · have nonempty := List.length_pos_of_mem dropped
    rw [List.length_drop] at nonempty
    rw [shortlist, List.length_take]
    omega

/-- A sorted list of the shortlist and one more element, cut off again. -/
theorem take_eq_shortlist_insert {k : Nat} {s : Finset β} {x : β} {l : List β}
    (sorted : l.Pairwise (· ≤ ·)) (order : l.Perm (shortlist k s ++ [x]))
    (fresh : x ∉ shortlist k s) : l.take k = shortlist k (insert x s) := by
  have shortlisted : (shortlist k s).Pairwise (· ≤ ·) :=
    (Finset.pairwise_sort s (· ≤ ·)).sublist (List.take_sublist k _)
  by_cases member : x ∈ s
  · obtain ⟨behind, length⟩ := behind_shortlist member fresh
    have last : l = shortlist k s ++ [x] := by
      apply List.Perm.eq_of_pairwise' sorted _ order
      apply List.pairwise_append.mpr ⟨shortlisted, List.pairwise_singleton _ x, ?_⟩
      intro y kept z isLast
      rw [List.mem_singleton.mp isLast]
      exact behind y kept
    rw [Finset.insert_eq_of_mem member, last, List.take_left' length]
  · have inserted : l = (shortlist k s).orderedInsert (· ≤ ·) x := by
      apply List.Perm.eq_of_pairwise' sorted (shortlisted.orderedInsert x _)
      exact order.trans ((List.perm_append_singleton x _).trans
        (List.perm_orderedInsert _ x _).symm)
    rw [shortlist, sort_insert_eq member, take_orderedInsert, inserted]
    rfl

/-- The front of a sorted list without repetitions. -/
theorem take_eq_shortlist {l : List β} (sorted : l.Pairwise (· ≤ ·)) (distinct : l.Nodup)
    (k : Nat) : l.take k = shortlist k l.toFinset := by
  rw [shortlist, (List.toFinset_sort (· ≤ ·) distinct).mpr sorted]

end Foundation

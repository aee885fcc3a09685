import Mathlib.Data.List.Induction
import Mathlib.Data.List.Nodup
import Mathlib.Logic.Function.Iterate

/-! # Walks round a list

A step goes from an element to the one behind its first occurrence, and from the end of the
list back to its start. From the first element the walk goes along the list as far as its
elements differ (`Foundation.RingWalk.iterate_next`). It comes back to every element, from
wherever it is, exactly when a front part without repetitions has all elements and is followed
by the first one, in the list or round its end (`Foundation.RingWalk.covers_iff`).
-/

namespace Foundation

namespace RingWalk

variable {α : Type} [DecidableEq α]

/-- The index of the first occurrence of `x`, or the length if there is none. -/
def position (ring : List α) (x : α) : Nat :=
  ring.idxOf x

/-- The element behind the first occurrence of `x`. -/
def next (ring : List α) (x : α) : α :=
  ring.getD ((position ring x + 1) % ring.length) x

/-- As many steps as there are elements visit all of them. -/
def Covers (ring : List α) (x : α) : Prop :=
  ∀ y ∈ ring, ∃ i < ring.length, (next ring)^[i + 1] x = y

/-- A front part of the list has all elements once, and the first one comes after it. -/
def Closed (ring : List α) : Prop :=
  ∃ k, 0 < k ∧ k ≤ ring.length ∧ (ring.take k).Nodup ∧ (∀ y ∈ ring, y ∈ ring.take k) ∧
    ring[k % ring.length]? = ring[0]?

variable {ring : List α} {k : Nat} {first : α}

/-- The index that the code finds is the position, if there is one. -/
theorem findIdx?_eq_position (ring : List α) (x : α) :
    ring.findIdx? (fun y => decide (y = x)) =
      if position ring x < ring.length then some (position ring x) else none := by
  rw [List.findIdx?_eq_guard_findIdx_lt, Option.guard]
  simp only [position, List.idxOf, beq_eq_decide, decide_eq_true_eq]

/-- The place behind an element, where one that is not in the list counts as the first. -/
theorem findIdx?_succ_mod (ring : List α) (x : α) :
    ((ring.findIdx? fun y => decide (y = x)).getD 0 + 1) % ring.length =
      (position ring x + 1) % ring.length := by
  rw [findIdx?_eq_position]
  split
  · rfl
  next missing =>
    have behind : position ring x = ring.length :=
      Nat.le_antisymm List.idxOf_le_length (Nat.le_of_not_lt missing)
    rw [behind, Nat.add_mod_left]
    rfl

/-- A default does not matter on a list that is not empty. -/
theorem getD_eq_next (nonempty : ring ≠ []) (x y : α) :
    ring.getD ((position ring x + 1) % ring.length) y = next ring x := by
  have range : (position ring x + 1) % ring.length < ring.length :=
    Nat.mod_lt _ (List.length_pos_iff.mpr nonempty)
  simp only [next, List.getD_eq_getElem?_getD, List.getElem?_eq_getElem range, Option.getD_some]

/-- The step from an element of a front part without repetitions. -/
theorem next_of_lt (fits : k ≤ ring.length) (distinct : (ring.take k).Nodup) {i : Nat}
    (inside : i < k) {x : α} (here : ring[i]? = some x) :
    ring[(i + 1) % ring.length]? = some (next ring x) := by
  have front : (ring.take k)[i]? = some x := by rw [List.getElem?_take_of_lt inside, here]
  have index : position ring x = i := by
    obtain ⟨bound, value⟩ := List.getElem?_eq_some_iff.mp front
    have member : x ∈ ring.take k := List.mem_of_getElem? front
    rw [position, ← List.take_append_drop k ring, List.idxOf_append_of_mem member, ← value,
      distinct.idxOf_getElem]
  have range : (i + 1) % ring.length < ring.length := Nat.mod_lt _ (by omega)
  rw [next, index, List.getD_eq_getElem?_getD, List.getElem?_eq_getElem range, Option.getD_some]

/-- The walk goes along a front part without repetitions and one step farther. -/
theorem iterate_next (fits : k ≤ ring.length) (distinct : (ring.take k).Nodup)
    (start : ring[0]? = some first) {i : Nat} (inside : i ≤ k) :
    ring[i % ring.length]? = some ((next ring)^[i] first) := by
  induction i with
  | zero => rwa [Nat.zero_mod]
  | succ i ih =>
      have here := ih (Nat.le_of_succ_le inside)
      rw [Nat.mod_eq_of_lt (by omega)] at here
      rw [Function.iterate_succ_apply']
      exact next_of_lt fits distinct inside here

/-- A closed list is walked round and round. -/
theorem iterate_next_of_closed (positive : 0 < k) (fits : k ≤ ring.length)
    (distinct : (ring.take k).Nodup) (closes : ring[k % ring.length]? = ring[0]?)
    (start : ring[0]? = some first) (i : Nat) :
    ring[i % k]? = some ((next ring)^[i] first) := by
  induction i with
  | zero => rwa [Nat.zero_mod]
  | succ i ih =>
      have inside : i % k < k := Nat.mod_lt _ positive
      have step := next_of_lt fits distinct inside ih
      have turn : (i + 1) % k = (i % k + 1) % k := (Nat.mod_add_mod i k 1).symm
      rw [Function.iterate_succ_apply', ← step, turn]
      by_cases last : i % k + 1 = k
      · rw [last, Nat.mod_self, closes]
      · have before : i % k + 1 < k := by omega
        rw [Nat.mod_eq_of_lt before, Nat.mod_eq_of_lt (Nat.lt_of_lt_of_le before fits)]

/-- Some number of steps leads from one index to another. -/
theorem exists_steps (positive : 0 < k) (m : Nat) {i : Nat} (inside : i < k) :
    ∃ steps < k, (m + steps) % k = i := by
  have here : m % k < k := Nat.mod_lt _ positive
  by_cases ahead : m % k ≤ i
  · refine ⟨i - m % k, by omega, ?_⟩
    rw [← Nat.mod_add_mod, Nat.add_sub_cancel' ahead, Nat.mod_eq_of_lt inside]
  · refine ⟨i + k - m % k, by omega, ?_⟩
    rw [← Nat.mod_add_mod, Nat.add_sub_cancel' (by omega), Nat.add_mod_right,
      Nat.mod_eq_of_lt inside]

omit [DecidableEq α] in
theorem exists_index_of_mem_take {y : α} (member : y ∈ ring.take k) :
    ∃ i < k, ring[i]? = some y := by
  obtain ⟨i, here⟩ := List.mem_iff_getElem?.mp member
  have bound := (List.getElem?_eq_some_iff.mp here).1
  rw [List.length_take] at bound
  have inside : i < k := by omega
  rw [List.getElem?_take_of_lt inside] at here
  exact ⟨i, inside, here⟩

/-- On a ring that closes, the walk from its first element covers it from every place it comes to.
-/
theorem covers_of_closed (closed : Closed ring) (start : ring[0]? = some first) (m : Nat) :
    Covers ring ((next ring)^[m] first) := by
  obtain ⟨k, positive, fits, distinct, all, closes⟩ := closed
  intro y member
  obtain ⟨i, inside, here⟩ := exists_index_of_mem_take (all y member)
  obtain ⟨steps, few, reached⟩ := exists_steps positive (m + 1) inside
  refine ⟨steps, Nat.lt_of_lt_of_le few fits, ?_⟩
  have walked := iterate_next_of_closed positive fits distinct closes start (m + 1 + steps)
  rw [reached, here, Option.some_inj] at walked
  have sum : steps + 1 + m = m + 1 + steps := by omega
  rw [← Function.iterate_add_apply, sum, walked]

/-- Where the walk first comes to an element it has seen, it stays behind it. -/
theorem iterate_next_stays (fits : k < ring.length) (distinct : (ring.take k).Nodup)
    (start : ring[0]? = some first) {j : Nat} (earlier : j < k) (again : ring[k]? = ring[j]?)
    {m : Nat} (late : j ≤ m) :
    ∃ i, j ≤ i ∧ i < k ∧ ring[i]? = some ((next ring)^[m] first) := by
  obtain ⟨extra, rfl⟩ := Nat.exists_eq_add_of_le late
  clear late
  induction extra with
  | zero =>
      refine ⟨j, Nat.le_refl _, earlier, ?_⟩
      have here := iterate_next (Nat.le_of_lt fits) distinct start (Nat.le_of_lt earlier)
      rwa [Nat.mod_eq_of_lt (by omega)] at here
  | succ extra ih =>
      obtain ⟨i, low, high, here⟩ := ih
      have step := next_of_lt (Nat.le_of_lt fits) distinct high here
      rw [Nat.mod_eq_of_lt (by omega)] at step
      rw [← Nat.add_assoc, Function.iterate_succ_apply']
      by_cases last : i + 1 = k
      · exact ⟨j, Nat.le_refl _, earlier, by rw [← again, ← last, step]⟩
      · exact ⟨i + 1, by omega, by omega, step⟩

/-- Either no element is repeated, or there is a first repetition. -/
theorem nodup_or_exists_repeated (ring : List α) :
    ring.Nodup ∨ ∃ j k, j < k ∧ k < ring.length ∧ (ring.take k).Nodup ∧ ring[k]? = ring[j]? := by
  induction ring using List.reverseRecOn with
  | nil => exact Or.inl List.nodup_nil
  | append_singleton ring x ih =>
      rcases ih with nodup | ⟨j, k, earlier, fits, distinct, again⟩
      · by_cases member : x ∈ ring
        · obtain ⟨j, inside, here⟩ := List.mem_iff_getElem.mp member
          refine Or.inr ⟨j, ring.length, inside, by simp, by simpa using nodup, ?_⟩
          rw [List.getElem?_concat_length, List.getElem?_append_left inside,
            List.getElem?_eq_getElem inside, here]
        · exact Or.inl (List.nodup_append.mpr ⟨nodup, List.nodup_singleton x, by
            intro a first b second
            rw [List.mem_singleton.mp second]
            exact ne_of_mem_of_not_mem first member⟩)
      · refine Or.inr ⟨j, k, earlier, by rw [List.length_append]; omega, ?_, ?_⟩
        · rwa [List.take_append_of_le_length (Nat.le_of_lt fits)]
        · rw [List.getElem?_append_left fits,
            List.getElem?_append_left (Nat.lt_trans earlier fits), again]

/-- A ring that is covered from every place of the walk from its first element closes. -/
theorem closed_of_covers (start : ring[0]? = some first)
    (covers : ∀ m, Covers ring ((next ring)^[m] first)) : Closed ring := by
  have positive : 0 < ring.length := (List.getElem?_eq_some_iff.mp start).1
  rcases nodup_or_exists_repeated ring with nodup | ⟨j, k, earlier, fits, distinct, again⟩
  · refine ⟨ring.length, positive, Nat.le_refl _, ?_, ?_, ?_⟩
    · rwa [List.take_length]
    · rw [List.take_length]
      exact fun _ => id
    · rw [Nat.mod_self]
  · -- From the repetition on, only what stands between the two places is visited.
    have visited (y : α) (member : y ∈ ring) : ∃ i, j ≤ i ∧ i < k ∧ ring[i]? = some y := by
      obtain ⟨i, _, reached⟩ := covers k y member
      rw [← Function.iterate_add_apply] at reached
      rw [← reached]
      exact iterate_next_stays fits distinct start earlier again (by omega)
    have zero : j = 0 := by
      obtain ⟨i, low, high, here⟩ := visited first (List.mem_of_getElem? start)
      rw [← start, ← List.getElem?_take_of_lt high,
        ← List.getElem?_take_of_lt (Nat.zero_lt_of_lt high)] at here
      have same : i = 0 :=
        (List.getElem?_inj (by rw [List.length_take]; omega) distinct).mp here
      omega
    refine ⟨k, by omega, Nat.le_of_lt fits, distinct, ?_, ?_⟩
    · intro y member
      obtain ⟨i, _, high, here⟩ := visited y member
      rw [← List.getElem?_take_of_lt high] at here
      exact List.mem_of_getElem? here
    · rw [Nat.mod_eq_of_lt fits, again, zero]

/-- The walk covers the list from wherever it is exactly when the list is closed. -/
theorem covers_iff (start : ring[0]? = some first) :
    (∀ m, Covers ring ((next ring)^[m] first)) ↔ Closed ring :=
  ⟨closed_of_covers start, fun closed => covers_of_closed closed start⟩

end RingWalk

end Foundation

import Mathlib.Data.List.Chain

/-! # The parts of a text between separators

What a list cut by `List.splitOn` says about the list: every part is a sublist without
separators (`Foundation.sublist_of_mem_splitOn`), and a part is empty when the list is, or
when a separator is first, last or next to another one
(`Foundation.nil_mem_splitOn_iff`).
-/

namespace Foundation

/-- Two neighbours are not both separators. -/
def Apart {α : Type} (separator left right : α) : Prop :=
  ¬ (left = separator ∧ right = separator)

instance {α : Type} [DecidableEq α] (separator : α) : DecidableRel (Apart separator) :=
  fun left right => inferInstanceAs (Decidable (¬ (left = separator ∧ right = separator)))

variable {α : Type} [DecidableEq α] {separator : α}

/-- A text that starts with the separator has an empty first part. -/
theorem splitOn_cons_self (text : List α) :
    (separator :: text).splitOn separator = [] :: text.splitOn separator := by
  rw [List.splitOn_cons_eq_if_modifyHead, if_pos (beq_self_eq_true separator)]

/-- An element other than the separator joins the first part. -/
theorem splitOn_cons_of_ne {first : α} (other : first ≠ separator) (text : List α) :
    ∃ part parts, text.splitOn separator = part :: parts ∧
      (first :: text).splitOn separator = (first :: part) :: parts := by
  obtain ⟨part, parts, split⟩ := List.exists_cons_of_ne_nil (List.splitOn_ne_nil separator text)
  refine ⟨part, parts, split, ?_⟩
  rw [List.splitOn_cons_eq_if_modifyHead, if_neg (by simpa using other), split,
    List.modifyHead_cons]

/-- A part is within the text and has no separator. -/
theorem sublist_of_mem_splitOn {text part : List α} (member : part ∈ text.splitOn separator) :
    part.Sublist text ∧ separator ∉ part := by
  induction text generalizing part with
  | nil =>
      rw [List.splitOn_nil, List.mem_singleton] at member
      rw [member]
      exact ⟨List.Sublist.refl _, List.not_mem_nil⟩
  | cons first text ih =>
      by_cases same : first = separator
      · rw [same, splitOn_cons_self] at member
        rcases List.mem_cons.mp member with empty | member
        · rw [empty]
          exact ⟨List.nil_sublist _, List.not_mem_nil⟩
        · exact ⟨(ih member).1.cons _, (ih member).2⟩
      · obtain ⟨own, parts, split, joined⟩ := splitOn_cons_of_ne same text
        rw [joined] at member
        rw [split] at ih
        rcases List.mem_cons.mp member with head | member
        · obtain ⟨inside, free⟩ := ih List.mem_cons_self
          rw [head, List.mem_cons, not_or]
          exact ⟨inside.cons_cons _, Ne.symm same, free⟩
        · obtain ⟨inside, free⟩ := ih (List.mem_cons_of_mem _ member)
          exact ⟨inside.cons _, free⟩

/-- The first part is empty when the separator comes first. -/
theorem nil_mem_splitOn_iff_tail (text : List α) :
    [] ∈ text.splitOn separator ↔
      (text = [] ∨ text.head? = some separator) ∨ [] ∈ (text.splitOn separator).tail := by
  cases text with
  | nil => simp
  | cons first text =>
      by_cases same : first = separator
      · subst same
        simp [splitOn_cons_self]
      · obtain ⟨own, parts, _, joined⟩ := splitOn_cons_of_ne same text
        simp [joined, same]

/-- A later part is empty when the separator comes last or twice in a row. -/
theorem nil_mem_tail_splitOn_iff (text : List α) :
    [] ∈ (text.splitOn separator).tail ↔
      text.getLast? = some separator ∨ ¬ text.IsChain (Apart separator) := by
  induction text with
  | nil => simp
  | cons first text ih =>
      by_cases same : first = separator
      · subst same
        rw [splitOn_cons_self, List.tail_cons, nil_mem_splitOn_iff_tail, ih]
        cases text with
        | nil => simp
        | cons second text => simp [Apart, or_left_comm, imp_iff_not_or]
      · obtain ⟨own, parts, split, joined⟩ := splitOn_cons_of_ne same text
        rw [split] at ih
        have tails : [] ∈ parts ↔ _ := ih
        rw [joined, List.tail_cons, tails]
        cases text with
        | nil => simp [same]
        | cons second text => simp [Apart, same]

/-- A part is empty exactly if the text is, or the separator stands at an end or twice together. -/
theorem nil_mem_splitOn_iff (text : List α) :
    [] ∈ text.splitOn separator ↔
      text = [] ∨ text.head? = some separator ∨ text.getLast? = some separator ∨
        ¬ text.IsChain (Apart separator) := by
  rw [nil_mem_splitOn_iff_tail, nil_mem_tail_splitOn_iff, or_assoc]

end Foundation

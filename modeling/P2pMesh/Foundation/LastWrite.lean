import Mathlib.Data.List.Basic
import Mathlib.Data.Option.Basic

/-! # Cells that keep the last write

A cell of a table over a run: a step may write a value, and a step that does not write may
drop the value that is there. What the cell holds after a run is the value of the last
write, if no later step drops it (`Foundation.Cell.after_eq_some_iff`).
-/

namespace Foundation

variable {Step V : Type*}

/-- What a step writes to the cell, and which values it drops from it. -/
structure Cell (Step V : Type*) where
  writes : Step → Option V
  drops : Step → V → Bool

namespace Cell

/-- What the cell holds after a step. -/
def next (c : Cell Step V) (current : Option V) (step : Step) : Option V :=
  match c.writes step with
  | some value => some value
  | none => current.filter fun value => !c.drops step value

/-- What an empty cell holds after a run. -/
def after (c : Cell Step V) (steps : List Step) : Option V :=
  steps.foldl c.next none

/-- The steps neither write to the cell nor drop the value. -/
def Keeps (c : Cell Step V) (value : V) (steps : List Step) : Prop :=
  ∀ step ∈ steps, c.writes step = none ∧ c.drops step value = false

/-- The value is that of the last write, and no step behind it drops it. -/
def LastWritten (c : Cell Step V) (steps : List Step) (value : V) : Prop :=
  ∃ earlier step later, steps = earlier ++ step :: later ∧ c.writes step = some value ∧
    c.Keeps value later

@[simp] theorem after_append (c : Cell Step V) (steps : List Step) (step : Step) :
    c.after (steps ++ [step]) = c.next (c.after steps) step := by
  rw [after, List.foldl_append]
  rfl

theorem keeps_cons {c : Cell Step V} {value : V} {step : Step} {steps : List Step} :
    c.Keeps value (step :: steps) ↔
      (c.writes step = none ∧ c.drops step value = false) ∧ c.Keeps value steps :=
  List.forall_mem_cons

/-- A step leaves a value if it writes it, or if it was there and the step neither writes nor drops
it. -/
theorem next_eq_some_iff {c : Cell Step V} {current : Option V} {step : Step} {value : V} :
    c.next current step = some value ↔
      c.writes step = some value ∨
        (current = some value ∧ c.writes step = none ∧ c.drops step value = false) := by
  unfold next
  cases written : c.writes step with
  | some other => simp
  | none => simp [Option.filter_eq_some_iff]

/-- A step that neither writes nor drops leaves the cell as it is. -/
theorem next_of_idle {c : Cell Step V} {step : Step} (unwritten : c.writes step = none)
    (kept : ∀ value, c.drops step value = false) (current : Option V) :
    c.next current step = current := by
  cases current <;> simp [next, unwritten, kept, Option.filter]

/-- The last write is the first step, if all later ones keep it, or one of the later ones. -/
theorem lastWritten_cons {c : Cell Step V} {step : Step} {steps : List Step} {value : V} :
    c.LastWritten (step :: steps) value ↔
      (c.writes step = some value ∧ c.Keeps value steps) ∨ c.LastWritten steps value := by
  constructor
  · rintro ⟨earlier, writer, later, split, written, kept⟩
    cases earlier with
    | nil =>
        obtain ⟨rfl, rfl⟩ := List.cons.inj split
        exact Or.inl ⟨written, kept⟩
    | cons first earlier =>
        exact Or.inr ⟨earlier, writer, later, (List.cons.inj split).2, written, kept⟩
  · rintro (⟨written, kept⟩ | ⟨earlier, writer, later, rfl, written, kept⟩)
    · exact ⟨[], step, steps, rfl, written, kept⟩
    · exact ⟨step :: earlier, writer, later, rfl, written, kept⟩

/-- What a run leaves in a cell that held something before. -/
theorem foldl_next_eq_some_iff (c : Cell Step V) (steps : List Step) (current : Option V)
    (value : V) :
    steps.foldl c.next current = some value ↔
      (current = some value ∧ c.Keeps value steps) ∨ c.LastWritten steps value := by
  induction steps generalizing current with
  | nil =>
      have never : ¬ c.LastWritten [] value := by
        rintro ⟨earlier, writer, later, split, _⟩
        simp at split
      simp only [List.foldl_nil, never, or_false]
      exact ⟨fun held => ⟨held, nofun⟩, And.left⟩
  | cons step steps ih =>
      rw [List.foldl_cons, ih, next_eq_some_iff, keeps_cons, lastWritten_cons]
      tauto

/-- What a cell has after some steps is what was last written and kept since. -/
theorem after_eq_some_iff {c : Cell Step V} {steps : List Step} {value : V} :
    c.after steps = some value ↔ c.LastWritten steps value := by
  rw [after, foldl_next_eq_some_iff]
  simp

end Cell

end Foundation

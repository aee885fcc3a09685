import Mathlib.Data.List.Basic
import Mathlib.Data.List.Induction

/-! # Labelled runs and guarded runs

A run of a transition relation carries the labels of its steps in the order in
which they were taken. Guarding a relation keeps the steps whose source state
and label meet a condition, so a run of the guarded relation is a run of the
relation all of whose steps meet the condition.
-/

namespace Foundation

variable {State Label : Type*}

/-- A finite run of `step`, with the labels of its steps in order. -/
inductive Run (step : State → Label → State → Prop) : State → List Label → State → Prop where
  | nil (state : State) : Run step state [] state
  | snoc {source middle target : State} {labels : List Label} {label : Label} :
      Run step source labels middle →
      step middle label target →
      Run step source (labels ++ [label]) target

/-- A state reached by some run. -/
def Reachable (step : State → Label → State → Prop) (source target : State) : Prop :=
  ∃ labels, Run step source labels target

/-- The steps of `step` whose source and label meet `guard`. -/
def Guarded (step : State → Label → State → Prop) (guard : State → Label → Prop) :
    State → Label → State → Prop :=
  fun source label target => guard source label ∧ step source label target

namespace Run

variable {step : State → Label → State → Prop}

/-- A property of states that every step preserves holds after every run. -/
theorem invariant {source target : State} {labels : List Label} {inv : State → Prop}
    (run : Run step source labels target) (start : inv source)
    (preserved : ∀ before label after, inv before → step before label after → inv after) :
    inv target := by
  induction run with
  | nil => exact start
  | snoc _ taken ih => exact preserved _ _ _ ih taken

/-- Where every step keeps an invariant and lowers a measure, a run is no longer than the
measure of its source. -/
theorem length_le {source target : State} {labels : List Label} {inv : State → Prop}
    (run : Run step source labels target) (start : inv source) (measure : State → Nat)
    (lowers : ∀ before label after, inv before → step before label after →
      inv after ∧ measure after < measure before) :
    labels.length + measure target ≤ measure source := by
  have kept := fun before label after before' taken => (lowers before label after before' taken).1
  induction run with
  | nil => exact Nat.le_of_eq (Nat.zero_add _)
  | snoc earlier taken ih =>
      have less := (lowers _ _ _ (earlier.invariant start kept) taken).2
      rw [List.length_append, List.length_singleton]
      omega

/-- Taking each label in turn with a partial step function, where that succeeds, is a run of
its graph. -/
theorem of_foldlM {next : State → Label → Option State} {source target : State}
    {labels : List Label} (taken : labels.foldlM next source = some target) :
    Run (fun before label after => next before label = some after) source labels target := by
  induction labels using List.reverseRecOn generalizing target with
  | nil =>
      cases taken
      exact .nil source
  | append_singleton labels label ih =>
      rw [List.foldlM_append] at taken
      obtain ⟨middle, earlier, last⟩ := Option.bind_eq_some_iff.mp taken
      rw [List.foldlM_cons] at last
      obtain ⟨after, step, same⟩ := Option.bind_eq_some_iff.mp last
      cases same
      exact (ih earlier).snoc step

/-- Two runs, one after the other, are a run. -/
theorem append {source middle target : State} {first second : List Label}
    (run : Run step source first middle) (more : Run step middle second target) :
    Run step source (first ++ second) target := by
  induction more with
  | nil => rwa [List.append_nil]
  | snoc _ taken ih =>
      rw [← List.append_assoc]
      exact ih.snoc taken

end Run

namespace Reachable

variable {step : State → Label → State → Prop}

/-- Every state is reached from itself. -/
theorem refl (state : State) : Reachable step state state :=
  ⟨[], .nil state⟩

/-- What is reached is reached with one more step. -/
theorem tail {source middle target : State} {label : Label}
    (reached : Reachable step source middle) (taken : step middle label target) :
    Reachable step source target := by
  obtain ⟨labels, run⟩ := reached
  exact ⟨labels ++ [label], run.snoc taken⟩

/-- What is reached from what is reached is reached. -/
theorem trans {source middle target : State} (first : Reachable step source middle)
    (second : Reachable step middle target) : Reachable step source target := by
  obtain ⟨_, run⟩ := first
  obtain ⟨_, more⟩ := second
  exact ⟨_, run.append more⟩

/-- A property of states that every step preserves holds in every reachable state. -/
theorem invariant {source target : State} (reached : Reachable step source target)
    (inv : State → Prop) (start : inv source)
    (preserved : ∀ before label after, inv before → step before label after → inv after) :
    inv target := by
  obtain ⟨_, run⟩ := reached
  exact run.invariant start preserved

/-- A guarded run is prolonged by a step that meets the guard. -/
theorem guardedTail {guard : State → Label → Prop} {source middle target : State} {label : Label}
    (reached : Reachable (Guarded step guard) source middle) (taken : step middle label target)
    (meets : guard middle label) : Reachable (Guarded step guard) source target :=
  reached.tail ⟨meets, taken⟩

/-- What is reached is reached with more steps to choose from. -/
theorem mono {more : State → Label → State → Prop} {source target : State}
    (reached : Reachable step source target)
    (weaker : ∀ before label after, step before label after → more before label after) :
    Reachable more source target :=
  reached.invariant (Reachable more source) (.refl source)
    fun _ _ _ before taken => before.tail (weaker _ _ _ taken)

/-- A guarded run is a run. -/
theorem unguarded {guard : State → Label → Prop} {source target : State}
    (reached : Reachable (Guarded step guard) source target) : Reachable step source target :=
  reached.mono fun _ _ _ taken => taken.2

/-- Taking each label in turn where the guard allows it. -/
theorem of_foldlM {next : State → Label → Option State} {guard : State → Label → Prop}
    [∀ state label, Decidable (guard state label)] {source target : State} {labels : List Label}
    (taken : labels.foldlM (fun state label => if guard state label then next state label else none)
      source = some target) :
    Reachable (Guarded (fun before label after => next before label = some after) guard)
      source target := by
  refine (Run.of_foldlM taken).invariant (Reachable.refl source) fun _ _ _ earlier step => ?_
  obtain ⟨meets, step⟩ := Option.ite_none_right_eq_some.mp step
  exact earlier.guardedTail step meets

/-- Applying a step function to each label in turn is a run of its graph. -/
theorem foldl (f : State → Label → State) (source : State) (labels : List Label) :
    Reachable (fun before label after => f before label = after) source
      (labels.foldl f source) := by
  induction labels using List.reverseRecOn with
  | nil => exact .refl source
  | append_singleton labels label ih =>
      rw [List.foldl_append]
      exact ih.tail rfl

end Reachable

end Foundation

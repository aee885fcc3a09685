import Mathlib.Data.Fintype.Order
import Mathlib.Data.Set.Finite.Basic
import Mathlib.Logic.Relation
import Mathlib.Order.WellFounded

/-! # Descents and cycles

Following a relation from an element comes to an end on every path exactly when no
element that can be reached lies on a cycle, provided only finitely many elements can
be reached (`Foundation.acc_iff_acyclicFrom`).
-/

namespace Foundation

open Relation

variable {α : Type*} {next : α → α → Prop}

/-- No element that can be reached from `start` lies on a cycle. -/
def AcyclicFrom (next : α → α → Prop) (start : α) : Prop :=
  ∀ element, ReflTransGen next start element → ¬ TransGen next element element

/-- A well-founded descent does not come back to its start. -/
theorem not_cyclic_of_acc {start : α} (descends : Acc (flip next) start) :
    ¬ TransGen next start start := by
  have closed : Acc (TransGen (flip next)) start := descends.transGen
  induction closed with
  | intro start _ ih =>
      intro cycle
      exact ih start (transGen_swap.mpr cycle) descends cycle

/-- What a well-founded descent reaches descends well-foundedly. -/
theorem acc_of_reflTransGen {start element : α} (descends : Acc (flip next) start)
    (reached : ReflTransGen next start element) : Acc (flip next) element := by
  induction reached with
  | refl => exact descends
  | tail _ taken ih => exact ih.inv taken

/-- Restricted to the elements that can be reached, an acyclic relation descends. -/
theorem acc_of_acyclicFrom {start : α} (finite : {element | ReflTransGen next start element}.Finite)
    (acyclic : AcyclicFrom next start) : Acc (flip next) start := by
  have : Finite {element // ReflTransGen next start element} := finite
  let after : {element // ReflTransGen next start element} →
      {element // ReflTransGen next start element} → Prop :=
    fun later earlier => TransGen next earlier later
  have : IsTrans _ after := ⟨fun _ _ _ first second => second.trans first⟩
  have : Std.Irrefl after := ⟨fun element => acyclic element element.2⟩
  have descends : WellFounded after := Finite.wellFounded_of_trans_of_irrefl after
  suffices every : ∀ element : {element // ReflTransGen next start element},
      Acc (flip next) element.1 from every ⟨start, .refl⟩
  intro element
  induction element using descends.induction with
  | _ element ih =>
      constructor
      intro later taken
      exact ih ⟨later, element.2.tail taken⟩ (.single taken)

/-- Where only finitely many elements can be reached, following the relation ends on
every path exactly when it meets no cycle. -/
theorem acc_iff_acyclicFrom {start : α}
    (finite : {element | ReflTransGen next start element}.Finite) :
    Acc (flip next) start ↔ AcyclicFrom next start :=
  ⟨fun descends _ reached => not_cyclic_of_acc (acc_of_reflTransGen descends reached),
    acc_of_acyclicFrom finite⟩

end Foundation

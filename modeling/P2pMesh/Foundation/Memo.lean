import Mathlib.Data.List.Pairwise
import Mathlib.Logic.Function.Basic

/-! # Memo tables

A memo table serves calls: a call with a key returns the value that stands under its key, and
computes and stores it if there is none. The table is transparent, so that every call returns
what it computes, exactly if calls with the same key compute the same value
(`Foundation.Memo.returns_eq_map_iff`).
-/

namespace Foundation

/-- The key of a call, if its value is stored, and the value it computes. -/
structure Memo (Call K V : Type*) where
  key : Call → Option K
  compute : Call → V

namespace Memo

variable {Call K V : Type*} [DecidableEq K] (c : Memo Call K V)

/-- What a call returns, and the table it leaves. -/
def perform (table : K → Option V) (call : Call) : V × (K → Option V) :=
  match c.key call with
  | none => (c.compute call, table)
  | some k =>
      match table k with
      | some value => (value, table)
      | none => (c.compute call, Function.update table k (some (c.compute call)))

/-- What the calls return one after the other. -/
def returns (table : K → Option V) : List Call → List V
  | [] => []
  | call :: rest => (c.perform table call).1 :: returns (c.perform table call).2 rest

/-- Two calls with the same key compute the same value. -/
def Agree (first second : Call) : Prop :=
  ∀ k, c.key first = some k → c.key second = some k → c.compute first = c.compute second

/-- A call computes what the table holds for it. -/
def Fits (table : K → Option V) (call : Call) : Prop :=
  ∀ k value, c.key call = some k → table k = some value → c.compute call = value

variable {c}

instance : Std.Symm c.Agree where
  symm _ _ agree := fun k left right => (agree k right left).symm

section Performing

variable {table : K → Option V} {call : Call} {k : K}

/-- A call that is not cached is computed. -/
theorem perform_of_unkeyed (unkeyed : c.key call = none) :
    c.perform table call = (c.compute call, table) := by
  simp only [perform, unkeyed]

/-- A value that is stored is returned. -/
theorem perform_of_stored {value : V} (keyed : c.key call = some k)
    (stored : table k = some value) : c.perform table call = (value, table) := by
  simp only [perform, keyed, stored]

/-- A value that is not stored is computed and stored. -/
theorem perform_of_new (keyed : c.key call = some k) (new : table k = none) :
    c.perform table call =
      (c.compute call, Function.update table k (some (c.compute call))) := by
  simp only [perform, keyed, new]

/-- A call returns what it computes if it fits the table. -/
theorem perform_fst_eq_iff : (c.perform table call).1 = c.compute call ↔ c.Fits table call := by
  cases keyed : c.key call with
  | none =>
      rw [perform_of_unkeyed keyed]
      exact iff_of_true rfl fun _ _ other _ => nomatch keyed.symm.trans other
  | some k =>
      cases stored : table k with
      | none =>
          rw [perform_of_new keyed stored]
          refine iff_of_true rfl fun other value same held => ?_
          cases Option.some.inj (keyed.symm.trans same)
          exact nomatch stored.symm.trans held
      | some value =>
          rw [perform_of_stored keyed stored]
          constructor
          · intro computed other found same held
            cases Option.some.inj (keyed.symm.trans same)
            exact computed.symm.trans (Option.some.inj (stored.symm.trans held))
          · intro fits
            exact (fits k value keyed stored).symm

/-- What fits a table with a new value under a key. -/
theorem fits_update_iff {value : V} {later : Call} (new : table k = none) :
    c.Fits (Function.update table k (some value)) later ↔
      c.Fits table later ∧ (c.key later = some k → c.compute later = value) := by
  constructor
  · intro fits
    refine ⟨fun other found keyed held => ?_, fun keyed =>
      fits k value keyed (Function.update_self k _ table)⟩
    have apart : other ≠ k := by
      rintro rfl
      exact nomatch new.symm.trans held
    exact fits other found keyed (by rwa [Function.update_of_ne apart])
  · rintro ⟨fits, own⟩ other found keyed held
    by_cases same : other = k
    · subst same
      rw [Function.update_self, Option.some.injEq] at held
      exact (own keyed).trans held
    · rw [Function.update_of_ne same] at held
      exact fits other found keyed held

/-- A later call fits the table that a call leaves if it fits the table before and agrees with
the call. -/
theorem fits_perform_iff (fits : c.Fits table call) (later : Call) :
    c.Fits (c.perform table call).2 later ↔ c.Fits table later ∧ c.Agree call later := by
  cases keyed : c.key call with
  | none =>
      rw [perform_of_unkeyed keyed]
      exact (and_iff_left fun k same _ => nomatch keyed.symm.trans same).symm
  | some k =>
      have agree_iff : c.Agree call later ↔
          (c.key later = some k → c.compute later = c.compute call) := by
        refine ⟨fun agree others => (agree k keyed others).symm, fun agree other same others => ?_⟩
        cases Option.some.inj (keyed.symm.trans same)
        exact (agree others).symm
      cases stored : table k with
      | none => rw [perform_of_new keyed stored, fits_update_iff stored, agree_iff]
      | some value =>
          rw [perform_of_stored keyed stored, agree_iff, fits k value keyed stored]
          exact (and_iff_left_of_imp fun found others => found k value others stored).symm

end Performing

/-- Calls on a table return what they compute if they fit the table and agree with each
other. -/
theorem returns_table_eq_map_iff (table : K → Option V) (calls : List Call) :
    c.returns table calls = calls.map c.compute ↔
      (∀ call ∈ calls, c.Fits table call) ∧ calls.Pairwise c.Agree := by
  induction calls generalizing table with
  | nil => simp [returns]
  | cons call rest ih =>
      rw [returns, List.map_cons, List.cons.injEq, perform_fst_eq_iff, ih, List.forall_mem_cons,
        List.pairwise_cons]
      constructor
      · rintro ⟨fits, later, agree⟩
        have both := fun other member => (fits_perform_iff fits other).mp (later other member)
        exact ⟨⟨fits, fun other member => (both other member).1⟩,
          fun other member => (both other member).2, agree⟩
      · rintro ⟨⟨fits, later⟩, own, agree⟩
        exact ⟨fits, fun other member =>
          (fits_perform_iff fits other).mpr ⟨later other member, own other member⟩, agree⟩

/-- An empty memo table is transparent exactly if any two of the calls agree. -/
theorem returns_eq_map_iff (calls : List Call) :
    c.returns (fun _ => none) calls = calls.map c.compute ↔
      ∀ first ∈ calls, ∀ second ∈ calls, c.Agree first second := by
  rw [returns_table_eq_map_iff]
  constructor
  · rintro ⟨_, agree⟩ first left second right
    exact agree.forall_of_forall (fun _ _ _ _ _ => rfl) left right
  · intro agree
    exact ⟨fun _ _ _ _ _ held => (nomatch held), List.pairwise_of_forall_mem_list agree⟩

end Memo

end Foundation

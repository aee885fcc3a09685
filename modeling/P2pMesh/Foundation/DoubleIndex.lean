import Mathlib.Logic.Function.Basic

/-! # Values under two keys

A registry that holds values under two keys in two partial maps, where each map is
overwritten on its own. The maps agree when the second finds exactly the values the
first holds. Inserting keeps them in agreement exactly when no entry of the second
map is left behind (`Foundation.DoubleIndex.agree_insert_iff`), erasing exactly when
the entry erased from the second map is needed by no other value
(`Foundation.DoubleIndex.agree_erase_iff`).
-/

namespace Foundation

variable {First Second Value : Type*} [DecidableEq First] [DecidableEq Second]

/-- A list of values written into a map in turn, each under its key. -/
def writeAll (first : Value → First) (values : List Value) (map : First → Option Value) :
    First → Option Value :=
  values.foldl (fun map value => Function.update map (first value) (some value)) map

/-- Under a key stands the last value written with that key, or the entry from before. -/
theorem writeAll_cases (first : Value → First) (values : List Value)
    (map : First → Option Value) (key : First) :
    (∃ value ∈ values, first value = key ∧ writeAll first values map key = some value) ∨
      ((∀ value ∈ values, first value ≠ key) ∧ writeAll first values map key = map key) := by
  induction values generalizing map with
  | nil => exact Or.inr ⟨fun value member => absurd member List.not_mem_nil, rfl⟩
  | cons value values ih =>
      rcases ih (Function.update map (first value) (some value)) with
        ⟨last, member, under, written⟩ | ⟨elsewhere, kept⟩
      · exact Or.inl ⟨last, List.mem_cons_of_mem _ member, under, written⟩
      · by_cases same : first value = key
        · refine Or.inl ⟨value, List.mem_cons_self, same, kept.trans ?_⟩
          rw [same, Function.update_self]
        · refine Or.inr ⟨List.forall_mem_cons.mpr ⟨same, elsewhere⟩, kept.trans ?_⟩
          exact Function.update_of_ne (Ne.symm same) _ _

/-- Values under two keys. -/
structure DoubleIndex (First Second Value : Type*) where
  byFirst : First → Option Value
  bySecond : Second → Option Value

namespace DoubleIndex

variable (first : Value → First) (second : Value → Second)

/-- A value is entered under both of its keys. -/
def insert (index : DoubleIndex First Second Value) (value : Value) :
    DoubleIndex First Second Value :=
  ⟨Function.update index.byFirst (first value) (some value),
    Function.update index.bySecond (second value) (some value)⟩

/-- Erase the value under a first key, and whatever is under its second key. -/
def erase (index : DoubleIndex First Second Value) (key : First) :
    DoubleIndex First Second Value :=
  match index.byFirst key with
  | none => index
  | some value =>
      ⟨Function.update index.byFirst key none, Function.update index.bySecond (second value) none⟩

/-- Values are held under their own first key. -/
def Keyed (index : DoubleIndex First Second Value) : Prop :=
  ∀ key value, index.byFirst key = some value → first value = key

/-- The second map holds values of the first, under their own second key, and has an
entry under the second key of each of them. -/
structure Agree (index : DoubleIndex First Second Value) : Prop where
  held : ∀ key value, index.bySecond key = some value →
    index.byFirst (first value) = some value ∧ second value = key
  found : ∀ key value, index.byFirst key = some value →
    ∃ other, index.bySecond (second value) = some other

/-- A value replaced under the first key leaves no entry behind under its second. -/
def Replaceable (index : DoubleIndex First Second Value) (value : Value) : Prop :=
  ∀ old, index.byFirst (first value) = some old → second old ≠ second value →
    index.bySecond (second old) ≠ some old

/-- No other value shares the second key of the value under a first key. -/
def Removable (index : DoubleIndex First Second Value) (key : First) : Prop :=
  ∀ old, index.byFirst key = some old → ∀ other value, index.byFirst other = some value →
    other ≠ key → second value ≠ second old

variable {first second} {index : DoubleIndex First Second Value}

/-- An insertion sets the value under its first key and no other. -/
theorem insert_byFirst (value : Value) (key : First) :
    (index.insert first second value).byFirst key =
      if key = first value then some value else index.byFirst key :=
  Function.update_apply _ _ _ _

/-- An insertion sets the value under its second key and no other. -/
theorem insert_bySecond (value : Value) (key : Second) :
    (index.insert first second value).bySecond key =
      if key = second value then some value else index.bySecond key :=
  Function.update_apply _ _ _ _

/-- Erasing a key that is not there changes nothing. -/
theorem erase_of_none {key : First} (absent : index.byFirst key = none) :
    index.erase second key = index := by
  simp only [erase, absent]

/-- An erasure clears its first key and no other. -/
theorem erase_byFirst {key : First} {old : Value} (present : index.byFirst key = some old)
    (other : First) :
    (index.erase second key).byFirst other = if other = key then none else index.byFirst other := by
  simp only [erase, present, Function.update_apply]

/-- An erasure clears the second key of the value it finds, whoever is under it. -/
theorem erase_bySecond {key : First} {old : Value} (present : index.byFirst key = some old)
    (other : Second) :
    (index.erase second key).bySecond other =
      if other = second old then none else index.bySecond other := by
  simp only [erase, present, Function.update_apply]

/-- An insertion keeps values under their own first keys. -/
theorem Keyed.insert (keyed : index.Keyed first) (value : Value) :
    (index.insert first second value).Keyed first := by
  intro key held lookup
  rw [insert_byFirst] at lookup
  split at lookup
  · rename_i same
    rw [same, ← Option.some.inj lookup]
  · exact keyed key held lookup

/-- An erasure keeps values under their own first keys. -/
theorem Keyed.erase (keyed : index.Keyed first) (key : First) :
    (index.erase second key).Keyed first := by
  intro other held lookup
  cases present : index.byFirst key with
  | none =>
      rw [erase_of_none present] at lookup
      exact keyed other held lookup
  | some old =>
      rw [erase_byFirst present] at lookup
      split at lookup
      · contradiction
      · exact keyed other held lookup

/-- Inserting keeps the maps in agreement exactly when it replaces no value that the
second map still holds under another key. -/
theorem agree_insert_iff (keyed : index.Keyed first) (agree : index.Agree first second)
    (value : Value) :
    (index.insert first second value).Agree first second ↔
      index.Replaceable first second value := by
  constructor
  · -- A stale entry under the second key would point to a value that is no longer there.
    intro after old replaced differs stale
    have kept : (index.insert first second value).bySecond (second old) = some old := by
      rw [insert_bySecond, if_neg differs, stale]
    have held := (after.held _ _ kept).1
    rw [insert_byFirst, if_pos (keyed _ _ replaced), Option.some.injEq] at held
    exact differs (congrArg second held.symm)
  · intro replaceable
    constructor
    · intro key held lookup
      rw [insert_bySecond] at lookup
      split at lookup
      · rename_i same
        obtain rfl := Option.some.inj lookup
        rw [insert_byFirst, if_pos rfl]
        exact ⟨rfl, same.symm⟩
      · rename_i differs
        obtain ⟨present, own⟩ := agree.held key held lookup
        refine ⟨?_, own⟩
        rw [insert_byFirst]
        split
        · rename_i firsts
          rw [firsts] at present
          rw [← own] at differs lookup
          exact absurd lookup (replaceable held present differs)
        · exact present
    · intro key held lookup
      rw [insert_byFirst] at lookup
      rw [insert_bySecond]
      split at lookup
      · obtain rfl := Option.some.inj lookup
        exact ⟨value, if_pos rfl⟩
      · split
        · exact ⟨value, rfl⟩
        · exact agree.found key held lookup

/-- Erasing keeps the maps in agreement exactly when no other value has the second
key of the erased one. -/
theorem agree_erase_iff (agree : index.Agree first second) (key : First) :
    (index.erase second key).Agree first second ↔ index.Removable second key := by
  cases present : index.byFirst key with
  | none =>
      rw [erase_of_none present]
      refine iff_of_true agree fun old lookup => ?_
      rw [present] at lookup
      contradiction
  | some old =>
      constructor
      · intro after old' lookup other value held differs shared
        obtain rfl : old = old' := Option.some.inj (present.symm.trans lookup)
        have kept : (index.erase second key).byFirst other = some value := by
          rw [erase_byFirst present, if_neg differs, held]
        obtain ⟨found, entry⟩ := after.found other value kept
        rw [erase_bySecond present, if_pos shared] at entry
        contradiction
      · intro removable
        constructor
        · intro other held lookup
          rw [erase_bySecond present] at lookup
          split at lookup
          · contradiction
          · rename_i differs
            obtain ⟨stays, own⟩ := agree.held other held lookup
            refine ⟨?_, own⟩
            rw [erase_byFirst present, if_neg, stays]
            intro same
            rw [same, present, Option.some.injEq] at stays
            rw [stays] at differs
            exact differs own.symm
        · intro other held lookup
          rw [erase_byFirst present] at lookup
          split at lookup
          · contradiction
          · rename_i differs
            rw [erase_bySecond present, if_neg (removable old present other held lookup differs)]
            exact agree.found other held lookup

end DoubleIndex

end Foundation

import P2pMesh.PortControl.Indexes

/-! # Rules behind pointers

The maps of a `Controller` hold pointers to rules, and `AddRulePersisted` fills in the
fields that are missing through the pointer that it is given. Here a rule is a place on a
heap, and the registry is what its pointers point to (`P2pMesh.SharedRegistry.view`). A
call on a pointer that is not registered does to the view what the call on values does
(`P2pMesh.SharedRegistry.view_addRulePersisted`), and so does every removal. A call that
fails answers as before unless it completes a registered rule that the store then refuses,
or removes a rule that the store fails to delete (`P2pMesh.SharedRegistry.atomic_iff`).
-/

namespace P2pMesh

open Foundation Controller

/-- A `Controller` and the rules that its pointers point to. -/
structure SharedRegistry where
  heap : Nat → PortRule
  rules : Int → Option Nat
  locals : Int → Option Nat
  policy : Policy

namespace SharedRegistry

variable {σ : Type}

/-- The registry with the rules in place of the pointers. -/
def view (r : SharedRegistry) : Controller :=
  ⟨fun port => (r.rules port).map r.heap, fun port => (r.locals port).map r.heap, r.policy⟩

/-- A rule is written through a pointer. -/
def write (r : SharedRegistry) (ref : Nat) (rule : PortRule) : SharedRegistry :=
  { r with heap := Function.update r.heap ref rule }

/-- A pointer is put under both ports of its rule. -/
def register (r : SharedRegistry) (ref : Nat) : SharedRegistry :=
  { r with
    rules := Function.update r.rules (r.heap ref).virtualPort (some ref)
    locals := Function.update r.locals (r.heap ref).localPort (some ref) }

/-- The pointer at a virtual port is taken out. -/
def unregister (r : SharedRegistry) (virtualPort : Int) (ref : Nat) : SharedRegistry :=
  { r with
    rules := Function.update r.rules virtualPort none
    locals := Function.update r.locals (r.heap ref).localPort none }

/-- `AddRulePersisted` on a pointer, `none` for nil. -/
def addRulePersisted (r : SharedRegistry) (p : RulePersistence σ) (s : σ) (rule : Option Nat)
    (now : Nat) : Option RuleError × SharedRegistry × σ :=
  match rule with
  | none => (some .nilRule, r, s)
  | some ref =>
      match validateRule (some (r.heap ref)) with
      | .error cause => (some cause, r, s)
      | .ok valid =>
          -- The caller's rule is filled in before the store is asked.
          let filled := r.write ref (completed p valid now)
          match p.saveRule s (filled.heap ref) with
          | (some cause, s) => (some (.persist cause), filled, s)
          | (none, s) => (none, filled.register ref, s)

/-- `RemoveRulePersisted`. -/
def removeRulePersisted (r : SharedRegistry) (p : RulePersistence σ) (s : σ)
    (virtualPort : Int) : Option RuleError × SharedRegistry × σ :=
  match r.rules virtualPort with
  | none => (some (.noRule virtualPort), r, s)
  | some ref =>
      let removed := r.unregister virtualPort ref
      match p.deleteRule s (removed.heap ref).id with
      | (some cause, s) => (some (.delete cause), removed, s)
      | (none, s) => (none, removed, s)

/-- The pointer is in one of the maps. -/
def Registered (r : SharedRegistry) (ref : Nat) : Prop :=
  (∃ port, r.rules port = some ref) ∨ ∃ port, r.locals port = some ref

section View

/-- Registering a pointer is, seen from outside, `AddRule` of the rule it points to. -/
theorem view_register (r : SharedRegistry) (ref : Nat) :
    (r.register ref).view = r.view.addRule (r.heap ref) := by
  have placed (table : Int → Option Nat) (key : Int) :
      (fun port => (Function.update table key (some ref) port).map r.heap) =
        Function.update (fun port => (table port).map r.heap) key (some (r.heap ref)) := by
    funext port
    by_cases same : port = key
    · simp [same]
    · simp [same]
  simp only [view, register, addRule, placed]

/-- Unregistering a pointer is, seen from outside, `RemoveRule` of its virtual port. -/
theorem view_unregister {r : SharedRegistry} {virtualPort : Int} {ref : Nat}
    (found : r.rules virtualPort = some ref) :
    (r.unregister virtualPort ref).view = r.view.removeRule virtualPort := by
  have emptied (table : Int → Option Nat) (key : Int) :
      (fun port => (Function.update table key none port).map r.heap) =
        Function.update (fun port => (table port).map r.heap) key none := by
    funext port
    by_cases same : port = key
    · simp [same]
    · simp [same]
  simp only [view, unregister, removeRule, found, Option.map_some, emptied]

/-- Writing through a pointer that is not registered changes nothing in the view. -/
theorem view_write_of_not_registered {r : SharedRegistry} {ref : Nat}
    (unregistered : ¬ r.Registered ref) (rule : PortRule) : (r.write ref rule).view = r.view := by
  have kept {table : Int → Option Nat} (absent : ∀ port, table port ≠ some ref) :
      (fun port => (table port).map (Function.update r.heap ref rule)) =
        fun port => (table port).map r.heap := by
    funext port
    cases held : table port with
    | none => rfl
    | some other =>
        have different : other ≠ ref := fun same => absent port (same ▸ held)
        rw [Option.map_some, Option.map_some, Function.update_of_ne different]
  obtain ⟨noVirtual, noLocal⟩ := not_or.mp unregistered
  simp only [view, write, kept (not_exists.mp noVirtual), kept (not_exists.mp noLocal)]

/-- Validation returns the rule it was given. -/
theorem eq_of_validateRule {rule valid : PortRule}
    (checked : validateRule (some rule) = .ok valid) : valid = rule := by
  unfold validateRule at checked
  dsimp only at checked
  split at checked
  · cases checked
  split at checked
  · cases checked
  split at checked
  · cases checked
  · cases checked
    rfl

/-- `AddRulePersisted` refuses the rule, completes a valid one that the store refuses, or
completes and registers one that the store takes. -/
theorem addRulePersisted_cases (r : SharedRegistry) (p : RulePersistence σ) (s : σ)
    (ref now : Nat) :
    (∃ cause, validateRule (some (r.heap ref)) = .error cause ∧
      r.addRulePersisted p s (some ref) now = (some cause, r, s)) ∨
    validateRule (some (r.heap ref)) = .ok (r.heap ref) ∧
      ((∃ cause next, p.saveRule s (completed p (r.heap ref) now) = (some cause, next) ∧
        r.addRulePersisted p s (some ref) now =
          (some (.persist cause), r.write ref (completed p (r.heap ref) now), next)) ∨
      ∃ next, p.saveRule s (completed p (r.heap ref) now) = (none, next) ∧
        r.addRulePersisted p s (some ref) now =
          (none, (r.write ref (completed p (r.heap ref) now)).register ref, next)) := by
  cases checked : validateRule (some (r.heap ref)) with
  | error cause => exact Or.inl ⟨cause, rfl, by simp only [addRulePersisted, checked]⟩
  | ok valid =>
      cases eq_of_validateRule checked
      have itself : (r.write ref (completed p (r.heap ref) now)).heap ref =
          completed p (r.heap ref) now := Function.update_self _ _ _
      refine Or.inr ⟨rfl, ?_⟩
      cases saved : p.saveRule s (completed p (r.heap ref) now) with
      | mk err next =>
          cases err with
          | some cause =>
              exact Or.inl ⟨cause, next, rfl, by
                simp only [addRulePersisted, checked, itself, saved]⟩
          | none =>
              exact Or.inr ⟨next, rfl, by simp only [addRulePersisted, checked, itself, saved]⟩

/-- On a pointer that is not registered, `AddRulePersisted` does to the view what it does
on values. -/
theorem view_addRulePersisted {r : SharedRegistry} (p : RulePersistence σ) (s : σ) {ref : Nat}
    (unregistered : ¬ r.Registered ref) (now : Nat) :
    ((r.addRulePersisted p s (some ref) now).1, (r.addRulePersisted p s (some ref) now).2.1.view,
      (r.addRulePersisted p s (some ref) now).2.2) =
      r.view.addRulePersisted p s (some (r.heap ref)) now := by
  have same := view_write_of_not_registered unregistered (completed p (r.heap ref) now)
  have itself : (r.write ref (completed p (r.heap ref) now)).heap ref =
      completed p (r.heap ref) now := Function.update_self _ _ _
  rcases r.addRulePersisted_cases p s ref now with
    ⟨cause, checked, refused⟩ | ⟨checked, ⟨cause, next, saved, failed⟩ | ⟨next, saved, added⟩⟩
  · simp only [refused, Controller.addRulePersisted, checked]
  · simp only [failed, Controller.addRulePersisted, checked, saved, same]
  · simp only [added, Controller.addRulePersisted, checked, saved, view_register, same, itself]

/-- `RemoveRulePersisted` does to the view what it does on values. -/
theorem view_removeRulePersisted (r : SharedRegistry) (p : RulePersistence σ) (s : σ)
    (virtualPort : Int) :
    ((r.removeRulePersisted p s virtualPort).1, (r.removeRulePersisted p s virtualPort).2.1.view,
      (r.removeRulePersisted p s virtualPort).2.2) =
      r.view.removeRulePersisted p s virtualPort := by
  unfold removeRulePersisted Controller.removeRulePersisted
  cases found : r.rules virtualPort with
  | none => simp only [view, found, Option.map_none]
  | some ref =>
      have removed := view_unregister found
      have looked : r.view.rules virtualPort = some (r.heap ref) := by
        simp only [view, found, Option.map_some]
      have kept : (r.unregister virtualPort ref).heap ref = r.heap ref := rfl
      simp only [looked, kept]
      cases deleted : p.deleteRule s (r.heap ref).id with
      | mk err next => cases err <;> simp only [removed]

end View

section Atomicity

/-- Two registries answer alike at every port and for every source. -/
structure SameAnswers (before after : Controller) : Prop where
  virtual : ∀ port, after.lookupVirtual port = before.lookupVirtual port
  locally : ∀ port, after.lookupLocal port = before.lookupLocal port
  decided : ∀ port src, after.decide port src = before.decide port src

theorem SameAnswers.refl (c : Controller) : SameAnswers c c :=
  ⟨fun _ => rfl, fun _ => rfl, fun _ _ => rfl⟩

/-- If `AddRulePersisted` fails, the registry answers as before. -/
def AddAtomic (r : SharedRegistry) (p : RulePersistence σ) (s : σ) (rule : Option Nat)
    (now : Nat) : Prop :=
  (r.addRulePersisted p s rule now).1 ≠ none →
    SameAnswers r.view (r.addRulePersisted p s rule now).2.1.view

/-- If `RemoveRulePersisted` fails, the registry answers as before. -/
def RemoveAtomic (r : SharedRegistry) (p : RulePersistence σ) (s : σ) (virtualPort : Int) :
    Prop :=
  (r.removeRulePersisted p s virtualPort).1 ≠ none →
    SameAnswers r.view (r.removeRulePersisted p s virtualPort).2.1.view

/-- A valid rule that is registered and incomplete is handed in again, and the store
refuses it. -/
def RefusedCompletion (r : SharedRegistry) (p : RulePersistence σ) (s : σ) (now : Nat)
    (ref : Nat) : Prop :=
  validateRule (some (r.heap ref)) = .ok (r.heap ref) ∧ r.Registered ref ∧
    completed p (r.heap ref) now ≠ r.heap ref ∧
    (p.saveRule s (completed p (r.heap ref) now)).1 ≠ none

/-- Writing another rule through a registered pointer changes an answer. -/
theorem not_sameAnswers_write {r : SharedRegistry} {ref : Nat} (registered : r.Registered ref)
    {rule : PortRule} (changed : rule ≠ r.heap ref) :
    ¬ SameAnswers r.view (r.write ref rule).view := by
  intro same
  rcases registered with ⟨port, held⟩ | ⟨port, held⟩
  · have answered := same.virtual port
    simp only [lookupVirtual, view, write, held, Option.map_some, Function.update_self,
      Option.some.injEq] at answered
    exact changed answered
  · have answered := same.locally port
    simp only [lookupLocal, view, write, held, Option.map_some, Function.update_self,
      Option.some.injEq] at answered
    exact changed answered

/-- `AddRulePersisted` is atomic unless a registered, incomplete rule is handed in again and the
store refuses it. -/
theorem addAtomic_iff (r : SharedRegistry) (p : RulePersistence σ) (s : σ) (ref now : Nat) :
    r.AddAtomic p s (some ref) now ↔ ¬ r.RefusedCompletion p s now ref := by
  unfold AddAtomic RefusedCompletion
  rcases r.addRulePersisted_cases p s ref now with
    ⟨cause, checked, refused⟩ | ⟨checked, ⟨cause, next, saved, failed⟩ | ⟨next, saved, added⟩⟩
  · simp only [refused, checked, reduceCtorEq, false_and, not_false_eq_true, iff_true]
    exact fun _ => SameAnswers.refl _
  · simp only [failed, checked, saved, ne_eq, reduceCtorEq, not_false_eq_true, forall_const,
      true_and, and_true, not_and, not_not]
    constructor
    · intro same registered
      by_contra changed
      exact not_sameAnswers_write registered changed same
    · intro unchanged
      by_cases registered : r.Registered ref
      · rw [unchanged registered, write, Function.update_eq_self]
        exact SameAnswers.refl _
      · rw [view_write_of_not_registered registered]
        exact SameAnswers.refl _
  · simp only [added, saved, ne_eq, not_true_eq_false, and_false, not_false_eq_true,
      false_implies]

/-- `RemoveRulePersisted` is atomic exactly if the store deletes the rule that is found. -/
theorem removeAtomic_iff (r : SharedRegistry) (p : RulePersistence σ) (s : σ)
    (virtualPort : Int) :
    r.RemoveAtomic p s virtualPort ↔
      ∀ rule, r.view.lookupVirtual virtualPort = some rule → (p.deleteRule s rule.id).1 = none := by
  have viewed := r.view_removeRulePersisted p s virtualPort
  unfold RemoveAtomic lookupVirtual
  rcases r.view.removeRulePersisted_cases p s virtualPort with
    ⟨missing, unchanged⟩ | ⟨rule, found, removed⟩
  · rw [unchanged, Prod.mk.injEq, Prod.mk.injEq] at viewed
    rw [viewed.2.1, missing]
    simp only [reduceCtorEq, false_implies, implies_true, iff_true]
    exact fun _ => SameAnswers.refl _
  · rw [removed, Prod.mk.injEq, Prod.mk.injEq] at viewed
    rw [viewed.1, viewed.2.1, found]
    simp only [ne_eq, Option.map_eq_none_iff, Option.some.injEq, forall_eq']
    constructor
    · intro atomic
      by_contra failed
      have answered := (atomic failed).virtual virtualPort
      rw [lookupVirtual, lookupVirtual, removeRule_rules, if_pos rfl, found] at answered
      cases answered
    · intro deleted failed
      exact absurd deleted failed

/-- A persisted update that fails answers as before, except when `AddRulePersisted` fills in
a registered rule that the store then refuses, and when `RemoveRulePersisted` finds a rule
that the store fails to delete. -/
theorem atomic_iff (r : SharedRegistry) (p : RulePersistence σ) (s : σ) :
    (∀ rule now, r.AddAtomic p s rule now ↔
      ∀ ref, rule = some ref → ¬ r.RefusedCompletion p s now ref) ∧
    ∀ virtualPort, r.RemoveAtomic p s virtualPort ↔
      ∀ rule, r.view.lookupVirtual virtualPort = some rule →
        (p.deleteRule s rule.id).1 = none := by
  refine ⟨fun rule now => ?_, r.removeAtomic_iff p s⟩
  cases rule with
  | none =>
      simp only [reduceCtorEq, false_implies, implies_true, iff_true]
      exact fun _ => SameAnswers.refl _
  | some ref =>
      simp only [Option.some.injEq, forall_eq']
      exact r.addAtomic_iff p s ref now

/-- A store that takes and deletes nothing. -/
def brokenStore : PortRuleStore Unit :=
  ⟨fun s _ => (some "disk full", s), fun _ _ => .ok [], fun s _ => (some "disk full", s)⟩

/-- One rule without a node, registered at its ports. -/
def sampleRegistry : SharedRegistry :=
  register ⟨fun _ => sampleRule (ascii "a") 1 10, fun _ => none, fun _ => none, .deny⟩ 0

/-- The rule is gone after a removal that failed, and changed after it was handed in again
and refused. -/
theorem brokenStore_not_atomic :
    ¬ sampleRegistry.RemoveAtomic ⟨some brokenStore, ascii "n"⟩ () 1 ∧
      ¬ sampleRegistry.AddAtomic ⟨some brokenStore, ascii "n"⟩ () (some 0) 5 := by
  constructor
  · rw [removeAtomic_iff]
    intro deleted
    cases deleted _ rfl
  · rw [addAtomic_iff, not_not]
    exact ⟨by decide, Or.inl ⟨1, by decide⟩, by decide, by decide⟩

end Atomicity

end SharedRegistry

end P2pMesh

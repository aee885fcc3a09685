import P2pMesh.Foundation.DoubleIndex
import P2pMesh.Foundation.Transition
import P2pMesh.PortControl.Controller

/-! # The two indexes of the controller

Every call that registers a rule overwrites one entry of each index, and every call
that removes one deletes one entry of each. The indexes agree along runs in which no
replaced rule is left behind in the local index and no removed rule shares its local
port (`P2pMesh.Controller.indexesAgree_of_exclusive`).
-/

namespace P2pMesh

open Foundation

/-- The calls that change a controller. -/
inductive ControllerCall (σ : Type) where
  | addRule (rule : PortRule)
  | removeRule (virtualPort : Int)
  | applyServerRules (rules : List StoredRule)
  | addRulePersisted (p : RulePersistence σ) (rule : Option PortRule) (now : Nat)
  | removeRulePersisted (p : RulePersistence σ) (virtualPort : Int)
  | loadPersisted (p : RulePersistence σ)

namespace Controller

variable {σ : Type}

/-- The controller and the store after a call. -/
def perform : Controller × σ → ControllerCall σ → Controller × σ
  | (c, s), .addRule rule => (c.addRule rule, s)
  | (c, s), .removeRule virtualPort => (c.removeRule virtualPort, s)
  | (c, s), .applyServerRules rules => ((c.applyServerRules rules).2, s)
  | (c, s), .addRulePersisted p rule now => (c.addRulePersisted p s rule now).2
  | (c, s), .removeRulePersisted p virtualPort => (c.removeRulePersisted p s virtualPort).2
  | (c, s), .loadPersisted p => ((c.loadPersisted p s).2, s)

/-- `LookupLocal` finds registered rules only, and finds one for a local port exactly
when some registered rule has it. -/
structure IndexesAgree (c : Controller) : Prop where
  registered : ∀ lp r, c.lookupLocal lp = some r →
    c.lookupVirtual r.virtualPort = some r ∧ r.localPort = lp
  exists_iff : ∀ lp, (∃ r, c.lookupLocal lp = some r) ↔
    ∃ r, c.lookupVirtual r.virtualPort = some r ∧ r.localPort = lp

/-- The virtual port of the rule is free, or held by a rule with the same local port,
or by a rule whose local port is indexed for another one. -/
def Replaceable (c : Controller) (rule : PortRule) : Prop :=
  ∀ old, c.rules rule.virtualPort = some old → old.localPort ≠ rule.localPort →
    c.locals old.localPort ≠ some old

/-- No other registered rule has the local port of the rule at this virtual port. -/
def Removable (c : Controller) (virtualPort : Int) : Prop :=
  ∀ old, c.rules virtualPort = some old → ∀ other r, c.rules other = some r →
    other ≠ virtualPort → r.localPort ≠ old.localPort

/-- Each rule of the list is replaceable when its turn comes. -/
def AllReplaceable : Controller → List PortRule → Prop
  | _, [] => True
  | c, rule :: rules => c.Replaceable rule ∧ (c.addRule rule).AllReplaceable rules

/-- The condition under which a call keeps the indexes in agreement. -/
def Exclusive : Controller × σ → ControllerCall σ → Prop
  | (c, _), .addRule rule => c.Replaceable rule
  | (c, _), .removeRule virtualPort => c.Removable virtualPort
  | (c, _), .applyServerRules rules => c.AllReplaceable (rules.map .ofStored)
  | (c, _), .addRulePersisted _ rule _ =>
      ∀ valid, validateRule rule = .ok valid → c.Replaceable valid
  | (c, _), .removeRulePersisted _ virtualPort => c.Removable virtualPort
  | (c, s), .loadPersisted p =>
      ∀ rules, p.loadRules s = .ok rules → (newController c.policy).AllReplaceable rules

/-- The two maps as a registry under two keys. -/
def index (c : Controller) : DoubleIndex Int Int PortRule :=
  ⟨c.rules, c.locals⟩

/-- The invariant behind agreement: rules are registered under their own ports. -/
def Consistent (c : Controller) : Prop :=
  c.index.Keyed PortRule.virtualPort ∧
    c.index.Agree PortRule.virtualPort PortRule.localPort

/-- `AddRule` is an insertion into the two indexes. -/
theorem index_addRule (c : Controller) (rule : PortRule) :
    (c.addRule rule).index =
      c.index.insert PortRule.virtualPort PortRule.localPort rule :=
  rfl

/-- `RemoveRule` is a removal from the two indexes. -/
theorem index_removeRule (c : Controller) (virtualPort : Int) :
    (c.removeRule virtualPort).index = c.index.erase PortRule.localPort virtualPort := by
  unfold removeRule
  cases present : c.rules virtualPort with
  | none => exact (DoubleIndex.erase_of_none present).symm
  | some rule => simp only [index, DoubleIndex.erase, present]

/-- The lookups agree exactly if the two indexes do. -/
theorem indexesAgree_iff {c : Controller} (keyed : c.index.Keyed PortRule.virtualPort) :
    c.IndexesAgree ↔ c.index.Agree PortRule.virtualPort PortRule.localPort := by
  constructor
  · intro agree
    refine ⟨agree.registered, fun key r lookup => ?_⟩
    apply (agree.exists_iff r.localPort).mpr
    refine ⟨r, ?_, rfl⟩
    rw [keyed key r lookup]
    exact lookup
  · intro agree
    refine ⟨agree.held, fun lp => ⟨?_, ?_⟩⟩
    · rintro ⟨r, lookup⟩
      exact ⟨r, agree.held lp r lookup⟩
    · rintro ⟨r, lookup, rfl⟩
      exact agree.found r.virtualPort r lookup

namespace Consistent

variable {c : Controller}

/-- A new controller is consistent. -/
theorem newController (policy : Policy) : (newController policy).Consistent := by
  refine ⟨fun key value lookup => ?_, ⟨fun key value lookup => ?_, fun key value lookup => ?_⟩⟩
  all_goals cases lookup

/-- In a consistent controller the two lookups agree. -/
theorem indexesAgree (consistent : c.Consistent) : c.IndexesAgree :=
  (indexesAgree_iff consistent.1).mpr consistent.2

/-- `AddRule` keeps a controller consistent exactly if the rule is replaceable. -/
theorem addRule_iff (consistent : c.Consistent) (rule : PortRule) :
    (c.addRule rule).Consistent ↔ c.Replaceable rule := by
  unfold Consistent
  rw [index_addRule, DoubleIndex.agree_insert_iff consistent.1 consistent.2]
  exact and_iff_right (consistent.1.insert rule)

/-- `RemoveRule` keeps a controller consistent exactly if no other rule has the local port. -/
theorem removeRule_iff (consistent : c.Consistent) (virtualPort : Int) :
    (c.removeRule virtualPort).Consistent ↔ c.Removable virtualPort := by
  unfold Consistent
  rw [index_removeRule, DoubleIndex.agree_erase_iff consistent.2]
  exact and_iff_right (consistent.1.erase virtualPort)

/-- A list of rules that are replaceable in turn keeps a controller consistent. -/
theorem foldl_addRule {rules : List PortRule} (consistent : c.Consistent)
    (replaceable : c.AllReplaceable rules) : (rules.foldl addRule c).Consistent := by
  induction rules generalizing c with
  | nil => exact consistent
  | cons rule rules ih =>
      exact ih ((consistent.addRule_iff rule).mpr replaceable.1) replaceable.2

end Consistent

/-- `ApplyServerRules` adds the stored rules one by one and returns their number. -/
theorem applyServerRules_eq (c : Controller) (rules : List StoredRule) :
    c.applyServerRules rules =
      (rules.length, (rules.map PortRule.ofStored).foldl addRule c) := by
  have counted : ∀ state : Nat × Controller,
      rules.foldl (fun state sr => (state.1 + 1, state.2.addRule (.ofStored sr))) state =
        (state.1 + rules.length, (rules.map PortRule.ofStored).foldl addRule state.2) := by
    induction rules with
    | nil => exact fun _ => rfl
    | cons sr rules ih =>
        intro state
        simp only [List.foldl_cons, List.map_cons, List.length_cons, ih]
        congr 1
        omega
  have total := counted (0, c)
  rw [Nat.zero_add] at total
  exact total

/-- A call that meets the condition keeps the indexes consistent. -/
theorem Consistent.perform {c : Controller} {s : σ} (consistent : c.Consistent)
    {call : ControllerCall σ} (exclusive : Exclusive (c, s) call) :
    (perform (c, s) call).1.Consistent := by
  cases call with
  | addRule rule => exact (consistent.addRule_iff rule).mpr exclusive
  | removeRule virtualPort => exact (consistent.removeRule_iff virtualPort).mpr exclusive
  | applyServerRules rules =>
      simp only [Controller.perform, applyServerRules_eq]
      exact consistent.foldl_addRule exclusive
  | addRulePersisted p rule now =>
      rcases c.addRulePersisted_cases p s rule now with
        ⟨cause, next, failed⟩ | ⟨valid, next, accepted, _, added⟩
      · simp only [Controller.perform, failed]
        exact consistent
      · simp only [Controller.perform, added]
        exact (consistent.addRule_iff _).mpr (exclusive valid accepted)
  | removeRulePersisted p virtualPort =>
      rcases c.removeRulePersisted_cases p s virtualPort with ⟨_, failed⟩ | ⟨rule, _, removed⟩
      · simp only [Controller.perform, failed]
        exact consistent
      · simp only [Controller.perform, removed]
        exact (consistent.removeRule_iff virtualPort).mpr exclusive
  | loadPersisted p =>
      simp only [Controller.perform, loadPersisted]
      cases loaded : p.loadRules s with
      | error cause => exact consistent
      | ok rules =>
          exact (Consistent.newController c.policy).foldl_addRule (exclusive rules loaded)

/-- In every run whose calls meet the condition the indexes agree in every state
reached; there the condition is also necessary for adding and removing a rule. -/
theorem indexesAgree_of_exclusive (policy : Policy) (start : σ) {c : Controller} {s : σ}
    (reached : Reachable
      (Guarded (fun before call after => perform before call = after) Exclusive)
      (newController policy, start) (c, s)) :
    c.IndexesAgree ∧
      (∀ rule, (c.addRule rule).IndexesAgree ↔ c.Replaceable rule) ∧
      ∀ virtualPort, (c.removeRule virtualPort).IndexesAgree ↔ c.Removable virtualPort := by
  have consistent : c.Consistent := by
    refine reached.invariant (fun state => state.1.Consistent) ?_ ?_
    · exact Consistent.newController policy
    · rintro before call after consistent ⟨exclusive, rfl⟩
      exact consistent.perform exclusive
  have added (rule : PortRule) : (c.addRule rule).index.Keyed PortRule.virtualPort :=
    consistent.1.insert rule
  have removed (virtualPort : Int) :
      (c.removeRule virtualPort).index.Keyed PortRule.virtualPort := by
    rw [index_removeRule]
    exact consistent.1.erase virtualPort
  refine ⟨consistent.indexesAgree, fun rule => ?_, fun virtualPort => ?_⟩
  · rw [← consistent.addRule_iff, indexesAgree_iff (added rule)]
    exact (and_iff_right (added rule)).symm
  · rw [← consistent.removeRule_iff, indexesAgree_iff (removed virtualPort)]
    exact (and_iff_right (removed virtualPort)).symm

/-- Two rules share a local port: removing the second hides the first. -/
theorem removeRule_hides_shared_local :
    ∃ c : Controller,
      Reachable (fun before call after => perform before call = after)
        (newController .deny, ()) (c, ()) ∧
      ¬ c.IndexesAgree := by
  refine ⟨_, Reachable.foldl perform (newController .deny, ())
    [.addRule (sampleRule (ascii "a") 1 10), .addRule (sampleRule (ascii "b") 2 10),
      .removeRule 2], fun agree => ?_⟩
  obtain ⟨r, found⟩ := (agree.exists_iff 10).mpr ⟨sampleRule (ascii "a") 1 10, by decide, rfl⟩
  cases found

/-- Two rules with different local ports, the replacement of one of them under another ID and the
removal of the other: every call meets the condition, and the indexes agree at the end. -/
theorem distinctLocals_agree :
    ∃ c : Controller,
      Reachable (Guarded (fun before call after => perform before call = after) Exclusive)
        (newController .deny, ()) (c, ()) ∧
      c.lookupLocal 20 = some (sampleRule (ascii "c") 2 20) ∧ c.lookupLocal 10 = none ∧
      c.IndexesAgree := by
  have first : Reachable
      (Guarded (fun before call after => perform before call = after) Exclusive)
      (newController .deny, ()) (perform (newController .deny, ())
        (.addRule (sampleRule (ascii "a") 1 10))) := by
    refine (Reachable.refl _).guardedTail rfl ?_
    intro old registered
    cases registered
  have second := first.guardedTail
    (show perform _ (.addRule (sampleRule (ascii "b") 2 20)) = _ from rfl) (by
      intro old registered
      cases registered)
  -- The rule at virtual port 2 gives way to one with the same local port.
  have third := second.guardedTail
    (show perform _ (.addRule (sampleRule (ascii "c") 2 20)) = _ from rfl) (by
      intro old registered differs
      cases registered
      exact absurd rfl differs)
  have fourth := third.guardedTail (show perform _ (.removeRule 1) = _ from rfl) (by
    intro old registered other r lookup elsewhere
    cases registered
    simp only [addRule_rules] at lookup
    split at lookup
    · cases lookup
      decide
    · split at lookup
      · cases lookup
        decide
      · split at lookup
        · exact absurd ‹_› elsewhere
        · cases lookup)
  exact ⟨_, fourth, by decide, by decide, (indexesAgree_of_exclusive .deny () fourth).1⟩

end Controller

end P2pMesh

import P2pMesh.Foundation.JsonText
import P2pMesh.Storage.PortRules
import Mathlib.Logic.Function.Basic

/-! # Port rules in memory and in a store

`Controller` and `RulePersistence` of `internal/portcontrol`. The maps of the
controller are partial functions on ports and a rule is a value. The store is any
implementation of `PortRuleStore`: its calls may fail, and what they do to its state
is its own. Times are counts of nanoseconds, and `none` is the zero time.
-/

namespace P2pMesh

open Foundation

/-- `PortRule` of `internal/portcontrol`. -/
structure PortRule where
  id : Bytes
  nodeID : Bytes
  protocol : Bytes
  localPort : Int
  virtualPort : Int
  allowedRooms : List Bytes
  description : Bytes
  enabled : Bool
  createdAt : Option Nat
deriving DecidableEq

/-- `encodeAllowedRooms`: no rooms are written as an empty text. -/
def encodeAllowedRooms (rooms : List Bytes) : Bytes :=
  if rooms = [] then [] else marshalStrings rooms

/-- `decodeAllowedRooms`. A text that cannot be read stands for no rooms. -/
def decodeAllowedRooms (raw : Bytes) : List Bytes :=
  if raw = [] then [] else (unmarshalStrings raw).getD []

/-- `Policy`. -/
inductive Policy where
  | deny
  | allow
deriving DecidableEq, Repr

/-- `Controller`; `rules` is keyed by virtual port, `locals` by local port. -/
structure Controller where
  rules : Int → Option PortRule
  locals : Int → Option PortRule
  policy : Policy

/-- `NewController`. -/
def newController (policy : Policy) : Controller :=
  ⟨fun _ => none, fun _ => none, policy⟩

/-- `InboundDecision`. -/
inductive InboundDecision where
  | allow
  | dropUnconfigured
  | dropNotAllowed
  | dropDisabled
deriving DecidableEq, Repr

/-- `Source`: where a connection comes from. -/
structure Source where
  room : Bytes
  sameRoom : Bool
  addr : Bytes

/-- `RuleAllowsSource`. -/
def ruleAllowsSource (r : PortRule) (src : Source) : Bool :=
  if r.allowedRooms = [] then src.sameRoom else r.allowedRooms.contains src.room

/-- The errors of adding and removing rules. -/
inductive RuleError where
  | nilRule
  | virtualPortRange (port : Int)
  | localPortRange (port : Int)
  | protocol (got : Bytes)
  | noRule (port : Int)
  | persist (cause : String)
  | delete (cause : String)
  | load (cause : String)
deriving DecidableEq, Repr

/-- The texts of the errors, given the quoting of `%q`. -/
def RuleError.text (quoted : Bytes → String) : RuleError → String
  | .nilRule => "nil rule"
  | .virtualPortRange port => "virtual port " ++ toString port ++ " out of range"
  | .localPortRange port => "local port " ++ toString port ++ " out of range"
  | .protocol got => "protocol must be tcp or udp, got " ++ quoted got
  | .noRule port => "no rule for virtual port " ++ toString port
  | .persist cause => "persist rule: " ++ cause
  | .delete cause => "delete rule: " ++ cause
  | .load cause => "load port rules: " ++ cause

namespace Controller

/-- `LookupVirtual`. -/
def lookupVirtual (c : Controller) (virtualPort : Int) : Option PortRule :=
  c.rules virtualPort

/-- `LookupLocal`. -/
def lookupLocal (c : Controller) (localPort : Int) : Option PortRule :=
  c.locals localPort

/-- `AddRule`. -/
def addRule (c : Controller) (rule : PortRule) : Controller :=
  { c with
    rules := Function.update c.rules rule.virtualPort (some rule)
    locals := Function.update c.locals rule.localPort (some rule) }

/-- `RemoveRule`. -/
def removeRule (c : Controller) (virtualPort : Int) : Controller :=
  match c.rules virtualPort with
  | none => c
  | some rule =>
      { c with
        rules := Function.update c.rules virtualPort none
        locals := Function.update c.locals rule.localPort none }

/-- `IsAllowed`. -/
def isAllowed (c : Controller) (virtualPort : Int) : Bool :=
  match c.policy with
  | .allow => true
  | .deny =>
      match c.rules virtualPort with
      | none => false
      | some r => r.enabled

/-- `Decide`. -/
def decide (c : Controller) (virtualPort : Int) (src : Source) : InboundDecision :=
  match c.policy with
  | .allow => .allow
  | .deny =>
      match c.rules virtualPort with
      | none => .dropUnconfigured
      | some r =>
          if !r.enabled then .dropDisabled
          else if ruleAllowsSource r src then .allow
          else .dropNotAllowed

end Controller

/-- The store surface of the persistence layer. -/
structure PortRuleStore (σ : Type) where
  setPortRule : σ → StoredRule → Option String × σ
  getPortRules : σ → Bytes → Except String (List StoredRule)
  deletePortRule : σ → Bytes → Option String × σ

/-- `RulePersistence`; without a store, rules live only in memory. -/
structure RulePersistence (σ : Type) where
  store : Option (PortRuleStore σ)
  nodeID : Bytes

/-- The rule that is read back from a stored one. -/
def PortRule.ofStored (sr : StoredRule) : PortRule :=
  ⟨sr.id, sr.nodeID, sr.protocol, sr.localPort, sr.virtualPort,
    decodeAllowedRooms sr.allowedRooms, sr.description, sr.enabled, sr.createdAt⟩

namespace RulePersistence

variable {σ : Type} (p : RulePersistence σ)

/-- What `SaveRule` hands to the store. -/
def stored (rule : PortRule) : StoredRule :=
  ⟨rule.id, if rule.nodeID = [] then p.nodeID else rule.nodeID, rule.protocol, rule.localPort,
    rule.virtualPort, rule.description, encodeAllowedRooms rule.allowedRooms, rule.enabled,
    rule.createdAt⟩

/-- `SaveRule`. -/
def saveRule (s : σ) (rule : PortRule) : Option String × σ :=
  match p.store with
  | none => (none, s)
  | some store => store.setPortRule s (p.stored rule)

/-- `DeleteRule`. -/
def deleteRule (s : σ) (ruleID : Bytes) : Option String × σ :=
  match p.store with
  | none => (none, s)
  | some store => store.deletePortRule s ruleID

/-- `LoadRules`. -/
def loadRules (s : σ) : Except RuleError (List PortRule) :=
  match p.store with
  | none => .ok []
  | some store =>
      match store.getPortRules s p.nodeID with
      | .error cause => .error (.load cause)
      | .ok rules => .ok (rules.map PortRule.ofStored)

end RulePersistence

/-- `validateRule`. -/
def validateRule : Option PortRule → Except RuleError PortRule
  | none => .error .nilRule
  | some rule =>
      if rule.virtualPort < 1 ∨ 65535 < rule.virtualPort then
        .error (.virtualPortRange rule.virtualPort)
      else if rule.localPort < 1 ∨ 65535 < rule.localPort then
        .error (.localPortRange rule.localPort)
      else if rule.protocol ≠ ascii "tcp" ∧ rule.protocol ≠ ascii "udp" then
        .error (.protocol rule.protocol)
      else .ok rule

namespace Controller

/-- An enabled TCP rule for the members of the node's rooms, with an identifier and its two
ports. -/
def sampleRule (id : Bytes) (virtualPort localPort : Int) : PortRule :=
  ⟨id, [], ascii "tcp", localPort, virtualPort, [], [], true, none⟩

variable {σ : Type}

/-- `ApplyServerRules`, with the number of rules applied. -/
def applyServerRules (c : Controller) (rules : List StoredRule) : Nat × Controller :=
  rules.foldl (fun (applied, c) sr => (applied + 1, c.addRule (.ofStored sr))) (0, c)

/-- The rule that `AddRulePersisted` saves and registers. -/
def completed (p : RulePersistence σ) (rule : PortRule) (now : Nat) : PortRule :=
  { rule with
    nodeID := if rule.nodeID = [] then p.nodeID else rule.nodeID
    createdAt := if rule.createdAt = none then some now else rule.createdAt }

/-- `AddRulePersisted` at the time `now`, with the store it leaves. -/
def addRulePersisted (c : Controller) (p : RulePersistence σ) (s : σ) (rule : Option PortRule)
    (now : Nat) : Option RuleError × Controller × σ :=
  match validateRule rule with
  | .error cause => (some cause, c, s)
  | .ok rule =>
      match p.saveRule s (completed p rule now) with
      | (some cause, s) => (some (.persist cause), c, s)
      | (none, s) => (none, c.addRule (completed p rule now), s)

/-- `RemoveRulePersisted`: the registry loses the rule even when the store fails. -/
def removeRulePersisted (c : Controller) (p : RulePersistence σ) (s : σ) (virtualPort : Int) :
    Option RuleError × Controller × σ :=
  match c.rules virtualPort with
  | none => (some (.noRule virtualPort), c, s)
  | some rule =>
      match p.deleteRule s rule.id with
      | (some cause, s) => (some (.delete cause), c.removeRule virtualPort, s)
      | (none, s) => (none, c.removeRule virtualPort, s)

/-- The registry emptied and then filled, as `LoadPersisted` does under its lock. -/
def reset (c : Controller) (rules : List PortRule) : Controller :=
  rules.foldl addRule { c with rules := fun _ => none, locals := fun _ => none }

/-- `LoadPersisted`. -/
def loadPersisted (c : Controller) (p : RulePersistence σ) (s : σ) :
    Option RuleError × Controller :=
  match p.loadRules s with
  | .error cause => (some cause, c)
  | .ok rules => (none, c.reset rules)

/-- `AddRule` sets the entry of the rule's virtual port and no other. -/
theorem addRule_rules (c : Controller) (rule : PortRule) (port : Int) :
    (c.addRule rule).rules port = if port = rule.virtualPort then some rule else c.rules port :=
  Function.update_apply _ _ _ _

/-- `RemoveRule` clears the entry of the virtual port and no other. -/
theorem removeRule_rules (c : Controller) (virtualPort port : Int) :
    (c.removeRule virtualPort).rules port =
      if port = virtualPort then none else c.rules port := by
  unfold removeRule
  cases registered : c.rules virtualPort with
  | some rule => exact Function.update_apply _ _ _ _
  | none =>
      by_cases same : port = virtualPort
      · rw [if_pos same, same]
        exact registered
      · rw [if_neg same]

/-- `RemoveRule` leaves the policy as it is. -/
theorem removeRule_policy (c : Controller) (virtualPort : Int) :
    (c.removeRule virtualPort).policy = c.policy := by
  unfold removeRule
  cases c.rules virtualPort <;> rfl

/-- Under the default policy a connection is admitted by an enabled rule that allows
its source. -/
theorem decide_eq_allow_iff {c : Controller} (deny : c.policy = .deny) (virtualPort : Int)
    (src : Source) :
    c.decide virtualPort src = .allow ↔
      ∃ r, c.rules virtualPort = some r ∧ r.enabled = true ∧ ruleAllowsSource r src = true := by
  unfold decide
  rw [deny]
  cases c.rules virtualPort with
  | none => simp
  | some r =>
      cases enabled : r.enabled with
      | false => simp [enabled]
      | true => cases allowed : ruleAllowsSource r src <;> simp [enabled, allowed]

/-- `AddRulePersisted` fails and leaves the registry as it was, or registers the rule
that the store has taken. -/
theorem addRulePersisted_cases (c : Controller) (p : RulePersistence σ) (s : σ)
    (rule : Option PortRule) (now : Nat) :
    (∃ cause next, c.addRulePersisted p s rule now = (some cause, c, next)) ∨
      ∃ valid next, validateRule rule = .ok valid ∧
        p.saveRule s (completed p valid now) = (none, next) ∧
        c.addRulePersisted p s rule now = (none, c.addRule (completed p valid now), next) := by
  unfold addRulePersisted
  cases valid : validateRule rule with
  | error cause => exact Or.inl ⟨cause, s, rfl⟩
  | ok rule =>
      cases saved : p.saveRule s (completed p rule now) with
      | mk err next =>
          cases err with
          | some cause => exact Or.inl ⟨.persist cause, next, by simp only [saved]⟩
          | none => exact Or.inr ⟨rule, next, rfl, saved, by simp only [saved]⟩

/-- `RemoveRulePersisted` finds no rule, or removes the rule it finds from the registry
and reports what the store says. -/
theorem removeRulePersisted_cases (c : Controller) (p : RulePersistence σ) (s : σ)
    (virtualPort : Int) :
    (c.rules virtualPort = none ∧
      c.removeRulePersisted p s virtualPort = (some (.noRule virtualPort), c, s)) ∨
      ∃ rule, c.rules virtualPort = some rule ∧
        c.removeRulePersisted p s virtualPort =
          ((p.deleteRule s rule.id).1.map RuleError.delete, c.removeRule virtualPort,
            (p.deleteRule s rule.id).2) := by
  unfold removeRulePersisted
  cases found : c.rules virtualPort with
  | none => exact Or.inl ⟨rfl, rfl⟩
  | some rule =>
      refine Or.inr ⟨rule, rfl, ?_⟩
      cases deleted : p.deleteRule s rule.id with
      | mk err next => cases err <;> simp only [deleted, Option.map_none, Option.map_some]

end Controller

end P2pMesh

import P2pMesh.Foundation.Transition
import P2pMesh.PortControl.Controller

/-! # Restarting from the store

Runs of `AddRulePersisted` and `RemoveRulePersisted` over the SQL store, against a
fresh controller that loads the store. Memory is keyed by port and the store by rule
ID, so the two stay alike along runs in which an ID and a virtual port are only ever
replaced together (`P2pMesh.sameExposure_of_faithful`).
-/

namespace P2pMesh

open Foundation Controller

/-- The SQL store at the time `now`, with the database itself working. -/
def sqlStore (now : Nat) : PortRuleStore PortRuleTable where
  setPortRule table rule := (none, table.setPortRule rule now)
  getPortRules table nodeID := .ok (table.getPortRules nodeID)
  deletePortRule table ruleID := (none, table.deletePortRule ruleID)

/-- The persistence of a node over the table of rules. -/
def sqlPersistence (nodeID : Bytes) (now : Nat) : RulePersistence PortRuleTable :=
  ⟨some (sqlStore now), nodeID⟩

/-- The persisted calls, with the time at which they run. -/
inductive PersistCall where
  | add (rule : Option PortRule) (now : Nat)
  | remove (virtualPort : Int) (now : Nat)

/-- What a persisted call returns, with the controller and the table it leaves. -/
def PersistCall.run (nodeID : Bytes) :
    PersistCall → Controller × PortRuleTable → Option RuleError × Controller × PortRuleTable
  | .add rule now, (c, table) => c.addRulePersisted (sqlPersistence nodeID now) table rule now
  | .remove virtualPort now, (c, table) =>
      c.removeRulePersisted (sqlPersistence nodeID now) table virtualPort

/-- A persisted call that returns nil. -/
def PersistStep (nodeID : Bytes) (before : Controller × PortRuleTable) (call : PersistCall)
    (after : Controller × PortRuleTable) : Prop :=
  call.run nodeID before = (none, after)

/-- The two controllers admit the same connections to the same services. -/
structure SameExposure (live fresh : Controller) : Prop where
  allow_iff : ∀ virtualPort src,
    live.decide virtualPort src = .allow ↔ fresh.decide virtualPort src = .allow
  same_service : ∀ virtualPort src, live.decide virtualPort src = .allow →
    ∃ r r', live.lookupVirtual virtualPort = some r ∧ fresh.lookupVirtual virtualPort = some r' ∧
      r.localPort = r'.localPort ∧ r.protocol = r'.protocol

/-- A fresh controller that has loaded the store, with what `LoadPersisted` returns. -/
def restart (nodeID : Bytes) (now : Nat) (table : PortRuleTable) : Option RuleError × Controller :=
  (newController .deny).loadPersisted (sqlPersistence nodeID now) table

/-- An added rule belongs to the node, replaces only a rule with its ID, has an ID that
no other port carries, and names its rooms in UTF-8. -/
def Faithful (nodeID : Bytes) : Controller × PortRuleTable → PersistCall → Prop
  | (c, _), .add rule _ => ∀ valid, validateRule rule = .ok valid →
      (valid.nodeID = [] ∨ valid.nodeID = nodeID) ∧
      (∀ old, c.rules valid.virtualPort = some old → old.id = valid.id) ∧
      (∀ port other, c.rules port = some other → port ≠ valid.virtualPort → other.id ≠ valid.id) ∧
      ∀ room ∈ valid.allowedRooms, validUtf8 room = true
  | _, .remove _ _ => True

/-- The row belongs to the node and reads back as a rule that decides alike. -/
structure StoredRule.Mirrors (nodeID : Bytes) (row : StoredRule) (rule : PortRule) : Prop where
  node : row.nodeID = nodeID
  id : row.id = rule.id
  protocol : row.protocol = rule.protocol
  localPort : row.localPort = rule.localPort
  virtualPort : row.virtualPort = rule.virtualPort
  allowedRooms : decodeAllowedRooms row.allowedRooms = rule.allowedRooms
  enabled : row.enabled = rule.enabled

/-- Rows and registered rules mirror each other. -/
structure Mirrored (nodeID : Bytes) (c : Controller) (table : PortRuleTable) : Prop where
  policy : c.policy = .deny
  keyed : ∀ port rule, c.rules port = some rule → rule.virtualPort = port
  stored : ∀ port rule, c.rules port = some rule → ∃ row ∈ table.rows, row.Mirrors nodeID rule
  registered : ∀ row ∈ table.rows, ∃ rule, c.rules row.virtualPort = some rule ∧
    row.Mirrors nodeID rule

/-- The rooms of a rule survive the store, if they are valid UTF-8. -/
theorem decodeAllowedRooms_encodeAllowedRooms {rooms : List Bytes}
    (valid : ∀ room ∈ rooms, validUtf8 room = true) :
    decodeAllowedRooms (encodeAllowedRooms rooms) = rooms := by
  unfold encodeAllowedRooms decodeAllowedRooms
  cases rooms with
  | nil => rfl
  | cons room rooms =>
      have read := unmarshalStrings_marshalStrings valid
      have written : marshalStrings (room :: rooms) ≠ [] := by
        intro empty
        rw [empty] at read
        cases read
      rw [if_neg (List.cons_ne_nil room rooms), if_neg written, read, Option.getD_some]

namespace Mirrored

variable {nodeID : Bytes} {c : Controller} {table : PortRuleTable}

/-- An empty controller mirrors an empty table. -/
theorem initial : Mirrored nodeID (newController .deny) KeyedTable.empty where
  policy := rfl
  keyed := by
    intro port rule registered
    cases registered
  stored := by
    intro port rule registered
    cases registered
  registered := by
    intro row member
    cases member

/-- The row that is left under the ID of an added rule mirrors it. -/
theorem mirrors_merged (mirrored : Mirrored nodeID c table) (now : Nat) {rule : PortRule}
    (own : rule.nodeID = nodeID) (rooms : ∀ room ∈ rule.allowedRooms, validUtf8 room = true) :
    StoredRule.Mirrors nodeID
      (table.merged StoredRule.overwrite
        { (sqlPersistence nodeID now).stored rule with createdAt := some now }) rule := by
  have decoded : decodeAllowedRooms (encodeAllowedRooms rule.allowedRooms) = rule.allowedRooms :=
    decodeAllowedRooms_encodeAllowedRooms rooms
  unfold KeyedTable.merged
  cases found : table.find ((sqlPersistence nodeID now).stored rule).id with
  | none =>
      simp only
      have node : ((sqlPersistence nodeID now).stored rule).nodeID = nodeID := by
        change (if rule.nodeID = [] then nodeID else rule.nodeID) = nodeID
        rw [own, ite_self]
      exact ⟨node, rfl, rfl, rfl, rfl, decoded, rfl⟩
  | some old =>
      simp only
      obtain ⟨member, sameID⟩ := KeyedTable.mem_of_find found
      obtain ⟨_, _, mirrors⟩ := mirrored.registered old member
      exact ⟨mirrors.node, sameID, rfl, rfl, rfl, decoded, rfl⟩

/-- Adding a rule that replaces at most the rule with its own ID and port. -/
theorem add (mirrored : Mirrored nodeID c table) (now : Nat) {rule : PortRule}
    (own : rule.nodeID = nodeID)
    (replaces : ∀ old, c.rules rule.virtualPort = some old → old.id = rule.id)
    (fresh : ∀ port other, c.rules port = some other → port ≠ rule.virtualPort →
      other.id ≠ rule.id)
    (rooms : ∀ room ∈ rule.allowedRooms, validUtf8 room = true) :
    Mirrored nodeID (c.addRule rule)
      (table.setPortRule ((sqlPersistence nodeID now).stored rule) now) := by
  have saved := mirrored.mirrors_merged now own rooms
  refine ⟨mirrored.policy, ?_, ?_, ?_⟩
  · intro port held registered
    rw [Controller.addRule_rules] at registered
    split at registered
    · rename_i same
      rw [← Option.some.inj registered, same]
    · exact mirrored.keyed port held registered
  · intro port held registered
    rw [Controller.addRule_rules] at registered
    split at registered
    · rw [← Option.some.inj registered]
      exact ⟨_, (KeyedTable.mem_upsert_iff _ _ _ _ _).mpr (Or.inr rfl), saved⟩
    · rename_i differs
      obtain ⟨row, member, mirrors⟩ := mirrored.stored port held registered
      refine ⟨row, (KeyedTable.mem_upsert_iff _ _ _ _ _).mpr (Or.inl ⟨member, ?_⟩), mirrors⟩
      rw [mirrors.id]
      exact fresh port held registered differs
  · intro row member
    rcases (KeyedTable.mem_upsert_iff _ _ _ _ _).mp member with ⟨kept, differs⟩ | rfl
    · obtain ⟨held, registered, mirrors⟩ := mirrored.registered row kept
      refine ⟨held, ?_, mirrors⟩
      rw [Controller.addRule_rules, if_neg, registered]
      intro same
      rw [same] at registered
      -- A row that is kept has another ID, so its port is not the one of the new rule.
      exact differs (mirrors.id.trans (replaces held registered))
    · refine ⟨rule, ?_, saved⟩
      rw [Controller.addRule_rules, if_pos saved.virtualPort]

/-- Removing a rule deletes exactly its row. -/
theorem remove (mirrored : Mirrored nodeID c table) {virtualPort : Int} {rule : PortRule}
    (registered : c.rules virtualPort = some rule) :
    Mirrored nodeID (c.removeRule virtualPort) (table.deletePortRule rule.id) := by
  obtain ⟨row, member, mirrors⟩ := mirrored.stored virtualPort rule registered
  refine ⟨(c.removeRule_policy virtualPort).trans mirrored.policy, ?_, ?_, ?_⟩
  · intro port held lookup
    rw [Controller.removeRule_rules] at lookup
    split at lookup
    · contradiction
    · exact mirrored.keyed port held lookup
  · intro port held lookup
    rw [Controller.removeRule_rules] at lookup
    split at lookup
    · contradiction
    · rename_i differs
      obtain ⟨other, present, shows⟩ := mirrored.stored port held lookup
      refine ⟨other, (KeyedTable.mem_erase_iff _ _ _).mpr ⟨present, ?_⟩, shows⟩
      intro sameID
      have same : other = row := table.eq_of_key_eq present member (sameID.trans mirrors.id.symm)
      rw [same] at shows
      apply differs
      rw [← mirrored.keyed port held lookup, ← mirrored.keyed virtualPort rule registered,
        ← shows.virtualPort, mirrors.virtualPort]
  · intro other present
    obtain ⟨kept, differs⟩ := (KeyedTable.mem_erase_iff _ _ _).mp present
    obtain ⟨held, lookup, shows⟩ := mirrored.registered other kept
    refine ⟨held, ?_, shows⟩
    rw [Controller.removeRule_rules, if_neg, lookup]
    intro same
    rw [same, registered, Option.some.injEq] at lookup
    rw [← lookup] at shows
    exact differs shows.id

/-- A persisted call that returns nil and meets the condition keeps rows and rules
mirrored. -/
theorem step {call : PersistCall} {after : Controller × PortRuleTable}
    (mirrored : Mirrored nodeID c table) (faithful : Faithful nodeID (c, table) call)
    (taken : PersistStep nodeID (c, table) call after) : Mirrored nodeID after.1 after.2 := by
  unfold PersistStep PersistCall.run at taken
  cases call with
  | add rule now =>
      rcases c.addRulePersisted_cases (sqlPersistence nodeID now) table rule now with
        ⟨cause, next, failed⟩ | ⟨valid, next, accepted, saved, added⟩
      · simp [failed] at taken
      · simp only [added, Prod.mk.injEq, true_and] at taken
        obtain ⟨own, replaces, fresh, rooms⟩ := faithful valid accepted
        have node : (Controller.completed (sqlPersistence nodeID now) valid now).nodeID =
            nodeID := by
          rcases own with empty | same
          · exact if_pos empty
          · change (if valid.nodeID = [] then nodeID else valid.nodeID) = nodeID
            rw [same, ite_self]
        have kept := mirrored.add now node replaces fresh rooms
        simp only [RulePersistence.saveRule, sqlPersistence, sqlStore, Prod.mk.injEq,
          true_and] at saved
        rw [← taken, ← saved]
        exact kept
  | remove virtualPort now =>
      rcases c.removeRulePersisted_cases (sqlPersistence nodeID now) table virtualPort with
        ⟨_, failed⟩ | ⟨rule, registered, removed⟩
      · simp [failed] at taken
      · simp only [removed, Prod.mk.injEq] at taken
        rw [← taken.2]
        exact mirrored.remove registered

end Mirrored

/-- The registry that `LoadPersisted` builds holds the last of the loaded rules for
each virtual port. -/
theorem Controller.reset_rules (c : Controller) (rules : List PortRule) (port : Int) :
    (c.reset rules).rules port = rules.reverse.find? fun rule => rule.virtualPort = port := by
  unfold reset
  induction rules using List.reverseRecOn with
  | nil => rfl
  | append_singleton rules rule ih =>
      rw [List.foldl_append, List.foldl_cons, List.foldl_nil, addRule_rules, ih,
        List.reverse_append, List.reverse_singleton, List.singleton_append, List.find?_cons]
      by_cases same : port = rule.virtualPort
      · simp [same]
      · have differs : ¬ rule.virtualPort = port := fun other => same other.symm
        simp [same, differs]

theorem Controller.reset_policy (c : Controller) (rules : List PortRule) :
    (c.reset rules).policy = c.policy := by
  unfold reset
  induction rules using List.reverseRecOn with
  | nil => rfl
  | append_singleton rules rule ih =>
      rw [List.foldl_append]
      exact ih

namespace Mirrored

variable {nodeID : Bytes} {c : Controller} {table : PortRuleTable}

/-- A restart registers the rows of the node, in the order in which the store returns them. -/
theorem restart_eq (nodeID : Bytes) (now : Nat) (table : PortRuleTable) :
    restart nodeID now table =
      (none, (newController .deny).reset ((table.getPortRules nodeID).map PortRule.ofStored)) :=
  rfl

/-- What a restart registers is an enabled rule of the live controller. -/
theorem of_restart (mirrored : Mirrored nodeID c table) {now : Nat} {port : Int} {loaded : PortRule}
    (lookup : (restart nodeID now table).2.rules port = some loaded) :
    ∃ row rule, c.rules port = some rule ∧ rule.enabled = true ∧ row.Mirrors nodeID rule ∧
      loaded = .ofStored row := by
  rw [restart_eq, Controller.reset_rules] at lookup
  have chosen := List.find?_some lookup
  have member := List.mem_reverse.mp (List.mem_of_find?_eq_some lookup)
  obtain ⟨row, listed, rfl⟩ := List.mem_map.mp member
  obtain ⟨present, _, enabled⟩ := (PortRuleTable.mem_getPortRules_iff _ _ _).mp listed
  obtain ⟨rule, registered, mirrors⟩ := mirrored.registered row present
  have port_eq : row.virtualPort = port := of_decide_eq_true chosen
  rw [port_eq] at registered
  exact ⟨row, rule, registered, mirrors.enabled.symm.trans enabled, mirrors, rfl⟩

/-- A restart registers a rule for every enabled rule of the live controller. -/
theorem exists_restart (mirrored : Mirrored nodeID c table) (now : Nat) {port : Int}
    {rule : PortRule} (registered : c.rules port = some rule) (enabled : rule.enabled = true) :
    ∃ loaded, (restart nodeID now table).2.rules port = some loaded := by
  obtain ⟨row, present, mirrors⟩ := mirrored.stored port rule registered
  have listed : row ∈ table.getPortRules nodeID :=
    (PortRuleTable.mem_getPortRules_iff _ _ _).mpr
      ⟨present, mirrors.node, mirrors.enabled.trans enabled⟩
  have port_eq : row.virtualPort = port :=
    mirrors.virtualPort.trans (mirrored.keyed port rule registered)
  rw [restart_eq, Controller.reset_rules, ← Option.isSome_iff_exists, List.find?_isSome]
  exact ⟨.ofStored row, List.mem_reverse.mpr (List.mem_map_of_mem listed), decide_eq_true port_eq⟩

/-- A rule that was read back admits the sources that the live one admits. -/
theorem ruleAllowsSource_ofStored {row : StoredRule} {rule : PortRule}
    (mirrors : row.Mirrors nodeID rule) (src : Source) :
    ruleAllowsSource (.ofStored row) src = ruleAllowsSource rule src := by
  simp only [ruleAllowsSource, PortRule.ofStored, mirrors.allowedRooms]

/-- A controller that mirrors the table exposes the same services after a restart. -/
theorem sameExposure (mirrored : Mirrored nodeID c table) (now : Nat) :
    SameExposure c (restart nodeID now table).2 := by
  have deny : (restart nodeID now table).2.policy = .deny := by
    rw [restart_eq]
    exact Controller.reset_policy _ _
  constructor
  · intro port src
    rw [Controller.decide_eq_allow_iff mirrored.policy, Controller.decide_eq_allow_iff deny]
    constructor
    · rintro ⟨rule, registered, enabled, allowed⟩
      obtain ⟨loaded, lookup⟩ := mirrored.exists_restart now registered enabled
      obtain ⟨row, rule', registered', _, mirrors, rfl⟩ := mirrored.of_restart lookup
      obtain rfl : rule = rule' := Option.some.inj (registered.symm.trans registered')
      exact ⟨_, lookup, mirrors.enabled.trans enabled,
        (ruleAllowsSource_ofStored mirrors src).trans allowed⟩
    · rintro ⟨loaded, lookup, _, allowed⟩
      obtain ⟨row, rule, registered, enabled, mirrors, rfl⟩ := mirrored.of_restart lookup
      exact ⟨rule, registered, enabled, (ruleAllowsSource_ofStored mirrors src).symm.trans allowed⟩
  · intro port src allowed
    obtain ⟨rule, registered, enabled, _⟩ :=
      (Controller.decide_eq_allow_iff mirrored.policy port src).mp allowed
    obtain ⟨loaded, lookup⟩ := mirrored.exists_restart now registered enabled
    obtain ⟨row, rule', registered', _, mirrors, rfl⟩ := mirrored.of_restart lookup
    obtain rfl : rule = rule' := Option.some.inj (registered.symm.trans registered')
    exact ⟨rule, _, registered, lookup, mirrors.localPort.symm, mirrors.protocol.symm⟩

end Mirrored

/-- In every run of successful persisted calls that meet the condition, a restart
exposes in every state reached exactly what the live controller exposes. -/
theorem sameExposure_of_faithful (nodeID : Bytes) {c : Controller} {table : PortRuleTable}
    (reached : Reachable (Guarded (PersistStep nodeID) (Faithful nodeID))
      (newController .deny, KeyedTable.empty) (c, table)) (now : Nat) :
    (restart nodeID now table).1 = none ∧ SameExposure c (restart nodeID now table).2 := by
  have mirrored : Mirrored nodeID c table :=
    reached.invariant (fun state => Mirrored nodeID state.1 state.2) Mirrored.initial
      fun _ _ _ mirrored taken => mirrored.step taken.1 taken.2
  exact ⟨rfl, mirrored.sameExposure now⟩

/-- One rule ID at two virtual ports: the first port is closed by a restart. -/
theorem reusedID_lost_by_restart :
    ∃ c table, Reachable (PersistStep (ascii "n")) (newController .deny, KeyedTable.empty)
        (c, table) ∧
      ¬ SameExposure c (restart (ascii "n") 7 table).2 := by
  have first : Reachable (PersistStep (ascii "n")) (newController .deny, KeyedTable.empty) _ :=
    (Reachable.refl _).tail (show PersistStep (ascii "n") (newController .deny, KeyedTable.empty)
      (.add (some (sampleRule (ascii "a") 1 10)) 5) _ from rfl)
  have second := first.tail (show PersistStep (ascii "n") _
    (.add (some (sampleRule (ascii "a") 2 20)) 6) _ from rfl)
  refine ⟨_, _, second, fun same => ?_⟩
  have admitted := (same.allow_iff 1 ⟨[], true, []⟩).mp (by decide)
  exact absurd admitted (by decide)

/-- Two persisted rules, one of them added again under its own ID with another local port, and the
other one removed: a restart exposes what the live controller exposes. -/
theorem persistedRules_survive_restart :
    ∃ c table, Reachable (Guarded (PersistStep (ascii "n")) (Faithful (ascii "n")))
        (newController .deny, KeyedTable.empty) (c, table) ∧
      c.decide 1 ⟨[], true, []⟩ = .allow ∧ c.decide 2 ⟨[], true, []⟩ ≠ .allow ∧
      (c.lookupVirtual 1).map PortRule.localPort = some 11 ∧
      (restart (ascii "n") 9 table).1 = none ∧ SameExposure c (restart (ascii "n") 9 table).2 := by
  have first : Reachable (Guarded (PersistStep (ascii "n")) (Faithful (ascii "n")))
      (newController .deny, KeyedTable.empty) _ :=
    (Reachable.refl _).guardedTail
      (show PersistStep (ascii "n") _ (.add (some (sampleRule (ascii "a") 1 10)) 5) _ from rfl) (by
        intro valid accepted
        cases accepted
        refine ⟨.inl rfl, fun old registered => ?_, fun port other registered => ?_,
          fun room member => ?_⟩
        · cases registered
        · cases registered
        · cases member)
  have second := first.guardedTail
    (show PersistStep (ascii "n") _ (.add (some (sampleRule (ascii "b") 2 20)) 6) _ from rfl) (by
      intro valid accepted
      cases accepted
      refine ⟨.inl rfl, fun old registered => ?_, fun port other registered _ => ?_,
        fun room member => ?_⟩
      · cases registered
      · rw [addRule_rules] at registered
        split at registered
        · cases registered
          decide
        · cases registered
      · cases member)
  -- The first rule again under its own ID, with another local port.
  have third := second.guardedTail
    (show PersistStep (ascii "n") _ (.add (some (sampleRule (ascii "a") 1 11)) 7) _ from rfl) (by
      intro valid accepted
      cases accepted
      refine ⟨.inl rfl, fun old registered => ?_, fun port other registered differs => ?_,
        fun room member => ?_⟩
      · cases registered
        rfl
      · rw [addRule_rules, addRule_rules] at registered
        split at registered
        · cases registered
          decide
        · split at registered
          · exact absurd ‹_› differs
          · cases registered
      · cases member)
  -- The second rule is removed.
  have fourth := third.guardedTail
    (show PersistStep (ascii "n") _ (.remove 2 8) _ from rfl) trivial
  obtain ⟨loaded, same⟩ := sameExposure_of_faithful (ascii "n") fourth 9
  exact ⟨_, _, fourth, by decide, by decide, by decide, loaded, same⟩

end P2pMesh

import P2pMesh.Foundation.BigEndian
import P2pMesh.Foundation.KeyedTable
import Mathlib.Data.List.Sort

/-! # The table of port rules

The `port_rules` table of `internal/storage/sqlstore.go`, with the rule ID as its
primary key. Foreign keys are not enforced by the SQLite backend, so a rule may be
stored for a node without a row.

An upsert that meets the ID of a rule of another node changes that rule and leaves it to its
node. When the rules of a node are isolated from those of the others all the same is said by
`P2pMesh.PortRuleTable.isolates_iff`.
-/

namespace P2pMesh

open Foundation

/-- `PortRule` of `internal/storage`, with the rooms as the text of their column. -/
structure StoredRule where
  id : Bytes
  nodeID : Bytes
  protocol : Bytes
  localPort : Int
  virtualPort : Int
  description : Bytes
  allowedRooms : Bytes
  enabled : Bool
  createdAt : Option Nat
deriving DecidableEq

/-- The table `port_rules`. -/
abbrev PortRuleTable := KeyedTable StoredRule.id

/-- What `SetPortRule` changes in a row that has the ID already. -/
def StoredRule.overwrite (row rule : StoredRule) : StoredRule :=
  { row with
    protocol := rule.protocol
    localPort := rule.localPort
    virtualPort := rule.virtualPort
    description := rule.description
    allowedRooms := rule.allowedRooms
    enabled := rule.enabled }

/-- The two rules have the same protocol, ports, rooms and description. -/
def StoredRule.SameValues (row rule : StoredRule) : Prop :=
  row.protocol = rule.protocol ∧ row.localPort = rule.localPort ∧
    row.virtualPort = rule.virtualPort ∧ row.allowedRooms = rule.allowedRooms ∧
      row.description = rule.description

namespace PortRuleTable

/-- `SetPortRule` at the time `now`. -/
def setPortRule (table : PortRuleTable) (rule : StoredRule) (now : Nat) : PortRuleTable :=
  table.upsert StoredRule.overwrite (fun _ _ => rfl) { rule with createdAt := some now }

/-- `GetPortRules`: the enabled rows of a node by virtual port. -/
def getPortRules (table : PortRuleTable) (nodeID : Bytes) : List StoredRule :=
  (table.rows.filter fun row => row.nodeID = nodeID ∧ row.enabled = true).insertionSort
    fun first second => first.virtualPort ≤ second.virtualPort

/-- `DeletePortRule`. -/
def deletePortRule (table : PortRuleTable) (ruleID : Bytes) : PortRuleTable :=
  table.erase ruleID

/-- `GetPortRules` returns the enabled rows of the node. -/
theorem mem_getPortRules_iff (table : PortRuleTable) (nodeID : Bytes) (row : StoredRule) :
    row ∈ table.getPortRules nodeID ↔
      row ∈ table.rows ∧ row.nodeID = nodeID ∧ row.enabled = true := by
  rw [getPortRules, List.mem_insertionSort, List.mem_filter, decide_eq_true_eq]

/-- The row that `SetPortRule` leaves under the ID of the rule. -/
def stored (table : PortRuleTable) (rule : StoredRule) (now : Nat) : StoredRule :=
  table.merged StoredRule.overwrite { rule with createdAt := some now }

/-- `SetPortRule` replaces the row under the ID of the rule and leaves all others. -/
theorem mem_setPortRule_iff (table : PortRuleTable) (rule : StoredRule) (now : Nat)
    (row : StoredRule) : row ∈ (table.setPortRule rule now).rows ↔
      (row ∈ table.rows ∧ row.id ≠ rule.id) ∨ row = table.stored rule now :=
  KeyedTable.mem_upsert_iff _ _ _ _ _

/-- A rule under a new ID is stored with the time. -/
theorem stored_of_none {table : PortRuleTable} {rule : StoredRule}
    (found : table.find rule.id = none) (now : Nat) :
    table.stored rule now = { rule with createdAt := some now } := by
  simp only [stored, KeyedTable.merged, found]

/-- A rule under an ID that exists overwrites the row, which keeps its node. -/
theorem stored_of_some {table : PortRuleTable} {rule row : StoredRule}
    (found : table.find rule.id = some row) (now : Nat) :
    table.stored rule now = row.overwrite rule := by
  simp only [stored, KeyedTable.merged, found]
  rfl

/-- The values of the rule are stored, whichever node the row belongs to. -/
theorem stored_values (table : PortRuleTable) (rule : StoredRule) (now : Nat) :
    (table.stored rule now).SameValues rule ∧ (table.stored rule now).enabled = rule.enabled := by
  cases found : table.find rule.id with
  | none =>
      rw [stored_of_none found]
      exact ⟨⟨rfl, rfl, rfl, rfl, rfl⟩, rfl⟩
  | some row =>
      rw [stored_of_some found]
      exact ⟨⟨rfl, rfl, rfl, rfl, rfl⟩, rfl⟩

/-- `SetPortRule` gives the rule to its node and leaves the rules of the other nodes. -/
def Isolates (table : PortRuleTable) (rule : StoredRule) (now : Nat) : Prop :=
  (rule.enabled = true →
    ∃ row ∈ (table.setPortRule rule now).getPortRules rule.nodeID, row.SameValues rule) ∧
  ∀ nodeID, nodeID ≠ rule.nodeID →
    (table.setPortRule rule now).getPortRules nodeID = table.getPortRules nodeID

/-- The row of another node under the ID of the rule makes no difference: both are disabled,
or both are enabled with the same values and the node of the rule has such a row as well. -/
def Harmless (table : PortRuleTable) (rule row : StoredRule) : Prop :=
  (row.enabled = false ∧ rule.enabled = false) ∨
  (row.enabled = true ∧ row.overwrite rule = row ∧
    ∃ other ∈ table.getPortRules rule.nodeID, other.SameValues rule)

/-- The rules that `GetPortRules` selects for another node stay as they are. -/
theorem getPortRules_setPortRule {table : PortRuleTable} {rule : StoredRule}
    (harmless : ∀ row, table.find rule.id = some row → row.nodeID ≠ rule.nodeID →
      table.Harmless rule row) (now : Nat) {nodeID : Bytes} (other : nodeID ≠ rule.nodeID) :
    (table.setPortRule rule now).getPortRules nodeID = table.getPortRules nodeID := by
  unfold getPortRules
  congr 1
  refine KeyedTable.filter_upsert _ _ _ _ _ (fun _ => ?_) fun row found => ?_
  · exact decide_eq_false fun selected => other selected.1.symm
  by_cases own : row.nodeID = rule.nodeID
  · have unselected : row.nodeID ≠ nodeID := fun same => other (same.symm.trans own)
    simp [StoredRule.overwrite, unselected]
  rcases harmless row found own with ⟨old, new⟩ | ⟨_, unchanged, _⟩
  · simp [StoredRule.overwrite, old, new]
  · have kept : row.overwrite { rule with createdAt := some now } = row := unchanged
    simp only [kept, implies_true, and_self]

/-- The row under the ID of the rule is the one that `SetPortRule` leaves there. -/
theorem eq_stored {table : PortRuleTable} {rule row : StoredRule} {now : Nat}
    (member : row ∈ (table.setPortRule rule now).rows) (same : row.id = rule.id) :
    row = table.stored rule now := by
  rcases (table.mem_setPortRule_iff rule now row).mp member with ⟨_, differs⟩ | last
  · exact absurd same differs
  · exact last

/-- If the nodes stay isolated, the row of another node under the ID makes no difference. -/
theorem Isolates.harmless {table : PortRuleTable} {rule row : StoredRule} {now : Nat}
    (isolates : table.Isolates rule now) (found : table.find rule.id = some row)
    (other : row.nodeID ≠ rule.nodeID) : table.Harmless rule row := by
  obtain ⟨given, frame⟩ := isolates
  obtain ⟨member, sameID⟩ := KeyedTable.mem_of_find found
  have listed (r : StoredRule) : r ∈ (table.setPortRule rule now).getPortRules row.nodeID ↔
      r ∈ table.getPortRules row.nodeID := by
    rw [frame row.nodeID other]
  simp only [mem_getPortRules_iff] at listed
  by_cases enabled : row.enabled = true
  · -- the row was listed for its node, so it is the row that is left
    have unchanged : row = table.stored rule now :=
      eq_stored ((listed row).mpr ⟨member, rfl, enabled⟩).1 sameID
    have ruleEnabled : rule.enabled = true := by
      rw [← (table.stored_values rule now).2, ← unchanged]
      exact enabled
    obtain ⟨own, ownListed, values⟩ := given ruleEnabled
    obtain ⟨ownMember, ownNode, ownEnabled⟩ := (mem_getPortRules_iff _ _ _).mp ownListed
    refine Or.inr ⟨enabled, (stored_of_some found now).symm.trans unchanged.symm, own, ?_, values⟩
    rcases (table.mem_setPortRule_iff rule now own).mp ownMember with ⟨before, _⟩ | last
    · exact (mem_getPortRules_iff _ _ _).mpr ⟨before, ownNode, ownEnabled⟩
    · rw [last, ← unchanged] at ownNode
      exact absurd ownNode other
  · refine Or.inl ⟨Bool.eq_false_of_not_eq_true enabled, ?_⟩
    by_contra ruleEnabled
    rw [Bool.not_eq_false] at ruleEnabled
    -- an enabled row of the other node appears, which was not listed for it
    have appears : table.stored rule now ∈ table.rows := by
      refine ((listed _).mp ⟨?_, ?_, ?_⟩).1
      · exact (table.mem_setPortRule_iff rule now _).mpr (Or.inr rfl)
      · rw [stored_of_some found]
        rfl
      · exact (table.stored_values rule now).2.trans ruleEnabled
    have same : table.stored rule now = row := by
      refine table.eq_of_key_eq appears member ?_
      rw [stored_of_some found]
      rfl
    exact enabled (same ▸ (table.stored_values rule now).2.trans ruleEnabled)

/-- `SetPortRule` isolates the nodes just when no other node has a row under the ID of the
rule, or that row makes no difference. -/
theorem isolates_iff (table : PortRuleTable) (rule : StoredRule) (now : Nat) :
    table.Isolates rule now ↔
      ∀ row, table.find rule.id = some row → row.nodeID ≠ rule.nodeID →
        table.Harmless rule row := by
  refine ⟨fun isolates row found other => isolates.harmless found other, fun harmless =>
    ⟨fun enabled => ?_, fun nodeID other => getPortRules_setPortRule harmless now other⟩⟩
  obtain ⟨values, storedEnabled⟩ := table.stored_values rule now
  have present := (table.mem_setPortRule_iff rule now _).mpr (Or.inr rfl)
  by_cases own : (table.stored rule now).nodeID = rule.nodeID
  · exact ⟨_, (mem_getPortRules_iff _ _ _).mpr ⟨present, own, storedEnabled.trans enabled⟩, values⟩
  cases found : table.find rule.id with
  | none => exact absurd (by rw [stored_of_none found]) own
  | some row =>
      rw [stored_of_some found] at own
      rcases harmless row found own with ⟨_, disabled⟩ | ⟨_, _, kept, listed, values⟩
      · exact absurd enabled (by simp [disabled])
      obtain ⟨member, node, keptEnabled⟩ := (mem_getPortRules_iff _ _ _).mp listed
      refine ⟨kept, (mem_getPortRules_iff _ _ _).mpr ⟨?_, node, keptEnabled⟩, values⟩
      refine (table.mem_setPortRule_iff rule now kept).mpr (Or.inl ⟨member, fun sameID => ?_⟩)
      obtain ⟨rowMember, rowID⟩ := KeyedTable.mem_of_find found
      rw [table.eq_of_key_eq member rowMember (sameID.trans rowID.symm)] at node
      exact own node

/-- An enabled rule of a node, for no particular room. -/
def sampleRule (id nodeID protocol : Bytes) (localPort virtualPort : Int) : StoredRule :=
  ⟨id, nodeID, protocol, localPort, virtualPort, [], [], true, none⟩

/-- A table with one rule, of the node `a`. -/
def sampleTable : PortRuleTable :=
  setPortRule KeyedTable.empty (sampleRule [1] (ascii "a") (ascii "tcp") 80 8080) 1

/-- The rule of `a` is overwritten by one of `b` under its ID, and `b` has none. -/
theorem setPortRule_overwrites :
    let other := sampleRule [1] (ascii "b") (ascii "udp") 53 5353
    ¬ sampleTable.Isolates other 2 ∧
    sampleTable.getPortRules (ascii "a") =
      [⟨[1], ascii "a", ascii "tcp", 80, 8080, [], [], true, some 1⟩] ∧
    (sampleTable.setPortRule other 2).getPortRules (ascii "a") =
      [⟨[1], ascii "a", ascii "udp", 53, 5353, [], [], true, some 1⟩] ∧
    (sampleTable.setPortRule other 2).getPortRules (ascii "b") = [] :=
  ⟨fun isolates => absurd (isolates.2 (ascii "a") (by decide)) (by decide), by decide⟩

end PortRuleTable

end P2pMesh

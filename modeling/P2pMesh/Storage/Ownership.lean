import P2pMesh.Foundation.Transition
import P2pMesh.Storage.Database

/-! # What an unbound identity owns

`UnbindNodeID` deletes the row of a node and relies on the foreign keys for its room
memberships and port rules. They are not enforced, so the dependants stay unless they
were removed before, and a later registration of the ID finds them. The store is
observed with the IDs that were unbound and not registered again; they own nothing
exactly along the runs in which an ID is unbound without dependants and gets none
while it is unbound (`P2pMesh.Store.ownNothing_of_cleared`).
-/

namespace P2pMesh

open Foundation

/-- No membership and no port rule refers to the node. -/
structure Database.OwnsNothing (db : Database) (id : Bytes) : Prop where
  members : ∀ row ∈ db.roomMembers.rows, row.nodeID ≠ id
  portRules : ∀ row ∈ db.portRules.rows, row.nodeID ≠ id

/-- The tables, and the IDs for which `UnbindNodeID` returned nil and no registration
has succeeded since. -/
structure Store where
  db : Database
  unbound : List Bytes

namespace Store

/-- An empty store, before any call. -/
def new : Store :=
  ⟨Database.empty, []⟩

/-- The unbound IDs after a call that returned `err`. -/
def unboundAfter (unbound : List Bytes) : StoreCall → Option StoreError → List Bytes
  | .unbindNodeID id, none => id :: unbound
  | .registerNode n, none => unbound.filter (· ≠ n.id)
  | _, _ => unbound

/-- A call at a time. -/
def step (s : Store) (label : StoreCall × Nat) : Store :=
  ⟨(s.db.perform label.2 label.1).2,
    unboundAfter s.unbound label.1 (s.db.perform label.2 label.1).1⟩

/-- A call at a time as a step. -/
def Step (before : Store) (label : StoreCall × Nat) (after : Store) : Prop :=
  before.step label = after

/-- Unbound identities own nothing, and still do when they are registered again. -/
structure UnboundOwnNothing (s : Store) : Prop where
  unbound : ∀ id ∈ s.unbound, s.db.OwnsNothing id
  rebound : ∀ n now, n.id ∈ s.unbound → (s.db.perform now (.registerNode n)).2.OwnsNothing n.id

/-- A node is unbound without dependants, and an unbound ID is given none. -/
def Cleared (s : Store) (label : StoreCall × Nat) : Prop :=
  match label.1 with
  | .unbindNodeID id => s.db.nodes.find id ≠ none → s.db.OwnsNothing id
  | .addRoomMember _ nodeID => nodeID ∉ s.unbound
  | .setPortRule rule => s.db.portRules.find rule.id = none → rule.nodeID ∉ s.unbound
  | _ => True

end Store

namespace Database

/-- Only the memberships and the port rules count. -/
theorem OwnsNothing.of_tables {db other : Database} {id : Bytes} (nothing : db.OwnsNothing id)
    (members : other.roomMembers = db.roomMembers) (portRules : other.portRules = db.portRules) :
    other.OwnsNothing id := by
  refine ⟨fun row member => ?_, fun row member => ?_⟩
  · rw [members] at member
    exact nothing.members row member
  · rw [portRules] at member
    exact nothing.portRules row member

/-- A new membership belongs to its node. -/
theorem ownsNothing_addRoomMember_iff (db : Database) (roomID nodeID : Bytes) (now : Nat)
    (id : Bytes) :
    (db.addRoomMember roomID nodeID now).OwnsNothing id ↔ db.OwnsNothing id ∧ nodeID ≠ id := by
  constructor
  · intro nothing
    have kept : db.OwnsNothing id :=
      ⟨fun row member => nothing.members row
        ((db.roomMembers.mem_insertNew_iff _ row).mpr (Or.inl member)), nothing.portRules⟩
    refine ⟨kept, fun same => ?_⟩
    -- The row is new: one that is there already would refer to the node.
    have absent : db.roomMembers.find (roomID, nodeID) = none := by
      rw [KeyedTable.find_eq_none_iff]
      intro row member found
      exact kept.members row member ((congrArg Prod.snd found).trans same)
    exact nothing.members ⟨roomID, nodeID, now⟩
      ((db.roomMembers.mem_insertNew_iff _ _).mpr (Or.inr ⟨absent, rfl⟩)) same
  · rintro ⟨nothing, differs⟩
    refine ⟨fun row member => ?_, nothing.portRules⟩
    rcases (db.roomMembers.mem_insertNew_iff _ row).mp member with old | ⟨_, rfl⟩
    · exact nothing.members row old
    · exact differs

/-- A membership that ends gives nobody anything. -/
theorem OwnsNothing.removeRoomMember {db : Database} {id : Bytes} (nothing : db.OwnsNothing id)
    (roomID nodeID : Bytes) : (db.removeRoomMember roomID nodeID).OwnsNothing id :=
  ⟨fun row member => nothing.members row
    ((db.roomMembers.mem_erase_iff _ row).mp member).1, nothing.portRules⟩

/-- `SetPortRule` keeps the node of a row that it overwrites. -/
theorem ownsNothing_setPortRule_iff (db : Database) (rule : StoredRule) (now : Nat) (id : Bytes) :
    (db.perform now (.setPortRule rule)).2.OwnsNothing id ↔
      db.OwnsNothing id ∧ (db.portRules.find rule.id = none → rule.nodeID ≠ id) := by
  have rows := db.portRules.mem_upsert_iff StoredRule.overwrite (fun _ _ => rfl)
    { rule with createdAt := some now }
  unfold KeyedTable.merged at rows
  cases found : db.portRules.find rule.id with
  | none =>
      have absent := (KeyedTable.find_eq_none_iff db.portRules rule.id).mp found
      simp only [found] at rows
      simp only [true_implies]
      constructor
      · intro nothing
        exact ⟨⟨nothing.members, fun row member => nothing.portRules row
          ((rows row).mpr (Or.inl ⟨member, absent row member⟩))⟩,
          nothing.portRules { rule with createdAt := some now } ((rows _).mpr (Or.inr rfl))⟩
      · rintro ⟨nothing, differs⟩
        refine ⟨nothing.members, fun row member => ?_⟩
        rcases (rows row).mp member with ⟨old, _⟩ | rfl
        · exact nothing.portRules row old
        · exact differs
  | some old =>
      obtain ⟨present, same⟩ := KeyedTable.mem_of_find found
      simp only [found] at rows
      simp only [reduceCtorEq, false_implies, and_true]
      constructor
      · intro nothing
        refine ⟨nothing.members, fun row member => ?_⟩
        by_cases conflict : row.id = rule.id
        · rw [db.portRules.eq_of_key_eq member present (conflict.trans same.symm)]
          exact nothing.portRules (old.overwrite { rule with createdAt := some now })
            ((rows _).mpr (Or.inr rfl))
        · exact nothing.portRules row ((rows row).mpr (Or.inl ⟨member, conflict⟩))
      · intro nothing
        refine ⟨nothing.members, fun row member => ?_⟩
        rcases (rows row).mp member with ⟨earlier, _⟩ | rfl
        · exact nothing.portRules row earlier
        · exact nothing.portRules old present

/-- A port rule that is deleted gives nobody anything. -/
theorem OwnsNothing.deletePortRule {db : Database} {id : Bytes} (nothing : db.OwnsNothing id)
    (now : Nat) (ruleID : Bytes) : (db.perform now (.deletePortRule ruleID)).2.OwnsNothing id :=
  ⟨nothing.members, fun row member => nothing.portRules row
    ((db.portRules.mem_erase_iff ruleID row).mp member).1⟩

end Database

namespace Store

/-- Registering an identity again adds nothing to what it owns. -/
theorem unboundOwnNothing_iff (s : Store) :
    s.UnboundOwnNothing ↔ ∀ id ∈ s.unbound, s.db.OwnsNothing id := by
  refine ⟨UnboundOwnNothing.unbound, fun nothing => ⟨nothing, fun n now member => ?_⟩⟩
  exact (nothing n.id member).of_tables rfl rfl

/-- Registering a node unbinds no ID. -/
theorem unbound_of_registerNode {s : Store} {n : Node} {now : Nat} {id : Bytes}
    (member : id ∈ (s.step (.registerNode n, now)).unbound) : id ∈ s.unbound := by
  simp only [step, unboundAfter] at member
  split at member
  · next returned _ => cases returned
  · exact (List.mem_filter.mp member).1
  · exact member

/-- `UnbindNodeID` adds its identity to the unbound ones, with whatever it owns. -/
theorem step_unbindNodeID_iff {s : Store} (before : ∀ id ∈ s.unbound, s.db.OwnsNothing id)
    (id : Bytes) (now : Nat) :
    (∀ other ∈ (s.step (.unbindNodeID id, now)).unbound,
      (s.step (.unbindNodeID id, now)).db.OwnsNothing other) ↔
      s.Cleared (.unbindNodeID id, now) := by
  simp only [step, Cleared, Database.perform, NodeTable.unbindNodeID]
  cases found : s.db.nodes.find id with
  | none =>
      simp only [Option.map_some, ne_eq, not_true_eq_false, false_implies, iff_true]
      exact before
  | some row =>
      simp only [Option.map_none, unboundAfter, List.mem_cons, forall_eq_or_imp, ne_eq,
        reduceCtorEq, not_false_eq_true, true_implies]
      constructor
      · rintro ⟨first, _⟩
        exact first.of_tables rfl rfl
      · intro first
        exact ⟨first.of_tables rfl rfl,
          fun other member => (before other member).of_tables rfl rfl⟩

/-- Unbound identities own nothing after a call exactly when it was cleared. -/
theorem step_unboundOwnNothing_iff {s : Store} (nothing : s.UnboundOwnNothing)
    (label : StoreCall × Nat) : (s.step label).UnboundOwnNothing ↔ s.Cleared label := by
  have before := s.unboundOwnNothing_iff.mp nothing
  rw [unboundOwnNothing_iff]
  obtain ⟨call, now⟩ := label
  cases call with
  | registerNode n =>
      refine iff_of_true (fun id member => ?_) trivial
      exact (before id (unbound_of_registerNode member)).of_tables rfl rfl
  | updateNodeStatus _ _ =>
      exact iff_of_true (fun id member => (before id member).of_tables rfl rfl) trivial
  | deleteNode _ =>
      exact iff_of_true (fun id member => (before id member).of_tables rfl rfl) trivial
  | unbindNodeID id => exact step_unbindNodeID_iff before id now
  | createRoom r =>
      refine iff_of_true (fun id member => ?_) trivial
      obtain ⟨members, portRules⟩ := s.db.createRoom_other r now
      exact (before id member).of_tables members portRules
  | addRoomMember roomID nodeID =>
      simp only [step, Cleared, Database.perform, unboundAfter,
        Database.ownsNothing_addRoomMember_iff]
      constructor
      · intro after member
        exact (after nodeID member).2 rfl
      · intro absent id member
        exact ⟨before id member, fun same => absent (same ▸ member)⟩
  | removeRoomMember roomID nodeID =>
      exact iff_of_true (fun id member => (before id member).removeRoomMember roomID nodeID) trivial
  | setPortRule rule =>
      simp only [step, Cleared, unboundAfter, Database.ownsNothing_setPortRule_iff]
      constructor
      · intro after fresh member
        exact (after rule.nodeID member).2 fresh rfl
      · intro absent id member
        exact ⟨before id member, fun fresh same => absent fresh (same ▸ member)⟩
  | deletePortRule ruleID =>
      exact iff_of_true (fun id member => (before id member).deletePortRule now ruleID) trivial

/-- In every state of a run whose calls are cleared, unbound identities own nothing;
the first call that is not cleared leaves one that does. -/
theorem ownNothing_of_cleared {s : Store}
    (reached : Reachable (Guarded Step Cleared) new s) :
    s.UnboundOwnNothing ∧ ∀ label, (s.step label).UnboundOwnNothing ↔ s.Cleared label := by
  have nothing : s.UnboundOwnNothing := by
    refine reached.invariant UnboundOwnNothing ?_ ?_
    · rw [unboundOwnNothing_iff]
      intro id member
      cases member
    · rintro before label after nothing ⟨cleared, rfl⟩
      exact (step_unboundOwnNothing_iff nothing label).mpr cleared
  exact ⟨nothing, step_unboundOwnNothing_iff nothing⟩

/-- A run of cleared calls is prolonged by one more of them. -/
theorem step_of_cleared {s : Store} (reached : Reachable (Guarded Step Cleared) new s)
    (label : StoreCall × Nat) (cleared : s.Cleared label) :
    Reachable (Guarded Step Cleared) new (s.step label) :=
  reached.guardedTail rfl cleared

section Runs

open NodeTable PortRuleTable

/-- A node joins a room, is given a rule and is unbound without an error: the new owner
of its ID is listed as a member of the room and has the rule. -/
theorem unboundNode_keeps_dependants :
    let joined := [(StoreCall.registerNode (sampleNode (ascii "node-a") [1] []), 1),
      (.createRoom ⟨ascii "room-r", ascii "r", ascii "node-a", false, 100, 0⟩, 2),
      (.addRoomMember (ascii "room-r") (ascii "node-a"), 3),
      (.setPortRule (sampleRule (ascii "rule-1") (ascii "node-a") (ascii "tcp") 8080 8080),
        4)].foldl step new
    let unbound := joined.step (.unbindNodeID (ascii "node-a"), 5)
    let rebound := unbound.step (.registerNode (sampleNode (ascii "node-a") [2] []), 6)
    (joined.db.perform 5 (.unbindNodeID (ascii "node-a"))).1 = none ∧
      ¬ unbound.db.OwnsNothing (ascii "node-a") ∧
      (rebound.db.listRoomMembers (ascii "room-r")).map Node.pubKey = [some [2]] ∧
      (rebound.db.portRules.getPortRules (ascii "node-a")).map StoredRule.id =
        [ascii "rule-1"] := by
  refine ⟨by decide, fun nothing => ?_, by decide, by decide⟩
  exact nothing.members ⟨ascii "room-r", ascii "node-a", 3⟩ (by decide) rfl

/-- A node that left its room before it was unbound owns nothing afterwards. -/
theorem unboundAfterLeaving_ownsNothing :
    let left := [(StoreCall.registerNode (sampleNode (ascii "node-a") [1] []), 1),
      (.addRoomMember (ascii "room-r") (ascii "node-a"), 2),
      (.removeRoomMember (ascii "room-r") (ascii "node-a"), 3)].foldl step new
    (left.step (.unbindNodeID (ascii "node-a"), 4)).UnboundOwnNothing := by
  intro left
  have registered := step_of_cleared (Reachable.refl new)
    (.registerNode (sampleNode (ascii "node-a") [1] []), 1) trivial
  have joined := step_of_cleared registered
    (.addRoomMember (ascii "room-r") (ascii "node-a"), 2) List.not_mem_nil
  have reached := step_of_cleared joined
    (.removeRoomMember (ascii "room-r") (ascii "node-a"), 3) trivial
  refine ((ownNothing_of_cleared reached).2 _).mpr fun _ => ⟨?_, ?_⟩
  · intro row member
    cases member
  · intro row member
    cases member

end Runs

end Store

end P2pMesh

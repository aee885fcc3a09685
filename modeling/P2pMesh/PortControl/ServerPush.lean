import P2pMesh.PortControl.Registered

/-! # Rules pushed by the server

`ApplyServerRules` writes each pushed rule under its two ports and removes nothing.
After a push the identifiers of the pushed rules are carried by these alone exactly when
every rule registered before with one of the identifiers stands where some pushed rule is
written (`P2pMesh.Controller.revokes_iff`).
-/

namespace P2pMesh

open Foundation

namespace Controller

/-- In either index, only a pushed rule at its own port carries its identifier. -/
structure Revokes (c : Controller) (pushed : List StoredRule) : Prop where
  virtual : ∀ sr ∈ pushed, ∀ port r, c.lookupVirtual port = some r → r.id = sr.id →
    port = sr.virtualPort ∧ r = .ofStored sr
  locally : ∀ sr ∈ pushed, ∀ port r, c.lookupLocal port = some r → r.id = sr.id →
    port = sr.localPort ∧ r = .ofStored sr

/-- Every entry of the index with the identifier of a pushed rule stands at a port of a
pushed rule. -/
def Overwritten (index : Int → Option PortRule) (port : StoredRule → Int)
    (pushed : List StoredRule) : Prop :=
  ∀ old r, index old = some r → r.id ∈ pushed.map StoredRule.id → old ∈ pushed.map port

/-- Adding a list of rules writes them to their virtual ports in turn. -/
theorem foldl_addRule_rules (rules : List PortRule) (c : Controller) :
    (rules.foldl addRule c).rules = writeAll PortRule.virtualPort rules c.rules := by
  induction rules generalizing c with
  | nil => rfl
  | cons rule rules ih => exact ih (c.addRule rule)

/-- Adding a list of rules writes them to their local ports in turn. -/
theorem foldl_addRule_locals (rules : List PortRule) (c : Controller) :
    (rules.foldl addRule c).locals = writeAll PortRule.localPort rules c.locals := by
  induction rules generalizing c with
  | nil => rfl
  | cons rule rules ih => exact ih (c.addRule rule)

/-- One index after a push: its entries with the identifier of a pushed rule are the
pushed rules exactly when each such entry of before is overwritten. -/
theorem forall_written_iff (index : Int → Option PortRule) (port : PortRule → Int)
    {pushed : List StoredRule} (distinct : (pushed.map StoredRule.id).Nodup) :
    (∀ sr ∈ pushed, ∀ place r, writeAll port (pushed.map .ofStored) index place = some r →
      r.id = sr.id → place = port (.ofStored sr) ∧ r = .ofStored sr) ↔
    Overwritten index (fun sr => port (.ofStored sr)) pushed := by
  refine ⟨fun revoked old r found carried => ?_, fun overwritten sr member place r found same => ?_⟩
  · obtain ⟨sr, member, same⟩ := List.mem_map.mp carried
    rcases writeAll_cases port (pushed.map PortRule.ofStored) index old with
      ⟨last, lastMem, under, _⟩ | ⟨_, kept⟩
    · obtain ⟨other, otherMem, rfl⟩ := List.mem_map.mp lastMem
      exact List.mem_map.mpr ⟨other, otherMem, under⟩
    · obtain ⟨stands, _⟩ := revoked sr member old r (kept.trans found) same.symm
      exact List.mem_map.mpr ⟨sr, member, stands.symm⟩
  · rcases writeAll_cases port (pushed.map PortRule.ofStored) index place with
      ⟨last, lastMem, under, written⟩ | ⟨elsewhere, kept⟩
    · obtain ⟨other, otherMem, rfl⟩ := List.mem_map.mp lastMem
      rw [written] at found
      cases found
      have sameRule : other = sr := List.inj_on_of_nodup_map distinct otherMem member same
      exact ⟨by rw [← under, sameRule], by rw [sameRule]⟩
    · rw [kept] at found
      have stands := overwritten place r found (List.mem_map.mpr ⟨sr, member, same.symm⟩)
      obtain ⟨other, otherMem, under⟩ := List.mem_map.mp stands
      exact absurd under (elsewhere _ (List.mem_map_of_mem otherMem))

/-- A push of rules with distinct identifiers leaves no other rule with one of the
identifiers exactly when each registered rule with one is overwritten in its index. -/
theorem revokes_iff (c : Controller) {pushed : List StoredRule}
    (distinct : (pushed.map StoredRule.id).Nodup) :
    (c.applyServerRules pushed).2.Revokes pushed ↔
      Overwritten c.rules StoredRule.virtualPort pushed ∧
        Overwritten c.locals StoredRule.localPort pushed := by
  have virtual := forall_written_iff c.rules PortRule.virtualPort distinct
  have locally := forall_written_iff c.locals PortRule.localPort distinct
  rw [← foldl_addRule_rules] at virtual
  rw [← foldl_addRule_locals] at locally
  rw [applyServerRules_eq]
  exact ⟨fun revokes => ⟨virtual.mp revokes.virtual, locally.mp revokes.locally⟩,
    fun overwritten => ⟨virtual.mpr overwritten.1, locally.mpr overwritten.2⟩⟩

/-- A rule moved from port 1 to port 2 stays open at port 1. -/
theorem movedRule_keeps_old_port :
    ¬ (((newController .deny).applyServerRules [sampleStored 1 ""]).2.applyServerRules
      [sampleStored 2 ""]).2.Revokes [sampleStored 2 ""] := by
  intro revokes
  have moved := (revokes.virtual (sampleStored 2 "") List.mem_cons_self 1
    (.ofStored (sampleStored 1 "")) rfl rfl).1
  exact absurd moved (by decide)

/-- A second push for the same port replaces the rule of the first one. -/
theorem samePort_replaced :
    (((newController .deny).applyServerRules [sampleStored 1 ""]).2.applyServerRules
      [sampleStored 1 "[]"]).2.Revokes [sampleStored 1 "[]"] := by
  rw [revokes_iff _ (by decide)]
  refine ⟨fun old r found _ => ?_, fun old r found _ => ?_⟩
  · by_cases same : old = 1
    · rw [same]
      exact List.mem_cons_self
    · simp only [applyServerRules_eq, List.map_cons, List.map_nil, List.foldl_cons,
        List.foldl_nil, addRule_rules] at found
      have other : ¬ old = (PortRule.ofStored (sampleStored 1 "")).virtualPort := same
      rw [if_neg other] at found
      cases found
  · by_cases same : old = 10
    · rw [same]
      exact List.mem_cons_self
    · simp only [applyServerRules_eq, List.map_cons, List.map_nil, List.foldl_cons,
        List.foldl_nil, addRule_locals] at found
      have other : ¬ old = (PortRule.ofStored (sampleStored 1 "")).localPort := same
      rw [if_neg other] at found
      cases found

end Controller

end P2pMesh

import P2pMesh.PortControl.Indexes

/-! # What may be registered

Every call of the controller registers rules that are handed to it, removes a rule, or
replaces the registry by the rules that were loaded
(`P2pMesh.Controller.perform_cases`), so a property of all rules handed in is a
property of all rules registered. Only `AddRulePersisted` validates its rule: the
registered rules are valid along runs whose other calls hand in valid rules
(`P2pMesh.Controller.valid_of_checked`), and unknown sources are refused along runs in
which no enabled rule lists the empty room
(`P2pMesh.Controller.refusesUnknown_of_named`).
-/

namespace P2pMesh

open Foundation

namespace Controller

variable {σ : Type}

/-- The rules that a call hands to the controller. -/
def handed : Controller × σ → ControllerCall σ → List PortRule
  | _, .addRule rule => [rule]
  | _, .removeRule _ => []
  | _, .applyServerRules rules => rules.map .ofStored
  | _, .addRulePersisted p rule now =>
      match validateRule rule with
      | .error _ => []
      | .ok valid => [completed p valid now]
  | _, .removeRulePersisted _ _ => []
  | (_, s), .loadPersisted p =>
      match p.loadRules s with
      | .error _ => []
      | .ok rules => rules

/-- Every rule in either index has the property. -/
structure Registers (c : Controller) (good : PortRule → Prop) : Prop where
  virtual : ∀ port r, c.lookupVirtual port = some r → good r
  locally : ∀ port r, c.lookupLocal port = some r → good r

/-- A call adds rules handed to it, removes a rule, or reloads the registry. -/
theorem perform_cases (state : Controller × σ) (call : ControllerCall σ) :
    (∃ rules, rules ⊆ handed state call ∧
      (perform state call).1 = rules.foldl addRule state.1) ∨
    (∃ virtualPort, (perform state call).1 = state.1.removeRule virtualPort) ∨
    (perform state call).1 = state.1.reset (handed state call) := by
  obtain ⟨c, s⟩ := state
  cases call with
  | addRule rule => exact Or.inl ⟨[rule], List.Subset.refl _, rfl⟩
  | removeRule virtualPort => exact Or.inr (Or.inl ⟨virtualPort, rfl⟩)
  | applyServerRules rules =>
      refine Or.inl ⟨rules.map .ofStored, List.Subset.refl _, ?_⟩
      simp only [perform, applyServerRules_eq]
  | addRulePersisted p rule now =>
      rcases c.addRulePersisted_cases p s rule now with
        ⟨cause, next, failed⟩ | ⟨valid, next, accepted, _, added⟩
      · refine Or.inl ⟨[], List.nil_subset _, ?_⟩
        simp only [perform, failed, List.foldl_nil]
      · refine Or.inl ⟨[completed p valid now], ?_, ?_⟩
        · simp only [handed, accepted]
          exact List.Subset.refl _
        · simp only [perform, added, List.foldl_cons, List.foldl_nil]
  | removeRulePersisted p virtualPort =>
      rcases c.removeRulePersisted_cases p s virtualPort with ⟨_, failed⟩ | ⟨rule, _, removed⟩
      · refine Or.inl ⟨[], List.nil_subset _, ?_⟩
        simp only [perform, failed, List.foldl_nil]
      · refine Or.inr (Or.inl ⟨virtualPort, ?_⟩)
        simp only [perform, removed]
  | loadPersisted p =>
      cases loaded : p.loadRules s with
      | error cause =>
          refine Or.inl ⟨[], List.nil_subset _, ?_⟩
          simp only [perform, loadPersisted, loaded, List.foldl_nil]
      | ok rules =>
          refine Or.inr (Or.inr ?_)
          simp only [perform, loadPersisted, loaded, handed]

/-- `AddRule` sets the entry of the rule's local port and no other. -/
theorem addRule_locals (c : Controller) (rule : PortRule) (port : Int) :
    (c.addRule rule).locals port = if port = rule.localPort then some rule else c.locals port :=
  Function.update_apply _ _ _ _

/-- Removing a rule leaves only entries of the local index that were there before. -/
theorem locals_of_removeRule {c : Controller} {virtualPort port : Int} {r : PortRule}
    (found : (c.removeRule virtualPort).locals port = some r) : c.locals port = some r := by
  unfold removeRule at found
  cases present : c.rules virtualPort with
  | none => simpa only [present] using found
  | some rule =>
      simp only [present, Function.update_apply] at found
      split at found
      · cases found
      · exact found

namespace Registers

variable {c : Controller} {good : PortRule → Prop}

/-- A new controller has no rule, so every rule in it has the property. -/
theorem empty (policy : Policy) : (newController policy).Registers good := by
  refine ⟨fun port r found => ?_, fun port r found => ?_⟩
  all_goals cases found

/-- A rule with the property can be added. -/
theorem addRule (registers : c.Registers good) {rule : PortRule} (fine : good rule) :
    (c.addRule rule).Registers good := by
  refine ⟨fun port r found => ?_, fun port r found => ?_⟩
  · rw [lookupVirtual, addRule_rules] at found
    split at found
    · cases found
      exact fine
    · exact registers.virtual port r found
  · rw [lookupLocal, addRule_locals] at found
    split at found
    · cases found
      exact fine
    · exact registers.locally port r found

/-- Removing a rule brings none in. -/
theorem removeRule (registers : c.Registers good) (virtualPort : Int) :
    (c.removeRule virtualPort).Registers good := by
  refine ⟨fun port r found => ?_, fun port r found => ?_⟩
  · rw [lookupVirtual, removeRule_rules] at found
    split at found
    · cases found
    · exact registers.virtual port r found
  · exact registers.locally port r (locals_of_removeRule found)

/-- A list of rules with the property can be added. -/
theorem foldl_addRule {rules : List PortRule} (registers : c.Registers good)
    (fine : ∀ r ∈ rules, good r) : (rules.foldl Controller.addRule c).Registers good := by
  induction rules generalizing c with
  | nil => exact registers
  | cons rule rules ih =>
      obtain ⟨first, rest⟩ := List.forall_mem_cons.mp fine
      exact ih (registers.addRule first) rest

/-- A call that hands in rules with a property leaves only rules with it registered. -/
theorem perform {state : Controller × σ} (registers : state.1.Registers good)
    {call : ControllerCall σ} (fine : ∀ r ∈ handed state call, good r) :
    (perform state call).1.Registers good := by
  rcases perform_cases state call with ⟨rules, among, added⟩ | ⟨virtualPort, removed⟩ | reloaded
  · rw [added]
    exact registers.foldl_addRule fun r member => fine r (among member)
  · rw [removed]
    exact registers.removeRule virtualPort
  · rw [reloaded]
    exact (empty state.1.policy).foldl_addRule fine

/-- A rule can be added exactly if it has the property, since it is found afterwards. -/
theorem addRule_iff (registers : c.Registers good) (rule : PortRule) :
    (c.addRule rule).Registers good ↔ good rule := by
  refine ⟨fun after => ?_, registers.addRule⟩
  apply after.virtual rule.virtualPort
  rw [lookupVirtual, addRule_rules, if_pos rfl]

end Registers

end Controller

/-- What `validateRule` checks of a rule. -/
structure PortRule.Valid (r : PortRule) : Prop where
  virtualPort : 1 ≤ r.virtualPort ∧ r.virtualPort ≤ 65535
  localPort : 1 ≤ r.localPort ∧ r.localPort ≤ 65535
  protocol : r.protocol = ascii "tcp" ∨ r.protocol = ascii "udp"

/-- Validation accepts the valid rules and returns them unchanged. -/
theorem validateRule_eq_ok_iff (rule : Option PortRule) (valid : PortRule) :
    validateRule rule = .ok valid ↔ rule = some valid ∧ valid.Valid := by
  cases rule with
  | none => simp [validateRule]
  | some r =>
      simp only [validateRule]
      split
      · next range =>
          refine ⟨nofun, fun ⟨same, fine⟩ => ?_⟩
          cases same
          have inside := fine.virtualPort
          omega
      split
      · next range =>
          refine ⟨nofun, fun ⟨same, fine⟩ => ?_⟩
          cases same
          have inside := fine.localPort
          omega
      split
      · next other =>
          refine ⟨nofun, fun ⟨same, fine⟩ => ?_⟩
          cases same
          rcases fine.protocol with tcp | udp
          · exact absurd tcp other.1
          · exact absurd udp other.2
      · next virtualRange localRange known =>
          refine ⟨fun accepted => ?_, fun ⟨same, _⟩ => congrArg _ (Option.some.inj same)⟩
          cases accepted
          refine ⟨rfl, ⟨?_, ?_⟩, ⟨?_, ?_⟩, ?_⟩
          · omega
          · omega
          · omega
          · omega
          · by_contra neither
            exact known (not_or.mp neither)

namespace Controller

variable {σ : Type}

/-- The calls that do not validate hand in valid rules only. -/
def Checked (state : Controller × σ) (call : ControllerCall σ) : Prop :=
  match call with
  | .addRulePersisted _ _ _ => True
  | _ => ∀ r ∈ handed state call, r.Valid

/-- A checked call hands in valid rules only. -/
theorem Checked.valid {state : Controller × σ} {call : ControllerCall σ}
    (checked : Checked state call) : ∀ r ∈ handed state call, r.Valid := by
  cases call with
  | addRulePersisted p rule now =>
      intro r member
      cases accepted : validateRule rule with
      | error cause => simp [handed, accepted] at member
      | ok valid =>
          simp only [handed, accepted, List.mem_singleton] at member
          have fine := ((validateRule_eq_ok_iff rule valid).mp accepted).2
          rw [member]
          exact ⟨fine.virtualPort, fine.localPort, fine.protocol⟩
  | _ => exact checked

/-- Along runs whose other calls hand in valid rules only, every rule in either index
has valid ports and a known protocol; adding a rule keeps that exactly when the rule is
valid. -/
theorem valid_of_checked (policy : Policy) (s : σ) {c : Controller} {t : σ}
    (reached : Reachable
      (Guarded (fun before call after => perform before call = after) Checked)
      (newController policy, s) (c, t)) :
    c.Registers PortRule.Valid ∧
      ∀ rule, (c.addRule rule).Registers PortRule.Valid ↔ rule.Valid := by
  have registers : c.Registers PortRule.Valid :=
    reached.invariant (fun state => state.1.Registers PortRule.Valid) (Registers.empty policy)
      fun before call after registers ⟨checked, taken⟩ => by
        rw [← taken]
        exact registers.perform checked.valid
  exact ⟨registers, registers.addRule_iff⟩

/-- A stored TCP rule of the node `n` with its virtual port and its column of rooms. -/
def sampleStored (virtualPort : Int) (allowedRooms : String) : StoredRule :=
  ⟨ascii "a", ascii "n", ascii "tcp", 10, virtualPort, [], ascii allowedRooms, true, none⟩

/-- The server pushes a rule for port zero. -/
theorem pushedZeroPort_registered :
    ∃ c : Controller,
      Reachable (fun before call after => perform before call = after)
        (newController .deny, ()) (c, ()) ∧
      ¬ c.Registers PortRule.Valid := by
  refine ⟨_, Reachable.foldl perform (newController .deny, ())
    [.applyServerRules [sampleStored 0 ""]], fun registers => ?_⟩
  have range := (registers.virtual 0 (.ofStored (sampleStored 0 "")) rfl).virtualPort.1
  exact absurd range (by decide)

/-- A valid rule that the server pushes is registered. -/
theorem pushedValidRule_registered :
    ((newController .deny).applyServerRules [sampleStored 1 ""]).2.Registers PortRule.Valid := by
  have checked : Checked (newController .deny, ()) (.applyServerRules [sampleStored 1 ""]) := by
    intro r member
    rw [List.mem_singleton.mp member]
    exact ⟨by decide, by decide, Or.inl rfl⟩
  exact (valid_of_checked .deny () ((Reachable.refl _).tail ⟨checked, rfl⟩)).1

/-- No virtual port admits a source whose room is unknown. -/
def RefusesUnknown (c : Controller) : Prop :=
  ∀ virtualPort src, src.room = [] → src.sameRoom = false → c.decide virtualPort src ≠ .allow

end Controller

/-- An enabled rule lists no room with the empty name, which stands for an unknown one. -/
def PortRule.Named (r : PortRule) : Prop :=
  r.enabled = true → [] ∉ r.allowedRooms

/-- A rule admits a source of an unknown room exactly if it lists the empty name. -/
theorem ruleAllowsSource_unknown (r : PortRule) {src : Source} (room : src.room = [])
    (sameRoom : src.sameRoom = false) :
    ruleAllowsSource r src = true ↔ [] ∈ r.allowedRooms := by
  unfold ruleAllowsSource
  split
  · next none => simp [none, sameRoom]
  · rw [List.contains_iff_mem, room]

namespace Controller

variable {σ : Type}

/-- Under the default policy unknown rooms are refused exactly if every registered rule is named. -/
theorem refusesUnknown_iff {c : Controller} (deny : c.policy = .deny) :
    c.RefusesUnknown ↔ ∀ port r, c.rules port = some r → r.Named := by
  refine ⟨fun refuses port r found enabled listed => ?_,
    fun named virtualPort src room sameRoom admitted => ?_⟩
  · apply refuses port ⟨[], false, []⟩ rfl rfl
    rw [decide_eq_allow_iff deny]
    exact ⟨r, found, enabled, (ruleAllowsSource_unknown r rfl rfl).mpr listed⟩
  · obtain ⟨r, found, enabled, allows⟩ := (decide_eq_allow_iff deny virtualPort src).mp admitted
    exact named virtualPort r found enabled
      ((ruleAllowsSource_unknown r room sameRoom).mp allows)

/-- Adding rules leaves the policy as it is. -/
theorem foldl_addRule_policy (c : Controller) (rules : List PortRule) :
    (rules.foldl addRule c).policy = c.policy := by
  induction rules generalizing c with
  | nil => rfl
  | cons rule rules ih => exact ih (c.addRule rule)

/-- No call changes the policy. -/
theorem perform_policy (state : Controller × σ) (call : ControllerCall σ) :
    (perform state call).1.policy = state.1.policy := by
  rcases perform_cases state call with ⟨rules, _, added⟩ | ⟨virtualPort, removed⟩ | reloaded
  · rw [added, foldl_addRule_policy]
  · rw [removed, removeRule_policy]
  · rw [reloaded, reset, foldl_addRule_policy]

/-- Along runs in which no enabled rule that is handed in lists the empty room, unknown
sources are refused at every port; adding a rule keeps that exactly when it is disabled
or does not list the empty room. -/
theorem refusesUnknown_of_named (s : σ) {c : Controller} {t : σ}
    (reached : Reachable
      (Guarded (fun before call after => perform before call = after)
        (fun state call => ∀ r ∈ handed state call, r.Named))
      (newController .deny, s) (c, t)) :
    c.RefusesUnknown ∧ ∀ rule, (c.addRule rule).RefusesUnknown ↔ rule.Named := by
  obtain ⟨deny, registers⟩ : c.policy = .deny ∧ c.Registers PortRule.Named :=
    reached.invariant (fun state => state.1.policy = .deny ∧ state.1.Registers PortRule.Named)
      ⟨rfl, Registers.empty .deny⟩
      fun before call after ⟨deny, registers⟩ ⟨named, taken⟩ => by
        rw [← taken]
        exact ⟨(perform_policy before call).trans deny, registers.perform named⟩
  refine ⟨(refusesUnknown_iff deny).mpr registers.virtual, fun rule => ?_⟩
  have stillDeny : (c.addRule rule).policy = .deny := deny
  rw [refusesUnknown_iff stillDeny]
  refine ⟨fun named => ?_, fun named => (registers.addRule named).virtual⟩
  exact named rule.virtualPort rule (by rw [addRule_rules, if_pos rfl])

/-- The column holds a list with one `null`, which is read as the empty name. -/
theorem nullRoom_admits_unknown :
    ∃ c : Controller,
      Reachable (fun before call after => perform before call = after)
        (newController .deny, ()) (c, ()) ∧
      ¬ c.RefusesUnknown := by
  refine ⟨_, Reachable.foldl perform (newController .deny, ())
    [.applyServerRules [sampleStored 1 "[null]"]], fun refuses => ?_⟩
  exact refuses 1 ⟨[], false, []⟩ rfl rfl (by decide)

/-- A rule that lists a room refuses sources without one. -/
theorem listedRoom_refuses_unknown :
    ((newController .deny).applyServerRules [sampleStored 1 "[\"r\"]"]).2.RefusesUnknown := by
  have named : ∀ r ∈ handed (newController .deny, ())
      (.applyServerRules [sampleStored 1 "[\"r\"]"]), r.Named := by
    intro r member enabled
    rw [List.mem_singleton.mp member]
    decide
  exact (refusesUnknown_of_named () ((Reachable.refl _).tail ⟨named, rfl⟩)).1

end Controller

end P2pMesh

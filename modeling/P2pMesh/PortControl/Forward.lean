import P2pMesh.PortControl.Registered

/-! # Dialling the service behind a virtual port

`Forwarder` of `internal/portcontrol/forward.go`. `DialVirtual` takes the lock of the
controller twice, once in `Decide` and once in `LookupVirtual`, and other calls may
change the registry between the two. A call dials by the rule it looks up, without
looking at the verdict again: what it dials is what `Decide` admits along runs in which
every call that looks its rule up would still be admitted
(`P2pMesh.proper_of_unrevoked`). Without interruption a call meets a missing rule only
under the policy that allows everything (`P2pMesh.dialVirtual_safe_iff`).
-/

namespace P2pMesh

open Foundation

/-- The arguments of a call of `DialVirtual`. -/
structure Dial where
  virtualPort : Int
  network : Bytes
  src : Source

/-- The protocol that `DialVirtual` expects of a rule for a network name. -/
def networkProtocol (network : Bytes) : Option Bytes :=
  if network = ascii "tcp" ∨ network = ascii "tcp4" ∨ network = ascii "tcp6" then
    some (ascii "tcp")
  else if network = ascii "udp" ∨ network = ascii "udp4" ∨ network = ascii "udp6" then
    some (ascii "udp")
  else none

/-- How a call of `DialVirtual` ends: `dialled` carries the port on 127.0.0.1 and the
error of `DialLocal`, and `nilRule` is the dereference of a missing rule. -/
inductive DialReturn where
  | unreachable
  | unsupported (network : Bytes)
  | dialled (localPort : Int) (err : Option String)
  | nilRule
deriving DecidableEq, Repr

/-- The texts of the errors, given the quoting of `%q`. -/
def DialReturn.text (quoted : Bytes → String) : DialReturn → Option String
  | .unreachable => some "virtual port unreachable"
  | .unsupported network => some ("unsupported forward network " ++ quoted network)
  | .dialled localPort err =>
      err.map fun cause =>
        "dial local service 127.0.0.1:" ++ toString localPort ++ ": " ++ cause
  | .nilRule => none

section Calls

variable (dialLocal : Bytes → Int → Option String)

/-- `DialVirtual` from the result of `LookupVirtual` on. -/
def dialRule (network : Bytes) (rule : Option PortRule) : DialReturn :=
  match networkProtocol network with
  | none => .unsupported network
  | some protocol =>
      match rule with
      | none => .nilRule
      | some rule =>
          if rule.protocol ≠ protocol then .unreachable
          else .dialled rule.localPort (dialLocal network rule.localPort)

/-- `DialVirtual` without interruption. -/
def dialVirtual (c : Controller) (dial : Dial) : DialReturn :=
  match c.decide dial.virtualPort dial.src with
  | .allow => dialRule dialLocal dial.network (c.lookupVirtual dial.virtualPort)
  | _ => .unreachable

end Calls

/-- A call that has returned, with the rule it looked up. -/
structure DialRecord where
  dial : Dial
  rule : Option PortRule
  outcome : DialReturn

/-- The call met no missing rule, and a port it dialled is that of an enabled rule for
its virtual port and its protocol that allows its source. -/
structure DialRecord.Proper (record : DialRecord) : Prop where
  present : record.outcome ≠ .nilRule
  justified : ∀ localPort err, record.outcome = .dialled localPort err →
    ∃ rule, record.rule = some rule ∧ rule.localPort = localPort ∧ rule.enabled = true ∧
      rule.virtualPort = record.dial.virtualPort ∧
      networkProtocol record.dial.network = some rule.protocol ∧
      ruleAllowsSource rule record.dial.src = true

/-- A controller with its store, the calls of `DialVirtual` that `Decide` has admitted
and that have not looked their rule up yet, and those that have returned. -/
structure Forwarding (σ : Type) where
  registry : Controller × σ
  pending : Nat → Option Dial
  returned : List DialRecord

/-- A new controller, with nobody dialling. -/
def newForwarding {σ : Type} (s : σ) : Forwarding σ :=
  ⟨(newController .deny, s), fun _ => none, []⟩

/-- The atomic steps: an update, and the two calls of a dial. -/
inductive ForwardLabel (σ : Type) where
  | update (call : ControllerCall σ)
  | decide (caller : Nat) (dial : Dial)
  | lookup (caller : Nat)

/-- The locked sections of the calls, one at a time. -/
inductive ForwardStep {σ : Type} (dialLocal : Bytes → Int → Option String) :
    Forwarding σ → ForwardLabel σ → Forwarding σ → Prop where
  | update {f : Forwarding σ} (call : ControllerCall σ) :
      ForwardStep dialLocal f (.update call)
        { f with registry := Controller.perform f.registry call }
  | refuse {f : Forwarding σ} (caller : Nat) (dial : Dial) :
      f.pending caller = none →
      f.registry.1.decide dial.virtualPort dial.src ≠ .allow →
      ForwardStep dialLocal f (.decide caller dial)
        { f with returned := f.returned ++ [⟨dial, none, .unreachable⟩] }
  | accept {f : Forwarding σ} (caller : Nat) (dial : Dial) :
      f.pending caller = none →
      f.registry.1.decide dial.virtualPort dial.src = .allow →
      ForwardStep dialLocal f (.decide caller dial)
        { f with pending := Function.update f.pending caller (some dial) }
  | lookup {f : Forwarding σ} (caller : Nat) (dial : Dial) :
      f.pending caller = some dial →
      ForwardStep dialLocal f (.lookup caller)
        { f with
          pending := Function.update f.pending caller none
          returned := f.returned ++ [⟨dial, f.registry.1.lookupVirtual dial.virtualPort,
            dialRule dialLocal dial.network (f.registry.1.lookupVirtual dial.virtualPort)⟩] }

/-- A call that looks its rule up would still be admitted. -/
def Forwarding.Unrevoked {σ : Type} (f : Forwarding σ) : ForwardLabel σ → Prop
  | .lookup caller =>
      ∀ dial, f.pending caller = some dial →
        f.registry.1.decide dial.virtualPort dial.src = .allow
  | _ => True

/-- A call whose two locked sections follow each other returns what `DialVirtual` returns
without interruption. -/
theorem Forwarding.reaches_dialVirtual {σ : Type} (dialLocal : Bytes → Int → Option String)
    (f : Forwarding σ) {caller : Nat} (free : f.pending caller = none) (dial : Dial) :
    ∃ rule, Reachable (ForwardStep dialLocal) f { f with
      returned := f.returned ++ [⟨dial, rule, dialVirtual dialLocal f.registry.1 dial⟩] } := by
  unfold dialVirtual
  by_cases admitted : f.registry.1.decide dial.virtualPort dial.src = .allow
  · have accepted : Reachable (ForwardStep dialLocal) f _ :=
      (Reachable.refl f).tail (.accept caller dial free admitted)
    have returned := accepted.tail (.lookup caller dial (Function.update_self _ _ _))
    rw [Function.update_idem, ← free, Function.update_eq_self] at returned
    rw [admitted]
    exact ⟨_, returned⟩
  · have refused : Reachable (ForwardStep dialLocal) f _ :=
      (Reachable.refl f).tail (.refuse caller dial free admitted)
    refine ⟨none, ?_⟩
    split
    · next allowed => exact absurd allowed admitted
    · exact refused

namespace Controller

variable {σ : Type}

/-- A list of rules is registered under their own virtual ports. -/
theorem keyed_foldl_addRule {c : Controller} (keyed : c.index.Keyed PortRule.virtualPort)
    (rules : List PortRule) : (rules.foldl addRule c).index.Keyed PortRule.virtualPort := by
  induction rules generalizing c with
  | nil => exact keyed
  | cons rule rules ih =>
      apply ih
      rw [index_addRule]
      exact keyed.insert rule

/-- A new controller has no rule under a foreign port. -/
theorem keyed_newController (policy : Policy) :
    (newController policy).index.Keyed PortRule.virtualPort := by
  intro key value found
  cases found

/-- Every call keeps rules registered under their own virtual port. -/
theorem keyed_perform {state : Controller × σ} (call : ControllerCall σ)
    (keyed : state.1.index.Keyed PortRule.virtualPort) :
    (perform state call).1.index.Keyed PortRule.virtualPort := by
  rcases perform_cases state call with ⟨rules, _, added⟩ | ⟨virtualPort, removed⟩ | reloaded
  · rw [added]
    exact keyed_foldl_addRule keyed rules
  · rw [removed, index_removeRule]
    exact keyed.erase virtualPort
  · rw [reloaded]
    exact keyed_foldl_addRule (keyed_newController state.1.policy) _

end Controller

section Records

variable {dialLocal : Bytes → Int → Option String}

/-- A call that is refused at once returns properly. -/
theorem DialRecord.proper_unreachable (dial : Dial) (rule : Option PortRule) :
    (DialRecord.mk dial rule .unreachable).Proper :=
  ⟨nofun, nofun⟩

/-- A call returns properly when the rule it looks up is one that `Decide` admits. -/
theorem proper_dialRule {c : Controller} (deny : c.policy = .deny)
    (keyed : c.index.Keyed PortRule.virtualPort) {dial : Dial}
    (admitted : c.decide dial.virtualPort dial.src = .allow) :
    (DialRecord.mk dial (c.lookupVirtual dial.virtualPort)
      (dialRule dialLocal dial.network (c.lookupVirtual dial.virtualPort))).Proper := by
  obtain ⟨rule, found, enabled, allows⟩ :=
    (Controller.decide_eq_allow_iff deny _ _).mp admitted
  have looked : c.lookupVirtual dial.virtualPort = some rule := found
  rw [looked]
  unfold dialRule
  cases known : networkProtocol dial.network with
  | none => exact ⟨nofun, nofun⟩
  | some protocol =>
      by_cases same : rule.protocol = protocol
      · simp only [ne_eq, same, not_true_eq_false, ↓reduceIte]
        refine ⟨nofun, fun localPort err dialled => ?_⟩
        cases dialled
        refine ⟨rule, rfl, rfl, enabled, keyed _ _ found, ?_, allows⟩
        rw [same]
        exact known
      · simp only [ne_eq, same, not_false_eq_true, ↓reduceIte]
        exact DialRecord.proper_unreachable dial _

/-- A call with a known network that meets no rule of another protocol returns properly
only when it would still be admitted. -/
theorem admitted_of_proper {c : Controller} (deny : c.policy = .deny) {dial : Dial}
    {protocol : Bytes} (known : networkProtocol dial.network = some protocol)
    (matching : ∀ r, c.rules dial.virtualPort = some r → r.protocol = protocol)
    (proper : (DialRecord.mk dial (c.lookupVirtual dial.virtualPort)
      (dialRule dialLocal dial.network (c.lookupVirtual dial.virtualPort))).Proper) :
    c.decide dial.virtualPort dial.src = .allow := by
  cases found : c.lookupVirtual dial.virtualPort with
  | none =>
      refine absurd ?_ proper.present
      simp only [dialRule, known, found]
  | some rule =>
      have dialled : dialRule dialLocal dial.network (c.lookupVirtual dial.virtualPort) =
          .dialled rule.localPort (dialLocal dial.network rule.localPort) := by
        simp only [dialRule, known, found, matching rule found, ne_eq, not_true_eq_false,
          ↓reduceIte]
      obtain ⟨used, looked, _, enabled, _, _, allows⟩ := proper.justified _ _ dialled
      exact (Controller.decide_eq_allow_iff deny _ _).mpr ⟨used, looked, enabled, allows⟩

end Records

namespace Forwarding

variable {σ : Type}

/-- The calls return properly, the policy is the default one, and rules are registered
under their own virtual port. -/
structure Sound (f : Forwarding σ) : Prop where
  deny : f.registry.1.policy = .deny
  keyed : f.registry.1.index.Keyed PortRule.virtualPort
  proper : ∀ record ∈ f.returned, record.Proper

/-- A step keeps the returns proper, if no rule is revoked between the decision and the lookup. -/
theorem Sound.step {dialLocal : Bytes → Int → Option String} {f after : Forwarding σ}
    {label : ForwardLabel σ} (sound : f.Sound) (unrevoked : f.Unrevoked label)
    (taken : ForwardStep dialLocal f label after) : after.Sound := by
  cases taken with
  | update call =>
      refine ⟨?_, Controller.keyed_perform call sound.keyed, sound.proper⟩
      exact (Controller.perform_policy f.registry call).trans sound.deny
  | refuse caller dial free refused =>
      refine ⟨sound.deny, sound.keyed, List.forall_mem_append.mpr ⟨sound.proper, ?_⟩⟩
      rw [List.forall_mem_singleton]
      exact DialRecord.proper_unreachable dial none
  | accept caller dial free admitted => exact ⟨sound.deny, sound.keyed, sound.proper⟩
  | lookup caller dial waits =>
      refine ⟨sound.deny, sound.keyed, List.forall_mem_append.mpr ⟨sound.proper, ?_⟩⟩
      rw [List.forall_mem_singleton]
      exact proper_dialRule sound.deny sound.keyed (unrevoked dial waits)

end Forwarding

/-- Along runs in which every call that looks its rule up would still be admitted, no
call meets a missing rule and every port dialled is that of a rule that admits the call.
A call that would no longer be admitted returns improperly, unless its network is
unknown or the rule it looks up is for the other protocol. -/
theorem proper_of_unrevoked {σ : Type} (dialLocal : Bytes → Int → Option String) (s : σ)
    {f : Forwarding σ}
    (reached : Reachable (Guarded (ForwardStep dialLocal) Forwarding.Unrevoked)
      (newForwarding s) f) :
    (∀ record ∈ f.returned, record.Proper) ∧
      ∀ dial protocol, networkProtocol dial.network = some protocol →
        (∀ r, f.registry.1.rules dial.virtualPort = some r → r.protocol = protocol) →
        ((DialRecord.mk dial (f.registry.1.lookupVirtual dial.virtualPort)
          (dialRule dialLocal dial.network
            (f.registry.1.lookupVirtual dial.virtualPort))).Proper ↔
          f.registry.1.decide dial.virtualPort dial.src = .allow) := by
  have sound : f.Sound :=
    reached.invariant Forwarding.Sound
      ⟨rfl, Controller.keyed_newController .deny, fun _ member => absurd member List.not_mem_nil⟩
      fun _ _ _ sound ⟨unrevoked, taken⟩ => sound.step unrevoked taken
  refine ⟨sound.proper, fun dial protocol known matching => ?_⟩
  exact ⟨admitted_of_proper sound.deny known matching, proper_dialRule sound.deny sound.keyed⟩

section Uninterrupted

variable (dialLocal : Bytes → Int → Option String)

/-- A nil rule is dereferenced exactly if the network is supported and the lookup found nothing. -/
theorem dialRule_eq_nilRule_iff (network : Bytes) (rule : Option PortRule) :
    dialRule dialLocal network rule = .nilRule ↔ networkProtocol network ≠ none ∧ rule = none := by
  unfold dialRule
  cases networkProtocol network with
  | none => simp
  | some protocol =>
      cases rule with
      | none => simp
      | some rule =>
          by_cases same : rule.protocol = protocol
          · simp [same]
          · simp [same]

/-- Without interruption, a call returns a connection or an error exactly under the default
policy, at a port that has a rule, or for a network that it does not know. Elsewhere it
dereferences a missing rule. -/
theorem dialVirtual_safe_iff (c : Controller) (dial : Dial) :
    dialVirtual dialLocal c dial ≠ .nilRule ↔
      c.policy = .deny ∨ (c.lookupVirtual dial.virtualPort).isSome ∨
        networkProtocol dial.network = none := by
  cases policy : c.policy with
  | deny =>
      simp only [true_or, iff_true]
      intro missing
      unfold dialVirtual at missing
      split at missing
      · next admitted =>
          obtain ⟨rule, found, _⟩ := (Controller.decide_eq_allow_iff policy _ _).mp admitted
          have looked := ((dialRule_eq_nilRule_iff dialLocal _ _).mp missing).2
          rw [Controller.lookupVirtual, found] at looked
          cases looked
      · cases missing
  | allow =>
      have admitted : c.decide dial.virtualPort dial.src = .allow := by
        rw [Controller.decide, policy]
      have dialled : dialVirtual dialLocal c dial =
          dialRule dialLocal dial.network (c.lookupVirtual dial.virtualPort) := by
        simp only [dialVirtual, admitted]
      rw [dialled, ne_eq, dialRule_eq_nilRule_iff, not_and_or, not_not, ← ne_eq,
        ← Option.isSome_iff_ne_none]
      simp only [reduceCtorEq, false_or]
      exact or_comm

end Uninterrupted

/-- A call from the same room to the TCP service at port 1. -/
def sampleDial : Dial :=
  ⟨1, ascii "tcp", ⟨[], true, []⟩⟩

/-- Under the policy that allows everything, a port without a rule is dialled all the same. -/
theorem unruledDial_nilRule :
    dialVirtual (fun _ _ => none) (newController .allow) sampleDial = .nilRule :=
  rfl

section Runs

open Controller

/-- The rule is removed between the two locked sections, or replaced by a disabled one. -/
theorem revokedDial_improper :
    (∃ f : Forwarding Unit, Reachable (ForwardStep fun _ _ => none) (newForwarding ()) f ∧
      ∃ record ∈ f.returned, record.outcome = .nilRule) ∧
    ∃ f : Forwarding Unit, Reachable (ForwardStep fun _ _ => none) (newForwarding ()) f ∧
      ∃ record ∈ f.returned, ∃ rule, record.rule = some rule ∧ rule.enabled = false ∧
        record.outcome = .dialled rule.localPort none := by
  have added : Reachable (ForwardStep fun _ _ => none) (newForwarding ()) _ :=
    (Reachable.refl _).tail (.update (.addRule (sampleRule (ascii "a") 1 10)))
  have admitted := added.tail (.accept 0 sampleDial rfl (by decide))
  refine ⟨⟨_, (admitted.tail (.update (.removeRule 1))).tail (.lookup 0 sampleDial rfl),
    _, List.mem_cons_self, by decide⟩, ?_⟩
  refine ⟨_, (admitted.tail (.update (.addRule
    { sampleRule (ascii "a") 1 10 with enabled := false }))).tail (.lookup 0 sampleDial rfl),
    _, List.mem_cons_self, { sampleRule (ascii "a") 1 10 with enabled := false }, ?_, rfl, ?_⟩
  · decide
  · decide

/-- Between its two locked sections the rule of a call is replaced by one with another local
port that admits the call as well: the call dials the new port. -/
theorem undisturbedDial_proper :
    ∃ f : Forwarding Unit,
      Reachable (Guarded (ForwardStep fun _ _ => none) Forwarding.Unrevoked) (newForwarding ()) f ∧
      f.returned.map DialRecord.outcome = [.dialled 11 none] ∧
      ∀ record ∈ f.returned, record.Proper := by
  have added : Reachable (Guarded (ForwardStep fun _ _ => none) Forwarding.Unrevoked)
      (newForwarding ()) _ :=
    (Reachable.refl _).guardedTail (.update (.addRule (sampleRule (ascii "a") 1 10))) trivial
  have admitted := added.guardedTail (.accept 0 sampleDial rfl (by decide)) trivial
  have replaced := admitted.guardedTail
    (.update (.addRule (sampleRule (ascii "b") 1 11))) trivial
  have returned := replaced.guardedTail (.lookup 0 sampleDial rfl) (by
    intro dial waits
    cases waits
    decide)
  exact ⟨_, returned, by decide, (proper_of_unrevoked (fun _ _ => none) () returned).1⟩

end Runs

end P2pMesh

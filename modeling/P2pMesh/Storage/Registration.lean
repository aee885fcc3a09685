import P2pMesh.Foundation.Transition
import P2pMesh.Storage.Nodes

/-! # Concurrent registrations

Any number of `RegisterNode` calls, each a `SELECT` and an upsert, interleaved with
`UnbindNodeID` and `DeleteNode`. The state keeps a log of what calls returned and of
the removals of rows. Keys stay bound along runs in which an ID is not bound to
another key between the two statements of a call
(`P2pMesh.Registry.keysBound_of_unraced`).
-/

namespace P2pMesh

open Foundation

/-- A call that has returned, or a row that was removed. -/
inductive RegistryEvent where
  | returned (n : Node) (outcome : RegisterOutcome)
  | removed (id : Bytes)
deriving DecidableEq

/-- The nodes, the calls between their two statements, and the log, newest first. -/
structure Registry where
  nodes : NodeTable
  pending : List Node
  log : List RegistryEvent

/-- An empty table, with no call under way. -/
def newRegistry : Registry :=
  ⟨KeyedTable.empty, [], []⟩

/-- The atomic steps: the two statements of a registration, and the removals. -/
inductive RegistryLabel where
  | select (n : Node)
  | upsert (call now : Nat)
  | unbind (id : Bytes)
  | delete (id : Bytes)

/-- The returns of calls for an ID since its row was last removed. -/
def currentReturns (id : Bytes) : List RegistryEvent → List (Node × RegisterOutcome)
  | [] => []
  | .removed other :: log => if other = id then [] else currentReturns id log
  | .returned n outcome :: log =>
      if n.id = id then (n, outcome) :: currentReturns id log else currentReturns id log

/-- One key registers, and every call with another key is a conflict. Keys are compared by their
bytes, as `RegisterNode` does it. -/
def BindsOneKey (returns : List (Node × RegisterOutcome)) : Prop :=
  ∀ first ∈ returns, first.2 = .ok →
    ∀ second ∈ returns, second.1.key ≠ first.1.key → second.2 = .conflict

namespace Registry

/-- A removal is logged if there was a row. -/
def removeRow (s : Registry) (id : Bytes) (nodes : NodeTable) : Registry :=
  match s.nodes.find id with
  | none => { s with nodes := nodes }
  | some _ => { s with nodes := nodes, log := .removed id :: s.log }

/-- The atomic statements, as they interleave. -/
def step (s : Registry) : RegistryLabel → Registry
  | .select n =>
      if s.nodes.bindsOther n then { s with log := .returned n .conflict :: s.log }
      else { s with pending := n :: s.pending }
  | .upsert call now =>
      match s.pending[call]? with
      | none => s
      | some n =>
          ⟨(s.nodes.upsertNode n now).2, s.pending.eraseIdx call,
            .returned n (s.nodes.upsertNode n now).1 :: s.log⟩
  | .unbind id => s.removeRow id (s.nodes.unbindNodeID id).2
  | .delete id => s.removeRow id (s.nodes.deleteNode id)

/-- Between removals one key is bound, and a row has the details that a successful
call with its key supplied since the last removal. -/
structure KeysBound (s : Registry) : Prop where
  oneKey : ∀ id earlier, earlier <:+ s.log → BindsOneKey (currentReturns id earlier)
  details : ∀ row ∈ s.nodes.rows, ∃ n, (n, RegisterOutcome.ok) ∈ currentReturns row.id s.log ∧
    n.key = row.key ∧ row.SameDetails n

/-- An upsert finds its ID bound to the key of its call, or unbound, its IPv6 address free and
its key not nil. -/
def Unraced (s : Registry) : RegistryLabel → Prop
  | .upsert call _ => ∀ n, s.pending[call]? = some n →
      s.nodes.bindsOther n = false ∧
        (s.nodes.find n.id = none → s.nodes.ipv6Taken n = false ∧ n.pubKey ≠ none)
  | _ => True

/-- The bound key of an ID accounts for the returns since its last removal. -/
def Accounts (id : Bytes) (row : Option Node) (log : List RegistryEvent) : Prop :=
  match row with
  | none => currentReturns id log = []
  | some row =>
      (∀ r ∈ currentReturns id log, r.1.key = row.key ∨ r.2 = .conflict) ∧
        ∃ n, (n, RegisterOutcome.ok) ∈ currentReturns id log ∧ n.key = row.key ∧
          row.SameDetails n

/-- The log accounts for the row of every ID. -/
def Accounted (s : Registry) : Prop :=
  ∀ id, Accounts id (s.nodes.find id) s.log

theorem currentReturns_returned (id : Bytes) (n : Node) (outcome : RegisterOutcome)
    (log : List RegistryEvent) :
    currentReturns id (.returned n outcome :: log) =
      if n.id = id then (n, outcome) :: currentReturns id log else currentReturns id log :=
  rfl

/-- If the log accounts for the row, one key has registered. -/
theorem Accounts.bindsOneKey {id : Bytes} {row : Option Node} {log : List RegistryEvent}
    (accounts : Accounts id row log) : BindsOneKey (currentReturns id log) := by
  intro first member succeeded second other differs
  cases row with
  | none =>
      have empty : currentReturns id log = [] := accounts
      rw [empty] at member
      cases member
  | some row =>
      obtain ⟨keys, _⟩ := accounts
      have bound : first.1.key = row.key := by
        rcases keys first member with same | conflict
        · exact same
        · rw [succeeded] at conflict
          contradiction
      rcases keys second other with same | conflict
      · exact absurd (same.trans bound.symm) differs
      · exact conflict

/-- A return for another ID changes nothing for an ID. -/
theorem Accounts.returned_other {id : Bytes} {row : Option Node} {log : List RegistryEvent}
    (accounts : Accounts id row log) {n : Node} (other : n.id ≠ id) (outcome : RegisterOutcome) :
    Accounts id row (.returned n outcome :: log) := by
  unfold Accounts
  rw [currentReturns_returned, if_neg other]
  exact accounts

/-- A return with the bound key, or of a conflict, keeps the accounts. -/
theorem Accounts.returned_self {row n : Node} {log : List RegistryEvent}
    (accounts : Accounts n.id (some row) log) {outcome : RegisterOutcome}
    (allowed : n.key = row.key ∨ outcome = .conflict) :
    Accounts n.id (some row) (.returned n outcome :: log) := by
  obtain ⟨keys, source, member, details⟩ := accounts
  unfold Accounts
  rw [currentReturns_returned, if_pos rfl]
  refine ⟨?_, source, List.mem_cons_of_mem _ member, details⟩
  intro r returned
  rcases List.mem_cons.mp returned with rfl | earlier
  · exact allowed
  · exact keys r earlier

/-- A pending call upserts its node and logs what it returns. -/
theorem step_upsert {s : Registry} {call : Nat} {n : Node} (pending : s.pending[call]? = some n)
    (now : Nat) :
    s.step (.upsert call now) =
      ⟨(s.nodes.upsertNode n now).2, s.pending.eraseIdx call,
        .returned n (s.nodes.upsertNode n now).1 :: s.log⟩ := by
  simp only [step, pending]

/-- An empty registry is accounted for. -/
theorem accounted_newRegistry : newRegistry.Accounted := by
  intro id
  rfl

namespace Accounted

variable {s : Registry}

/-- A return that leaves the rows as they are. -/
theorem returned (accounted : s.Accounted) {n row : Node} {outcome : RegisterOutcome}
    (found : s.nodes.find n.id = some row)
    (allowed : n.key = row.key ∨ outcome = .conflict) (id : Bytes) :
    Accounts id (s.nodes.find id) (.returned n outcome :: s.log) := by
  by_cases same : n.id = id
  · have accounts := accounted n.id
    rw [found] at accounts
    rw [← same, found]
    exact accounts.returned_self allowed
  · exact (accounted id).returned_other same outcome

/-- A `SELECT` keeps the registry accounted for. -/
theorem select (accounted : s.Accounted) (n : Node) : (s.step (.select n)).Accounted := by
  cases binds : s.nodes.bindsOther n with
  | false =>
      simp only [Registry.step, binds, Bool.false_eq_true, ↓reduceIte]
      exact accounted
  | true =>
      obtain ⟨row, found⟩ := NodeTable.exists_of_bindsOther binds
      simp only [Registry.step, binds, ↓reduceIte]
      exact accounted.returned found (Or.inr rfl)

/-- A successful upsert binds its key or confirms the bound one. -/
theorem upserted (accounted : s.Accounted) {n : Node} (now : Nat)
    (own : s.nodes.bindsOther n = false) (rows : ∀ id, (s.nodes.upsertNode n now).2.find id =
      if id = n.id then some (s.nodes.registered n now) else s.nodes.find id) (id : Bytes) :
    Accounts id ((s.nodes.upsertNode n now).2.find id) (.returned n .ok :: s.log) := by
  rw [rows]
  by_cases same : id = n.id
  · have key := NodeTable.key_registered s.nodes n now own
    have details := NodeTable.sameDetails_registered s.nodes n now
    have accounts := accounted n.id
    rw [if_pos same, same]
    unfold Accounts
    rw [currentReturns_returned, if_pos rfl]
    refine ⟨?_, n, List.mem_cons_self, key.symm, details⟩
    intro r returned
    rcases List.mem_cons.mp returned with rfl | earlier
    · exact Or.inl key.symm
    · -- An earlier return was for the key that the row is bound to, which is the key of this call.
      cases found : s.nodes.find n.id with
      | none =>
          rw [found] at accounts
          have empty : currentReturns n.id s.log = [] := accounts
          rw [empty] at earlier
          cases earlier
      | some row =>
          rw [found] at accounts
          have bound : row.key = n.key := by
            by_contra differs
            rw [(NodeTable.bindsOther_of_find found).mpr differs] at own
            contradiction
          rw [key, ← bound]
          exact accounts.1 r earlier
  · rw [if_neg same]
    exact (accounted id).returned_other (fun other => same other.symm) .ok

/-- An upsert without a race keeps the registry accounted for. -/
theorem upsert (accounted : s.Accounted) (call now : Nat) (unraced : s.Unraced (.upsert call now)) :
    (s.step (.upsert call now)).Accounted := by
  cases pending : s.pending[call]? with
  | none =>
      simp only [Registry.step, pending]
      exact accounted
  | some n =>
      obtain ⟨own, free⟩ := unraced n pending
      rw [step_upsert pending]
      rcases s.nodes.upsertNode_cases n now with ⟨_, _, ok, rows⟩ | ⟨refused, _, kept⟩
      · intro id
        simp only [ok]
        exact accounted.upserted now own rows id
      · -- A refusal leaves the rows as they were, so the ID was bound to this key before.
        cases found : s.nodes.find n.id with
        | none =>
            obtain ⟨notTaken, key⟩ := free found
            rcases refused with null | taken
            · exact absurd null key
            · rw [notTaken] at taken
              cases taken
        | some row =>
            have bound : n.key = row.key := by
              by_contra differs
              rw [(NodeTable.bindsOther_of_find found).mpr (Ne.symm differs)] at own
              contradiction
            intro id
            simp only [kept]
            exact accounted.returned found (Or.inl bound) id

/-- A removal keeps the registry accounted for. -/
theorem removeRow (accounted : s.Accounted) (id : Bytes) :
    (s.removeRow id (s.nodes.erase id)).Accounted := by
  intro other
  have lookup := s.nodes.find_erase id other
  unfold Registry.removeRow
  cases found : s.nodes.find id with
  | none =>
      simp only [lookup]
      split
      · rename_i same
        have accounts := accounted id
        rw [found] at accounts
        rw [same]
        exact accounts
      · exact accounted other
  | some row =>
      simp only [lookup]
      split
      · rename_i same
        exact if_pos same.symm
      · rename_i differs
        have unchanged : currentReturns other (.removed id :: s.log) = currentReturns other s.log :=
          if_neg (Ne.symm differs)
        unfold Accounts
        rw [unchanged]
        exact accounted other

/-- A statement that meets the condition keeps the accounts. -/
theorem step (accounted : s.Accounted) {label : RegistryLabel} (unraced : s.Unraced label) :
    (s.step label).Accounted := by
  cases label with
  | select n => exact accounted.select n
  | upsert call now => exact accounted.upsert call now unraced
  | delete id => exact accounted.removeRow id
  | unbind id =>
      cases found : s.nodes.find id with
      | none =>
          have nothing : s.step (.unbind id) = s := by
            simp only [Registry.step, Registry.removeRow, found, NodeTable.unbindNodeID_snd,
              ↓reduceIte]
          rw [nothing]
          exact accounted
      | some row =>
          have erased : s.step (.unbind id) = s.removeRow id (s.nodes.erase id) := by
            simp only [Registry.step, NodeTable.unbindNodeID_snd, found, reduceCtorEq, ↓reduceIte]
          rw [erased]
          exact accounted.removeRow id

end Accounted

/-- A step logs one event at most. -/
theorem log_step (s : Registry) (label : RegistryLabel) :
    (s.step label).log = s.log ∨ ∃ event, (s.step label).log = event :: s.log := by
  have removed (id : Bytes) (nodes : NodeTable) :
      (s.removeRow id nodes).log = s.log ∨
        ∃ event, (s.removeRow id nodes).log = event :: s.log := by
    unfold removeRow
    cases s.nodes.find id with
    | none => exact Or.inl rfl
    | some row => exact Or.inr ⟨_, rfl⟩
  cases label with
  | select n =>
      cases binds : s.nodes.bindsOther n with
      | false => simp [step, binds]
      | true => simp [step, binds]
  | upsert call now =>
      cases pending : s.pending[call]? with
      | none => simp [step, pending]
      | some n => simp [step, pending]
  | unbind id => exact removed id _
  | delete id => exact removed id _

/-- The upsert itself reports no conflict. -/
theorem outcome_upsertNode (nodes : NodeTable) (n : Node) (now : Nat) :
    (nodes.upsertNode n now).1 ≠ .conflict := by
  rcases nodes.upsertNode_cases n now with ⟨_, _, ok, _⟩ | ⟨_, outcome, _⟩
  · rw [ok]
    decide
  · rcases outcome with null | taken
    · rw [null]
      decide
    · rw [taken]
      decide

/-- An upsert that finds its ID bound to another key breaks the binding at once. -/
theorem Accounted.not_keysBound {s : Registry} (accounted : s.Accounted) {call : Nat} {n row : Node}
    (pending : s.pending[call]? = some n) (found : s.nodes.find n.id = some row)
    (differs : row.key ≠ n.key) (now : Nat) :
    ¬ (s.step (.upsert call now)).KeysBound := by
  intro bound
  have accounts := accounted n.id
  rw [found] at accounts
  obtain ⟨_, source, member, key, _⟩ := accounts
  have oneKey := bound.oneKey n.id _ (List.suffix_refl _)
  rw [step_upsert pending, currentReturns_returned, if_pos rfl] at oneKey
  apply outcome_upsertNode s.nodes n now
  refine oneKey (source, .ok) (List.mem_cons_of_mem _ member) rfl _ List.mem_cons_self ?_
  rw [key]
  exact Ne.symm differs

/-- Every run without a race is accounted for. -/
theorem accounted_of_unraced {s : Registry}
    (reached : Reachable (Guarded (fun before label after => before.step label = after) Unraced)
      newRegistry s) : s.Accounted := by
  refine reached.invariant Accounted accounted_newRegistry ?_
  rintro before label after accounted ⟨unraced, rfl⟩
  exact accounted.step unraced

/-- At every time of a run without a race one key has registered for an ID since its last removal.
-/
theorem bindsOneKey_of_unraced {s : Registry}
    (reached : Reachable (Guarded (fun before label after => before.step label = after) Unraced)
      newRegistry s) (id : Bytes) (earlier : List RegistryEvent) (suffix : earlier <:+ s.log) :
    BindsOneKey (currentReturns id earlier) := by
  obtain ⟨labels, run⟩ := reached
  induction run with
  | nil =>
      rw [List.suffix_nil.mp suffix]
      intro first member
      cases member
  | @snoc middle _ _ label run taken ih =>
      have accounted := accounted_of_unraced ⟨_, run.snoc taken⟩
      obtain ⟨unraced, rfl⟩ := taken
      rcases log_step middle label with same | ⟨event, added⟩
      · rw [same] at suffix
        exact ih suffix
      · rw [added] at suffix
        rcases List.suffix_cons_iff.mp suffix with whole | older
        · rw [whole, ← added]
          exact (accounted id).bindsOneKey
        · exact ih older

/-- In every run whose upserts meet the condition, keys stay bound in every state
reached; there an upsert against a binding to another key breaks it. -/
theorem keysBound_of_unraced {s : Registry}
    (reached : Reachable (Guarded (fun before label after => before.step label = after) Unraced)
      newRegistry s) :
    s.KeysBound ∧
      ∀ call now n row, s.pending[call]? = some n → s.nodes.find n.id = some row →
        row.key ≠ n.key → ¬ (s.step (.upsert call now)).KeysBound := by
  have accounted := accounted_of_unraced reached
  refine ⟨⟨bindsOneKey_of_unraced reached, ?_⟩, ?_⟩
  · intro row member
    have accounts := accounted row.id
    rw [(s.nodes.find_eq_some_iff row.id row).mpr ⟨member, rfl⟩] at accounts
    exact accounts.2
  · intro call now n row pending found differs
    exact accounted.not_keysBound pending found differs now

section Runs

open NodeTable

/-- Two first registrations make their `SELECT` before either upserts: both succeed,
and the row of the first key holds the address of the second. -/
theorem racingRegistrations_both_bind :
    ∃ s, Reachable (fun before label after => Registry.step before label = after) newRegistry s ∧
      s.log = [.returned (sampleNode (ascii "n") [2] [0xfe]) .ok,
        .returned (sampleNode (ascii "n") [1] [0xfd]) .ok] ∧
      s.nodes.rows.map (fun row => (row.pubKey, row.ipv6Addr)) = [(some [1], [0xfe])] ∧
      ¬ s.KeysBound := by
  refine ⟨_, Reachable.foldl step newRegistry
    [.select (sampleNode (ascii "n") [2] [0xfe]), .select (sampleNode (ascii "n") [1] [0xfd]),
      .upsert 0 5, .upsert 0 6], by decide, by decide, fun bound => ?_⟩
  have oneKey := bound.oneKey (ascii "n") _ (List.suffix_refl _)
    (sampleNode (ascii "n") [1] [0xfd], .ok) (by decide) rfl
    (sampleNode (ascii "n") [2] [0xfe], .ok) (by decide) (by decide)
  contradiction

/-- The registrations of two nodes are between their statements at the same time, and another key
tries the ID of the first after it is bound: the two are registered, and the third is a
conflict. -/
theorem interleavedRegistrations_bind :
    ∃ s, Reachable
        (Guarded (fun before label after => Registry.step before label = after) Unraced)
        newRegistry s ∧
      s.log = [.returned (sampleNode (ascii "m") [2] [0xfe]) .ok,
        .returned (sampleNode (ascii "n") [3] [0xff]) .conflict,
        .returned (sampleNode (ascii "n") [1] [0xfd]) .ok] ∧ s.KeysBound := by
  have first : Reachable
      (Guarded (fun before label after => Registry.step before label = after) Unraced)
      newRegistry (newRegistry.step (.select (sampleNode (ascii "n") [1] [0xfd]))) :=
    (Reachable.refl newRegistry).guardedTail rfl (by exact trivial)
  have second := first.guardedTail
    (show Registry.step _ (.select (sampleNode (ascii "m") [2] [0xfe])) = _ from rfl)
    (by exact trivial)
  have third := second.guardedTail (show Registry.step _ (.upsert 1 5) = _ from rfl) (by
    intro n pending
    cases pending
    exact ⟨by decide, fun _ => by decide⟩)
  have fourth := third.guardedTail
    (show Registry.step _ (.select (sampleNode (ascii "n") [3] [0xff])) = _ from rfl)
    (by exact trivial)
  have fifth := fourth.guardedTail (show Registry.step _ (.upsert 0 6) = _ from rfl) (by
    intro n pending
    cases pending
    exact ⟨by decide, fun _ => by decide⟩)
  exact ⟨_, fifth, by decide, (keysBound_of_unraced fifth).1⟩

end Runs

end Registry

end P2pMesh

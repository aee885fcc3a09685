import P2pMesh.Foundation.BigEndian
import P2pMesh.Foundation.KeyedTable
import Mathlib.Data.List.Induction

/-! # The tunnels of the peers

`Manager` of `internal/tunnel/tunnel.go`. A tunnel is known by a number that stands for its
pointer, and a call returns the tunnels that it closes. A tunnel that is no longer registered has
been closed. A tunnel that is registered has not been closed as long as no call closes a tunnel
that stays registered, or registers one that is closed
(`P2pMesh.TunnelManager.soundThroughout_iff`).
-/

namespace P2pMesh

open Foundation

/-- `Manager`: the tunnels by the IDs of their peers. -/
structure TunnelManager where
  tunnels : KeyedTable (Prod.fst : Bytes × Nat → Bytes)

namespace TunnelManager

/-- `NewManager`. -/
def newManager : TunnelManager :=
  ⟨.empty⟩

/-- `Get`. -/
def get (m : TunnelManager) (nodeID : Bytes) : Option Nat :=
  (m.tunnels.find nodeID).map Prod.snd

/-- `Add`; the tunnel that it replaces is closed first. -/
def add (m : TunnelManager) (nodeID : Bytes) (t : Nat) : List Nat × TunnelManager :=
  ((m.get nodeID).toList,
    ⟨m.tunnels.upsert (fun old new => (old.1, new.2)) (fun _ _ => rfl) (nodeID, t)⟩)

/-- `Remove`. -/
def remove (m : TunnelManager) (nodeID : Bytes) : List Nat × TunnelManager :=
  match m.get nodeID with
  | some t => ([t], ⟨m.tunnels.erase nodeID⟩)
  | none => ([], m)

/-- `CloseAll`. -/
def closeAll (m : TunnelManager) : List Nat × TunnelManager :=
  (m.tunnels.rows.map Prod.snd, newManager)

/-- The calls that change the tunnels. -/
inductive Call where
  | add (nodeID : Bytes) (t : Nat)
  | remove (nodeID : Bytes)
  | closeAll
deriving DecidableEq

/-- The tunnels that a call closes, and the manager after it. -/
def perform (m : TunnelManager) : Call → List Nat × TunnelManager
  | .add nodeID t => m.add nodeID t
  | .remove nodeID => m.remove nodeID
  | .closeAll => m.closeAll

/-- A manager with the tunnels that it has closed. -/
structure Managed where
  manager : TunnelManager
  closed : List Nat

/-- The manager after a call, with all tunnels closed so far. -/
def Managed.perform (s : Managed) (call : Call) : Managed :=
  ⟨(s.manager.perform call).2, s.closed ++ (s.manager.perform call).1⟩

/-- After a sequence of calls on a new manager. -/
def after (calls : List Call) : Managed :=
  calls.foldl Managed.perform ⟨newManager, []⟩

/-- The tunnel is registered under some peer. -/
def Registered (m : TunnelManager) (t : Nat) : Prop :=
  ∃ nodeID, m.get nodeID = some t

/-- No tunnel that is registered has been closed. -/
def Managed.Live (s : Managed) : Prop :=
  ∀ t, s.manager.Registered t → t ∉ s.closed

/-- The manager holds live tunnels only, and every tunnel that was registered and no longer is
has been closed. -/
structure Sound (calls : List Call) : Prop where
  live : (after calls).Live
  freed : ∀ nodeID t, .add nodeID t ∈ calls → ¬ (after calls).manager.Registered t →
    t ∈ (after calls).closed

/-- The tunnel of the peer, if it has one, is registered under no other peer. -/
def Sole (m : TunnelManager) (nodeID : Bytes) : Prop :=
  ∀ other t, m.get nodeID = some t → m.get other = some t → other = nodeID

/-- The call adds a tunnel that has not been closed and is not the one it replaces, and closes
no tunnel that stays registered. -/
def Managed.Allows (s : Managed) : Call → Prop
  | .add nodeID t => t ∉ s.closed ∧ s.manager.get nodeID ≠ some t ∧ s.manager.Sole nodeID
  | .remove nodeID => s.manager.Sole nodeID
  | .closeAll => True

/-! ### One call -/

/-- `Get` finds the rows of the map. -/
theorem get_eq_some_iff (m : TunnelManager) (nodeID : Bytes) (t : Nat) :
    m.get nodeID = some t ↔ (nodeID, t) ∈ m.tunnels.rows := by
  simp only [get, Option.map_eq_some_iff, KeyedTable.find_eq_some_iff]
  constructor
  · rintro ⟨row, ⟨member, rfl⟩, rfl⟩
    exact member
  · intro member
    exact ⟨(nodeID, t), ⟨member, rfl⟩, rfl⟩

/-- `Add` sets the tunnel of its node and no other. -/
theorem get_add (m : TunnelManager) (nodeID other : Bytes) (t : Nat) :
    (m.add nodeID t).2.get other = if other = nodeID then some t else m.get other := by
  simp only [add, get, KeyedTable.find_upsert]
  split
  · unfold KeyedTable.merged
    split <;> rfl
  · rfl

/-- What `Remove` does with or without a tunnel. -/
theorem remove_eq (m : TunnelManager) (nodeID : Bytes) :
    (m.remove nodeID).1 = (m.get nodeID).toList ∧
      ∀ other, (m.remove nodeID).2.get other = if other = nodeID then none else m.get other := by
  cases found : m.get nodeID with
  | none =>
      have unchanged : m.remove nodeID = ([], m) := by simp only [remove, found]
      rw [unchanged]
      refine ⟨rfl, fun other => ?_⟩
      split
      next same => exact same ▸ found
      next => rfl
  | some t =>
      have erased : m.remove nodeID = ([t], ⟨m.tunnels.erase nodeID⟩) := by
        simp only [remove, found]
      rw [erased]
      refine ⟨rfl, fun other => ?_⟩
      simp only [get, KeyedTable.find_erase]
      split <;> rfl

/-- `CloseAll` closes the registered tunnels. -/
theorem mem_closeAll_iff (m : TunnelManager) (t : Nat) : t ∈ m.closeAll.1 ↔ m.Registered t := by
  simp only [closeAll, List.mem_map, Registered, get_eq_some_iff]
  constructor
  · rintro ⟨⟨nodeID, _⟩, member, rfl⟩
    exact ⟨nodeID, member⟩
  · rintro ⟨nodeID, member⟩
    exact ⟨(nodeID, t), member, rfl⟩

/-- A tunnel that is registered stays so or is closed. -/
theorem registered_or_closed {m : TunnelManager} {t : Nat} (registered : m.Registered t)
    (call : Call) : (m.perform call).2.Registered t ∨ t ∈ (m.perform call).1 := by
  obtain ⟨holder, held⟩ := registered
  cases call with
  | add nodeID u =>
      by_cases same : holder = nodeID
      · exact .inr (Option.mem_toList.mpr (same ▸ held))
      · exact .inl ⟨holder, by rw [perform, get_add, if_neg same, held]⟩
  | remove nodeID =>
      obtain ⟨closes, left⟩ := m.remove_eq nodeID
      by_cases same : holder = nodeID
      · exact .inr (by rw [perform, closes, ← same, held]; exact List.mem_singleton_self t)
      · exact .inl ⟨holder, by rw [perform, left, if_neg same, held]⟩
  | closeAll => exact .inr ((m.mem_closeAll_iff t).mpr ⟨holder, held⟩)

/-- Closing the tunnel of a peer closes none of the other peers exactly when it is registered
under no other. -/
theorem sole_iff {s : Managed} (live : s.Live) (nodeID : Bytes) :
    s.manager.Sole nodeID ↔ ∀ other t, other ≠ nodeID → s.manager.get other = some t →
      t ∉ s.closed ++ (s.manager.get nodeID).toList := by
  constructor
  · intro sole other t differs held closes
    rcases List.mem_append.mp closes with before | now
    · exact live t ⟨other, held⟩ before
    · exact differs (sole other t (Option.mem_toList.mp now) held)
  · intro apart other t own held
    by_contra differs
    exact apart other t differs held (List.mem_append_right _ (Option.mem_toList.mpr own))

/-- A call leaves a manager of live tunnels so exactly when it is allowed. -/
theorem live_perform_iff {s : Managed} (live : s.Live) (call : Call) :
    (s.perform call).Live ↔ s.Allows call := by
  cases call with
  | add nodeID t =>
      -- The map after `Add`; the tunnel that was replaced is closed.
      have left (other : Bytes) := s.manager.get_add nodeID other t
      rw [Managed.Allows, sole_iff live]
      constructor
      · intro lives
        have fresh := lives t ⟨nodeID, (left nodeID).trans (if_pos rfl)⟩
        refine ⟨fun closed => fresh (List.mem_append_left _ closed), fun same => ?_, ?_⟩
        · exact fresh (List.mem_append_right _ (Option.mem_toList.mpr same))
        · intro other u differs held
          exact lives u ⟨other, (left other).trans ((if_neg differs).trans held)⟩
      · rintro ⟨unclosed, replaced, apart⟩ u ⟨holder, held⟩
        rw [Managed.perform, perform, left] at held
        by_cases same : holder = nodeID
        · rw [if_pos same] at held
          cases held
          intro closes
          rcases List.mem_append.mp closes with before | now
          · exact unclosed before
          · exact replaced (Option.mem_toList.mp now)
        · rw [if_neg same] at held
          exact apart holder u same held
  | remove nodeID =>
      obtain ⟨closes, left⟩ := s.manager.remove_eq nodeID
      rw [Managed.Allows, sole_iff live]
      constructor
      · intro lives other u differs held
        have kept := lives u ⟨other, (left other).trans ((if_neg differs).trans held)⟩
        rwa [Managed.perform, perform, closes] at kept
      · rintro apart u ⟨holder, held⟩
        rw [Managed.perform, perform, left] at held
        rw [Managed.perform, perform, closes]
        by_cases same : holder = nodeID
        · rw [if_pos same] at held
          cases held
        · rw [if_neg same] at held
          exact apart holder u same held
  | closeAll =>
      refine iff_of_true ?_ trivial
      rintro u ⟨holder, held⟩
      cases held

/-! ### Whole runs -/

/-- The state after one more call. -/
theorem after_append (calls : List Call) (call : Call) :
    after (calls ++ [call]) = (after calls).perform call := by
  rw [after, List.foldl_append]
  rfl

/-- A new manager has no tunnel that was closed. -/
theorem live_nil : (after []).Live := by
  rintro t ⟨nodeID, held⟩
  cases held

/-- A tunnel that was added is registered or has been closed. -/
theorem registered_or_closed_after {calls : List Call} {nodeID : Bytes} {t : Nat}
    (added : .add nodeID t ∈ calls) :
    (after calls).manager.Registered t ∨ t ∈ (after calls).closed := by
  induction calls using List.reverseRecOn with
  | nil => cases added
  | append_singleton calls call ih =>
      rw [after_append]
      rcases List.mem_append.mp added with before | last
      · rcases ih before with registered | closed
        · exact (registered_or_closed registered call).imp_right (List.mem_append_right _)
        · exact .inr (List.mem_append_left _ closed)
      · cases List.mem_singleton.mp last
        exact .inl ⟨nodeID, ((after calls).manager.get_add nodeID nodeID t).trans (if_pos rfl)⟩

/-- At every point of a sequence of calls the manager holds live tunnels only, and has closed
those that it no longer holds, exactly when every call is allowed where it is made. -/
theorem soundThroughout_iff (calls : List Call) :
    (∀ earlier later, calls = earlier ++ later → Sound earlier) ↔
      ∀ earlier call later, calls = earlier ++ call :: later → (after earlier).Allows call := by
  constructor
  · intro sound earlier call later split
    have before := (sound earlier (call :: later) split).live
    have step := (sound (earlier ++ [call]) later (by rw [split, List.append_assoc]; rfl)).live
    rw [after_append] at step
    exact (live_perform_iff before call).mp step
  · intro allowed earlier later split
    refine ⟨?_, fun nodeID t added => (registered_or_closed_after added).resolve_left⟩
    induction earlier using List.reverseRecOn generalizing later with
    | nil => exact live_nil
    | append_singleton earlier call ih =>
        rw [List.append_assoc, List.singleton_append] at split
        rw [after_append]
        exact (live_perform_iff (ih _ split) call).mpr (allowed earlier call later split)

/-- The tunnel of a peer is added once more. -/
def addedTwice : List Call :=
  [.add (ascii "peer-A") 1, .add (ascii "peer-A") 1]

/-- The tunnel is closed, and it stays registered. -/
theorem addedTwice_closed :
    (after addedTwice).manager.get (ascii "peer-A") = some 1 ∧ 1 ∈ (after addedTwice).closed ∧
      ¬ Sound addedTwice := by
  have held : (after addedTwice).manager.get (ascii "peer-A") = some 1 := by decide
  have closed : 1 ∈ (after addedTwice).closed := by decide
  exact ⟨held, closed, fun sound => sound.live 1 ⟨_, held⟩ closed⟩

end TunnelManager

end P2pMesh

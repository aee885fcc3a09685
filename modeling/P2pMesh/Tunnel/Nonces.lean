import P2pMesh.Tunnel.Basic
import Mathlib.Logic.Function.Basic
import Mathlib.Data.List.Range

/-! # Nonces of a tunnel pair

Both ends of a connection seal under one AEAD and count their own `Write` calls
from zero, so the first packet of each end is sealed under the same nonce. The
nonces of an interleaving are distinct exactly when one of the ends seals nothing
(`P2pMesh.nodup_sealNonces_iff`).
-/

namespace P2pMesh

open Foundation

/-- The ends of a connection. -/
inductive Side where
  | left
  | right
deriving DecidableEq, Repr

/-- One `Write` call at one end; `connErr` is the error of the connection's write. -/
structure WriteCall where
  side : Side
  payload : Bytes
  connErr : Option String

/-- The tunnels at the two ends of a connection. -/
abbrev Pair := Side → Tunnel

/-- Tunnels built by `NewTunnel` over the two ends of one connection. -/
def newPair (aead : AEAD) (transport : Side → Transport) (mtu : Side → Int64) : Pair :=
  fun side => newTunnel aead (transport side) (mtu side)

namespace Pair

/-- The pair after one `Write` call. -/
def afterWrite (pair : Pair) (call : WriteCall) : Pair :=
  Function.update pair call.side ((pair call.side).write call.payload call.connErr).2

/-- The nonces of the `Seal` calls that an interleaving of `Write` calls makes. -/
def sealNonces : Pair → List WriteCall → List Bytes
  | _, [] => []
  | pair, call :: calls =>
      ((pair call.side).write call.payload call.connErr).1.sealed.toList ++
        sealNonces (pair.afterWrite call) calls

end Pair

/-- A packet that fits the MTU is sealed under the next number of the end's counter. -/
theorem Tunnel.write_of_fits (t : Tunnel) (isOpen : t.closed = false) (p : Bytes)
    (connErr : Option String) (fits : p.length ≤ t.mtu) :
    (t.write p connErr).1.sealed = some (nonceOf (t.sendSeq + 1)) ∧
      (t.write p connErr).2 = { t with sendSeq := t.sendSeq + 1 } := by
  have notLong : ¬ t.mtu < p.length := Nat.not_lt.mpr fits
  cases connErr with
  | none => simp only [write, isOpen, Bool.false_eq_true, ↓reduceIte, notLong, and_self]
  | some cause => simp only [write, isOpen, Bool.false_eq_true, ↓reduceIte, notLong, and_self]

/-- A packet over the MTU is refused before the counter moves. -/
theorem Tunnel.write_of_long (t : Tunnel) (isOpen : t.closed = false) (p : Bytes)
    (connErr : Option String) (long : t.mtu < p.length) :
    (t.write p connErr).1.sealed = none ∧ (t.write p connErr).2 = t := by
  simp only [write, isOpen, Bool.false_eq_true, ↓reduceIte, long, and_self]

namespace Pair

variable (pair : Pair)

/-- A packet above the MTU changes nothing. -/
private theorem afterWrite_of_long (opened : ∀ side, (pair side).closed = false) (call : WriteCall)
    (long : (pair call.side).mtu < call.payload.length) : pair.afterWrite call = pair := by
  rw [afterWrite, ((pair call.side).write_of_long (opened _) _ _ long).2, Function.update_eq_self]

/-- A packet within the MTU takes the next number of its end. -/
private theorem afterWrite_self (opened : ∀ side, (pair side).closed = false) (call : WriteCall)
    (fits : call.payload.length ≤ (pair call.side).mtu) :
    pair.afterWrite call call.side =
      { pair call.side with sendSeq := (pair call.side).sendSeq + 1 } := by
  rw [afterWrite, Function.update_self]
  exact ((pair call.side).write_of_fits (opened _) _ _ fits).2

/-- A `Write` at one end leaves the other as it is. -/
private theorem afterWrite_other (call : WriteCall) {side : Side} (other : side ≠ call.side) :
    pair.afterWrite call side = pair side :=
  Function.update_of_ne other _ _

/-- A `Write` call closes neither end and changes no MTU. -/
theorem afterWrite_frame (opened : ∀ side, (pair side).closed = false) (call : WriteCall)
    (side : Side) :
    (pair.afterWrite call side).closed = false ∧
      (pair.afterWrite call side).mtu = (pair side).mtu := by
  by_cases long : (pair call.side).mtu < call.payload.length
  · rw [afterWrite_of_long pair opened call long]
    exact ⟨opened side, rfl⟩
  · by_cases same : side = call.side
    · subst same
      rw [afterWrite_self pair opened call (Nat.not_lt.mp long)]
      exact ⟨opened _, rfl⟩
    · rw [afterWrite_other pair call same]
      exact ⟨opened side, rfl⟩

/-- The end of a connection seals something during an interleaving. -/
def Seals (pair : Pair) (calls : List WriteCall) (side : Side) : Prop :=
  ∃ call ∈ calls, call.side = side ∧ call.payload.length ≤ (pair side).mtu

/-- Whether an end seals something does not depend on the writes before. -/
theorem seals_afterWrite_iff (opened : ∀ side, (pair side).closed = false) (call : WriteCall)
    (calls : List WriteCall) (side : Side) :
    Seals (pair.afterWrite call) calls side ↔ Seals pair calls side := by
  simp only [Seals, (afterWrite_frame pair opened call side).2]

/-- The first packet an end seals uses the successor of its counter. -/
theorem next_mem_sealNonces (opened : ∀ side, (pair side).closed = false) (calls : List WriteCall)
    (side : Side) (sealing : Seals pair calls side) :
    nonceOf ((pair side).sendSeq + 1) ∈ pair.sealNonces calls := by
  induction calls generalizing pair with
  | nil =>
      obtain ⟨_, member, _⟩ := sealing
      exact (List.not_mem_nil member).elim
  | cons call calls ih =>
      rw [sealNonces]
      by_cases here : call.side = side ∧ call.payload.length ≤ (pair side).mtu
      · obtain ⟨rfl, fits⟩ := here
        rw [((pair call.side).write_of_fits (opened _) _ _ fits).1]
        exact List.mem_append_left _ (List.mem_singleton_self _)
      · -- The counter of the end is untouched, so the first sealing call is a later one.
        have later : Seals pair calls side := by
          obtain ⟨first, member, accepted⟩ := sealing
          rcases List.mem_cons.mp member with rfl | member
          · exact (here accepted).elim
          · exact ⟨first, member, accepted⟩
        have kept : pair.afterWrite call side = pair side := by
          by_cases same : side = call.side
          · subst same
            have long : (pair call.side).mtu < call.payload.length :=
              Nat.not_le.mp fun fits => here ⟨rfl, fits⟩
            rw [afterWrite_of_long pair opened call long]
          · exact afterWrite_other pair call same
        have found := ih (pair.afterWrite call)
          (fun other => (afterWrite_frame pair opened call other).1)
          ((seals_afterWrite_iff pair opened call calls side).mpr later)
        rw [kept] at found
        exact List.mem_append_right _ found

/-- Two ends at the same count that both seal something repeat a nonce. -/
theorem not_nodup_sealNonces (opened : ∀ side, (pair side).closed = false)
    (level : (pair .left).sendSeq = (pair .right).sendSeq) (calls : List WriteCall)
    (sealing : ∀ side, Seals pair calls side) : ¬ (pair.sealNonces calls).Nodup := by
  induction calls generalizing pair with
  | nil =>
      obtain ⟨_, member, _⟩ := sealing .left
      exact (List.not_mem_nil member).elim
  | cons call calls ih =>
      by_cases long : (pair call.side).mtu < call.payload.length
      · have later : ∀ side, Seals pair calls side := by
          intro side
          obtain ⟨first, member, sameSide, fits⟩ := sealing side
          rcases List.mem_cons.mp member with rfl | member
          · subst sameSide
            omega
          · exact ⟨first, member, sameSide, fits⟩
        rw [sealNonces, ((pair call.side).write_of_long (opened _) _ _ long).1,
          afterWrite_of_long pair opened call long]
        exact ih pair opened level later
      · have fits := Nat.not_lt.mp long
        obtain ⟨other, different⟩ : ∃ other : Side, other ≠ call.side := by
          cases call.side with
          | left => exact ⟨.right, by decide⟩
          | right => exact ⟨.left, by decide⟩
        have sameCount : (pair other).sendSeq = (pair call.side).sendSeq := by
          cases other <;> cases side : call.side <;>
            simp only [side, level, ne_eq, not_true_eq_false] at different ⊢
        have later : Seals pair calls other := by
          obtain ⟨first, member, sameSide, accepted⟩ := sealing other
          rcases List.mem_cons.mp member with rfl | member
          · exact (different sameSide.symm).elim
          · exact ⟨first, member, sameSide, accepted⟩
        have repeated := next_mem_sealNonces (pair.afterWrite call)
          (fun side => (afterWrite_frame pair opened call side).1) calls other
          ((seals_afterWrite_iff pair opened call calls other).mpr later)
        rw [afterWrite_other pair call different, sameCount] at repeated
        rw [sealNonces, ((pair call.side).write_of_fits (opened _) _ _ fits).1]
        intro distinct
        exact (List.nodup_cons.mp distinct).1 repeated

/-- When only one end seals, the nonces count up from its counter. -/
theorem sealNonces_eq_range (opened : ∀ side, (pair side).closed = false) (calls : List WriteCall)
    (active : Side) (quiet : ∀ side, side ≠ active → ¬ Seals pair calls side) :
    ∃ count, count ≤ (calls.filter fun call => call.side = active).length ∧
      pair.sealNonces calls = (List.range count).map fun index =>
        nonceOf ((pair active).sendSeq + 1 + UInt64.ofNat index) := by
  induction calls generalizing pair with
  | nil => exact ⟨0, Nat.le_refl 0, rfl⟩
  | cons call calls ih =>
      have quietLater : ∀ side, side ≠ active → ¬ Seals pair calls side := by
        rintro side different ⟨first, member, accepted⟩
        exact quiet side different ⟨first, List.mem_cons_of_mem _ member, accepted⟩
      obtain ⟨count, bound, nonces⟩ := ih (pair.afterWrite call)
        (fun side => (afterWrite_frame pair opened call side).1)
        (fun side different sealing => quietLater side different
          ((seals_afterWrite_iff pair opened call calls side).mp sealing))
      by_cases long : (pair call.side).mtu < call.payload.length
      · refine ⟨count, Nat.le_trans bound ?_, ?_⟩
        · exact ((List.sublist_cons_self call calls).filter _).length_le
        · rw [sealNonces, ((pair call.side).write_of_long (opened _) _ _ long).1, nonces,
            afterWrite_of_long pair opened call long]
          rfl
      · have fits := Nat.not_lt.mp long
        -- What is sealed is sealed by the active end, under its next number.
        have atActive : call.side = active := by
          by_contra different
          exact quiet call.side different ⟨call, List.mem_cons_self, rfl, fits⟩
        subst atActive
        refine ⟨count + 1, ?_, ?_⟩
        · simp only [List.filter_cons, decide_true, ↓reduceIte, List.length_cons]
          omega
        · have shift : ∀ index : Nat, (pair call.side).sendSeq + 1 + 1 + UInt64.ofNat index =
              (pair call.side).sendSeq + 1 + UInt64.ofNat (index + 1) := by
            intro index
            rw [UInt64.ofNat_add, UInt64.add_assoc _ 1, UInt64.add_comm 1]
            rfl
          have first : (pair call.side).sendSeq + 1 =
              (pair call.side).sendSeq + 1 + UInt64.ofNat 0 :=
            (UInt64.add_zero _).symm
          rw [sealNonces, ((pair call.side).write_of_fits (opened _) _ _ fits).1, nonces,
            afterWrite_self pair opened call fits, List.range_succ_eq_map, List.map_cons,
            List.map_map, ← first]
          simp only [shift]
          rfl

end Pair

/-- The `Seal` calls of an interleaving of `Write` calls use distinct nonces
exactly when one of the two ends makes no call whose packet fits its MTU. -/
theorem nodup_sealNonces_iff (aead : AEAD) (transport : Side → Transport) (mtu : Side → Int64)
    (calls : List WriteCall)
    (few : ∀ side, (calls.filter fun call => call.side = side).length < 2 ^ 64) :
    ((newPair aead transport mtu).sealNonces calls).Nodup ↔
      ∃ side, ∀ call ∈ calls, call.side = side →
        (newPair aead transport mtu side).mtu < call.payload.length := by
  have opened : ∀ side, (newPair aead transport mtu side).closed = false := fun _ => rfl
  have quiet_iff : ∀ side, (∀ call ∈ calls, call.side = side →
        (newPair aead transport mtu side).mtu < call.payload.length) ↔
      ¬ Pair.Seals (newPair aead transport mtu) calls side := by
    intro side
    simp only [Pair.Seals, not_exists, not_and, Nat.not_le]
  simp only [quiet_iff]
  constructor
  · intro distinct
    by_contra both
    refine Pair.not_nodup_sealNonces _ opened rfl calls (fun side => ?_) distinct
    by_contra quiet
    exact both ⟨side, quiet⟩
  · rintro ⟨silent, quiet⟩
    -- Only the other end seals, so the nonces are those of one counter that does not wrap around.
    obtain ⟨active, complement⟩ : ∃ active : Side, ∀ side, side ≠ active → side = silent := by
      cases silent with
      | left => exact ⟨.right, fun side different => by cases side <;> trivial⟩
      | right => exact ⟨.left, fun side different => by cases side <;> trivial⟩
    obtain ⟨count, bound, nonces⟩ := Pair.sealNonces_eq_range _ opened calls active
      (fun side different => by rw [complement side different]; exact quiet)
    rw [nonces]
    refine List.Nodup.map_on ?_ List.nodup_range
    intro first firstMem second secondMem same
    have firstRange := List.mem_range.mp firstMem
    have secondRange := List.mem_range.mp secondMem
    have small := few active
    have words : UInt64.ofNat first = UInt64.ofNat second :=
      (UInt64.add_right_inj _).mp (nonceOf_injective same)
    have values := congrArg UInt64.toNat words
    rw [UInt64.toNat_ofNat', UInt64.toNat_ofNat', Nat.mod_eq_of_lt (by omega),
      Nat.mod_eq_of_lt (by omega)] at values
    exact values

/-- One packet from each end. -/
def crossingWrites : List WriteCall :=
  [⟨.left, [], none⟩, ⟨.right, [], none⟩]

/-- Both ends seal their first packet with the same nonce. -/
theorem crossingWrites_reuse_nonce :
    (∀ side, (crossingWrites.filter fun call => call.side = side).length < 2 ^ 64) ∧
      ¬ ((newPair nonceTagAEAD (fun _ => .udp) fun _ => 1280).sealNonces crossingWrites).Nodup := by
  refine ⟨fun side => ?_, by decide⟩
  cases side <;> decide

/-- Two packets from one end are sealed under distinct nonces. -/
theorem nodup_sealNonces_left :
    ((newPair nonceTagAEAD (fun _ => .udp) fun _ => 1280).sealNonces
      [⟨.left, [1], none⟩, ⟨.left, [2], none⟩]).Nodup := by
  refine (nodup_sealNonces_iff nonceTagAEAD (fun _ => .udp) (fun _ => 1280) _ ?_).mpr
    ⟨.right, by decide⟩
  intro side
  cases side <;> decide

end P2pMesh

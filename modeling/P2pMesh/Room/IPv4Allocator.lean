import P2pMesh.Types.IPv4
import P2pMesh.Types.NodeID
import Mathlib.Data.Fintype.Card
import Mathlib.Order.Interval.Finset.Nat

/-! # Verified addresses

`IPv4Allocator.VerifyNodeIPv4` of `internal/room/ipv4_alloc.go`. An address is accepted for
every node it is derived for. A room has 254 addresses and more node IDs than that, so in
every room some address is accepted for two nodes (`P2pMesh.exists_shared_address`), whatever
the hash function.
-/

namespace P2pMesh

open Foundation

/-- `IPv4Allocator.VerifyNodeIPv4`. -/
def verifyNodeIPv4 (sha256 : Bytes → Sha256.Digest) (m : CaseMap) (nodeID : Bytes)
    (roomKey : RoomKey) (claimed : Bytes) : Bool :=
  (deriveNodeIPv4 sha256 m nodeID roomKey).text == claimed

/-- Node IDs for the numbers below 255. -/
def numberedID (i : Fin 255) : Bytes :=
  List.replicate 14 97 ++ [UInt8.ofNat (97 + i.val / 16), UInt8.ofNat (97 + i.val % 16)]

theorem isIDByte_of_mem_numberedID (i : Fin 255) :
    ∀ byte ∈ numberedID i, isIDByte byte = true := by
  have all : ∀ i : Fin 255, (numberedID i).all isIDByte = true := by decide +kernel
  exact List.all_eq_true.mp (all i)

/-- The numbered IDs are valid node IDs. -/
theorem validate_numberedID (i : Fin 255) : validateNodeID (numberedID i) = .ok () :=
  validateNodeID_of_isIDByte (isIDByte_of_mem_numberedID i)
    (Nat.le_refl 16) (by decide : 16 ≤ maxIDLen)

/-- The numbered IDs are in lower case. -/
theorem toLower_numberedID (m : CaseMap) (i : Fin 255) :
    m.toLower (numberedID i) = numberedID i :=
  m.toLower_eq_self fun byte member =>
    lower_of_isIDByte (isIDByte_of_mem_numberedID i byte member)

/-- The 255 numbered IDs are distinct. -/
theorem numberedID_injective : Function.Injective numberedID := by
  -- The number is read back from the last two letters.
  have read : ∀ i : Fin 255, ((numberedID i).drop 14).map UInt8.toNat =
      [97 + i.val / 16, 97 + i.val % 16] := by decide +kernel
  intro i j same
  have digits := read i
  rw [same, read j, List.cons.injEq, List.cons.injEq] at digits
  omega

/-- In every room an address is accepted for two valid node IDs that differ in more than
case. -/
theorem exists_shared_address (sha256 : Bytes → Sha256.Digest) (m : CaseMap) (roomKey : RoomKey) :
    ∃ left right claimed, validateNodeID left = .ok () ∧ validateNodeID right = .ok () ∧
      m.toLower left ≠ m.toLower right ∧ verifyNodeIPv4 sha256 m left roomKey claimed = true ∧
      verifyNodeIPv4 sha256 m right roomKey claimed = true := by
  -- 255 IDs share the 254 last octets of the room's addresses.
  have few : (Finset.Icc 1 254).card < (Finset.univ : Finset (Fin 255)).card := by
    rw [Nat.card_Icc, Finset.card_univ, Fintype.card_fin]
    decide
  have range (i : Fin 255) :
      (hostByte sha256 m (numberedID i) roomKey).toNat ∈ Finset.Icc 1 254 :=
    Finset.mem_Icc.mpr (toNat_hostByte (numberedID i))
  obtain ⟨i, _, j, _, differ, same⟩ :=
    Finset.exists_ne_map_eq_of_card_lt_of_maps_to few fun i _ => range i
  have address := deriveNodeIPv4_eq_iff.mpr (UInt8.toNat_inj.mp same)
  refine ⟨numberedID i, numberedID j, (deriveNodeIPv4 sha256 m (numberedID i) roomKey).text,
    validate_numberedID i, validate_numberedID j, ?_, beq_self_eq_true _, ?_⟩
  · rw [toLower_numberedID, toLower_numberedID]
    exact fun ids => differ (numberedID_injective ids)
  · rw [address]
    exact beq_self_eq_true _

/-- The key of the default room of a mesh. -/
def defaultRoomKey : RoomKey :=
  deriveRoomKey Sha256.sum256 .ascii (ascii "mesh-secret") (ascii "default") []

/-- Two nodes of the default room have one address, and it is verified for both. -/
theorem defaultRoom_shares_address :
    CaseMap.ascii.toLower (ascii "aaaaaaaaaaaaaaac") ≠
        CaseMap.ascii.toLower (ascii "aaaaaaaaaaaaaaai") ∧
      verifyNodeIPv4 Sha256.sum256 .ascii (ascii "aaaaaaaaaaaaaaac") defaultRoomKey
        (ascii "241.48.62.180") = true ∧
      verifyNodeIPv4 Sha256.sum256 .ascii (ascii "aaaaaaaaaaaaaaai") defaultRoomKey
        (ascii "241.48.62.180") = true := by
  decide +kernel

end P2pMesh

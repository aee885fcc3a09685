import P2pMesh.Foundation.NetAddr
import P2pMesh.Types.Salt

/-! # Addresses of a room

`pkg/types/ipv4.go`: the subnet of a room, and the address of a node in it.
-/

namespace P2pMesh

open Foundation

/-- The length of the prefix of a room. -/
def ipv4RoomPrefixLen : Nat := 24

/-- `RoomSubnet`. -/
structure RoomSubnet where
  base : { bytes : Bytes // bytes.length = 4 }
  plen : Nat
deriving DecidableEq

/-- An address is in the subnet if it has the same first `plen` bits as the base. -/
def RoomSubnet.Contains (s : RoomSubnet) : NetAddr.Addr → Prop
  | .v4 bytes => beNat bytes.1 / 2 ^ (32 - s.plen) = beNat s.base.1 / 2 ^ (32 - s.plen)
  | .v6 _ => False

instance (s : RoomSubnet) : (a : NetAddr.Addr) → Decidable (s.Contains a)
  | .v4 _ => inferInstanceAs (Decidable (_ = _))
  | .v6 _ => inferInstanceAs (Decidable False)

/-- `IsMeshIPv4`: the first octet is at least 240. -/
def isMeshIPv4 : NetAddr.Addr → Bool
  | .v4 bytes => 240 ≤ bytes.1.getD 0 0
  | .v6 _ => false

variable (sha256 : Bytes → Sha256.Digest) (m : CaseMap)

/-- `DeriveRoomSubnet`. -/
def deriveRoomSubnet (roomKey : RoomKey) : RoomSubnet :=
  let subnetIndex := saltedSubnetIndex sha256 roomKey
  let firstOctet := (240 : UInt8) + (subnetIndex >>> 16).toUInt8
  let secondOctet := ((subnetIndex >>> 8) &&& 0xFF).toUInt8
  let thirdOctet := (subnetIndex &&& 0xFF).toUInt8
  ⟨⟨[firstOctet, secondOctet, thirdOctet, 0], rfl⟩, ipv4RoomPrefixLen⟩

/-- The last octet of a node's address, from 1 to 254. -/
def hostByte (nodeID : Bytes) (roomKey : RoomKey) : UInt8 :=
  UInt8.ofNat (((saltedDigest sha256 m roomKey nodeID).1.getD 6 0 % 254).toNat + 1)

/-- `DeriveNodeIPv4`. -/
def deriveNodeIPv4 (nodeID : Bytes) (roomKey : RoomKey) : NetAddr.Addr :=
  let base := (deriveRoomSubnet sha256 roomKey).base.1
  .v4 ⟨[base.getD 0 0, base.getD 1 0, base.getD 2 0, hostByte sha256 m nodeID roomKey], rfl⟩

variable {sha256 m} {roomKey : RoomKey}

/-- The host byte is neither that of the network nor that of the broadcast. -/
theorem toNat_hostByte (nodeID : Bytes) :
    1 ≤ (hostByte sha256 m nodeID roomKey).toNat ∧
      (hostByte sha256 m nodeID roomKey).toNat ≤ 254 := by
  have below : ((saltedDigest sha256 m roomKey nodeID).1.getD 6 0 % 254).toNat < 254 := by
    rw [UInt8.toNat_mod]
    exact Nat.mod_lt _ (by decide)
  rw [hostByte, UInt8.toNat_ofNat_of_lt' (Nat.lt_of_lt_of_le (Nat.succ_lt_succ below) (by decide))]
  omega

/-- Within a room the last octet decides the address. -/
theorem deriveNodeIPv4_eq_iff {left right : Bytes} :
    deriveNodeIPv4 sha256 m left roomKey = deriveNodeIPv4 sha256 m right roomKey ↔
      hostByte sha256 m left roomKey = hostByte sha256 m right roomKey := by
  simp [deriveNodeIPv4]

section Octets

/-- The index of a subnet has twenty bits. -/
theorem saltedSubnetIndex_lt : (saltedSubnetIndex sha256 roomKey).toNat < 2 ^ 20 := by
  rw [saltedSubnetIndex, UInt32.toNat_and]
  exact Nat.lt_of_le_of_lt Nat.and_le_right (by decide)

/-- The first octet does not wrap. -/
theorem toNat_firstOctet :
    ((deriveRoomSubnet sha256 roomKey).base.1.getD 0 0).toNat =
      240 + (saltedSubnetIndex sha256 roomKey).toNat / 2 ^ 16 := by
  have range : (saltedSubnetIndex sha256 roomKey).toNat < 2 ^ 20 := saltedSubnetIndex_lt
  change ((240 : UInt8) + (saltedSubnetIndex sha256 roomKey >>> 16).toUInt8).toNat = _
  rw [UInt8.toNat_add, UInt32.toNat_toUInt8, UInt32.toNat_shiftRight, Nat.shiftRight_eq_div_pow]
  change (240 + (saltedSubnetIndex sha256 roomKey).toNat / 2 ^ 16 % 2 ^ 8) % 2 ^ 8 = _
  omega

/-- The first 24 bits of a room's subnet are those of the mesh and the index. -/
theorem beNat_base :
    beNat (deriveRoomSubnet sha256 roomKey).base.1 =
      (240 * 2 ^ 16 + (saltedSubnetIndex sha256 roomKey).toNat) * 256 := by
  have range : (saltedSubnetIndex sha256 roomKey).toNat < 2 ^ 20 := saltedSubnetIndex_lt
  have first : ((240 : UInt8) + (saltedSubnetIndex sha256 roomKey >>> 16).toUInt8).toNat =
      240 + (saltedSubnetIndex sha256 roomKey).toNat / 2 ^ 16 := toNat_firstOctet
  have second : ((saltedSubnetIndex sha256 roomKey >>> 8) &&& 0xFF).toUInt8.toNat =
      (saltedSubnetIndex sha256 roomKey).toNat / 2 ^ 8 % 2 ^ 8 := by
    rw [UInt32.toNat_toUInt8, UInt32.toNat_and, UInt32.toNat_shiftRight,
      Nat.shiftRight_eq_div_pow]
    change ((saltedSubnetIndex sha256 roomKey).toNat / 2 ^ 8 &&& (2 ^ 8 - 1)) % 2 ^ 8 = _
    rw [Nat.and_two_pow_sub_one_eq_mod, Nat.mod_mod]
  have third : (saltedSubnetIndex sha256 roomKey &&& 0xFF).toUInt8.toNat =
      (saltedSubnetIndex sha256 roomKey).toNat % 2 ^ 8 := by
    rw [UInt32.toNat_toUInt8, UInt32.toNat_and]
    change ((saltedSubnetIndex sha256 roomKey).toNat &&& (2 ^ 8 - 1)) % 2 ^ 8 = _
    rw [Nat.and_two_pow_sub_one_eq_mod, Nat.mod_mod]
  simp only [deriveRoomSubnet, beNat, List.foldl_cons, List.foldl_nil, first, second, third,
    UInt8.toNat_zero]
  omega

/-- The addresses in the subnet of a room, by their first 24 bits. -/
theorem contains_deriveRoomSubnet {bytes : { bytes : Bytes // bytes.length = 4 }} :
    (deriveRoomSubnet sha256 roomKey).Contains (.v4 bytes) ↔
      beNat bytes.1 / 256 = 240 * 2 ^ 16 + (saltedSubnetIndex sha256 roomKey).toNat := by
  change beNat bytes.1 / 256 = beNat (deriveRoomSubnet sha256 roomKey).base.1 / 256 ↔ _
  rw [beNat_base, Nat.mul_div_cancel _ (by decide)]

/-- A node's address is in the subnet of its room. -/
theorem contains_deriveNodeIPv4 (nodeID : Bytes) :
    (deriveRoomSubnet sha256 roomKey).Contains (deriveNodeIPv4 sha256 m nodeID roomKey) := by
  have host := (hostByte sha256 m nodeID roomKey).toNat_lt
  change beNat _ / 256 = beNat _ / 256
  simp only [deriveRoomSubnet, List.getD_cons_zero, List.getD_cons_succ, beNat, List.foldl_cons,
    List.foldl_nil, UInt8.toNat_zero]
  omega

/-- Rooms with different indexes have no address in common. -/
theorem disjoint_deriveRoomSubnet {other : RoomKey}
    (differ : saltedSubnetIndex sha256 roomKey ≠ saltedSubnetIndex sha256 other)
    (a : NetAddr.Addr) :
    ¬ ((deriveRoomSubnet sha256 roomKey).Contains a ∧
      (deriveRoomSubnet sha256 other).Contains a) := by
  rintro ⟨own, others⟩
  cases a with
  | v4 bytes =>
      rw [contains_deriveRoomSubnet] at own others
      exact differ (UInt32.toNat_inj.mp (by omega))
  | v6 bytes => exact own

/-- A derived address is in the mesh prefix. -/
theorem isMeshIPv4_deriveNodeIPv4 (nodeID : Bytes) :
    isMeshIPv4 (deriveNodeIPv4 sha256 m nodeID roomKey) = true := by
  refine decide_eq_true (UInt8.le_iff_toNat_le.mpr ?_)
  change 240 ≤ ((deriveRoomSubnet sha256 roomKey).base.1.getD 0 0).toNat
  rw [toNat_firstOctet]
  exact Nat.le_add_right _ _

end Octets

end P2pMesh

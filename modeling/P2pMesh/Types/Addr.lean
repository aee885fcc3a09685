import P2pMesh.Types.IPv4

/-! # Addresses of a node

`pkg/types/addr.go`, and `IsMeshIPv6` of `pkg/types/ipv4.go`. The address of a node in a room
is the mesh prefix and six bytes of a salted digest. Whatever the hash function, the addresses
of a node lie in the address spaces of the mesh, the IPv4 address lies in the subnet of the
room, and rooms with different indexes share no address (`P2pMesh.derived_in_mesh`).
-/

namespace P2pMesh

open Foundation NetAddr

/-- The prefix of the addresses of the mesh. -/
def ipv6ULA : Bytes :=
  ascii "fd00:9bd8::"

/-- `netip.ParseAddr(IPv6ULA)`, the sixteen bytes of an IPv6 address. -/
def parsedULA : Except String { bytes : Bytes // bytes.length = 16 } :=
  .ok ⟨[0xfd, 0, 0x9b, 0xd8, 0, 0, 0, 0, 0, 0, 0, 0, 0, 0, 0, 0], rfl⟩

/-- The parsed address is the one that is written as `IPv6ULA`. -/
theorem text_parsedULA : parsedULA.map (fun ula => (Addr.v6 ula).text) = .ok ipv6ULA := by
  decide

/-- The prefix, the universal/local bit, and the digest. -/
def ipv6Bytes (ula : { bytes : Bytes // bytes.length = 16 }) (d : Sha256.Digest) :
    { bytes : Bytes // bytes.length = 16 } :=
  ⟨ula.1.take 8 ++ [0x02, 0] ++ d.1.take 6, by
    simp only [List.length_append, List.length_take, ula.2, d.2, List.length_cons,
      List.length_nil]
    decide⟩

section Derivation

variable (sha256 : Bytes → Sha256.Digest) (m : CaseMap)

/-- `DeriveIPv6Addr`. -/
def deriveIPv6Addr (nodeID : Bytes) (roomKey : RoomKey) : Except String Addr :=
  match parsedULA with
  | .error cause => .error ("invalid ULA prefix \"fd00:9bd8::\": " ++ cause)
  | .ok ula => .ok (.v6 (ipv6Bytes ula (saltedDigest sha256 m roomKey nodeID)))

end Derivation

/-- `IsMeshIPv6`: the first eight bytes are those of the prefix. -/
def isMeshIPv6 : Addr → Bool
  | .v4 _ => false
  | .v6 bytes =>
      match parsedULA with
      | .error _ => false
      | .ok ula => ula.1.take 8 == bytes.1.take 8

variable {sha256 : Bytes → Sha256.Digest} {m : CaseMap} {roomKey : RoomKey}

/-- IDs that differ in the case of letters only have one digest. -/
theorem saltedDigest_eq_of_map_lowerByte_eq {left right : Bytes}
    (same : left.map CaseMap.lowerByte = right.map CaseMap.lowerByte) :
    saltedDigest sha256 m roomKey left = saltedDigest sha256 m roomKey right := by
  rw [saltedDigest, saltedDigest, m.toLower_eq_of_map_lowerByte_eq same]

/-- A derived address is in the mesh prefix. -/
theorem isMeshIPv6_ipv6Bytes (d : Sha256.Digest) {ula : { bytes : Bytes // bytes.length = 16 }}
    (parsed : parsedULA = .ok ula) : isMeshIPv6 (.v6 (ipv6Bytes ula d)) = true := by
  have start : (ula.1.take 8).length = 8 := by
    rw [List.length_take, ula.2]
    decide
  have front : (ipv6Bytes ula d).1.take 8 = ula.1.take 8 := by
    change (ula.1.take 8 ++ [0x02, 0] ++ d.1.take 6).take 8 = _
    rw [List.append_assoc, List.take_left' start]
  simp only [isMeshIPv6, parsed, front, beq_self_eq_true]

/-- For every node ID and room key, and whatever the hash function: the IPv4 address is in the
room's /24 with a last octet from 1 to 254 and in the mesh space, the first octet of the
subnet does not wrap, subnets of different indexes are disjoint, and the IPv6 address is in
the mesh space and does not depend on the case of the ASCII letters of the node ID. -/
theorem derived_in_mesh (sha256 : Bytes → Sha256.Digest) (m : CaseMap) (nodeID : Bytes)
    (roomKey : RoomKey) :
    (deriveRoomSubnet sha256 roomKey).plen = 24 ∧
    (deriveRoomSubnet sha256 roomKey).Contains (deriveNodeIPv4 sha256 m nodeID roomKey) ∧
    (∃ octets host, deriveNodeIPv4 sha256 m nodeID roomKey = .v4 octets ∧
      octets.1.getLast? = some host ∧ 1 ≤ host.toNat ∧ host.toNat ≤ 254) ∧
    isMeshIPv4 (deriveNodeIPv4 sha256 m nodeID roomKey) = true ∧
    ((deriveRoomSubnet sha256 roomKey).base.1.getD 0 0).toNat =
      240 + (saltedSubnetIndex sha256 roomKey >>> 16).toNat ∧
    (∀ other, saltedSubnetIndex sha256 roomKey ≠ saltedSubnetIndex sha256 other →
      ∀ a, ¬ ((deriveRoomSubnet sha256 roomKey).Contains a ∧
        (deriveRoomSubnet sha256 other).Contains a)) ∧
    ∃ addr, deriveIPv6Addr sha256 m nodeID roomKey = .ok addr ∧ isMeshIPv6 addr = true ∧
      ∀ other, other.map CaseMap.lowerByte = nodeID.map CaseMap.lowerByte →
        deriveIPv6Addr sha256 m other roomKey = .ok addr := by
  refine ⟨rfl, contains_deriveNodeIPv4 nodeID, ?_, isMeshIPv4_deriveNodeIPv4 nodeID, ?_,
    fun other differ => disjoint_deriveRoomSubnet differ, ?_⟩
  · exact ⟨_, hostByte sha256 m nodeID roomKey, rfl, rfl, toNat_hostByte nodeID⟩
  · rw [toNat_firstOctet, UInt32.toNat_shiftRight, Nat.shiftRight_eq_div_pow]
    rfl
  · refine ⟨_, rfl, isMeshIPv6_ipv6Bytes _ rfl, fun other same => ?_⟩
    rw [deriveIPv6Addr, saltedDigest_eq_of_map_lowerByte_eq same]
    rfl

/-- Two rooms of a mesh have different indexes, and a node ID may be written in capitals. -/
theorem derived_in_mesh_sample :
    let first := deriveRoomKey Sha256.sum256 .ascii (ascii "mesh-secret") (ascii "first") []
    let second := deriveRoomKey Sha256.sum256 .ascii (ascii "mesh-secret") (ascii "second") []
    (∀ a, ¬ ((deriveRoomSubnet Sha256.sum256 first).Contains a ∧
      (deriveRoomSubnet Sha256.sum256 second).Contains a)) ∧
    deriveIPv6Addr Sha256.sum256 .ascii (ascii "NODE-ONE") first =
      deriveIPv6Addr Sha256.sum256 .ascii (ascii "node-one") first := by
  intro first second
  have differ : saltedSubnetIndex Sha256.sum256 first ≠ saltedSubnetIndex Sha256.sum256 second := by
    decide +kernel
  obtain ⟨_, _, _, _, _, disjoint, addr, derived, _, anyCase⟩ :=
    derived_in_mesh Sha256.sum256 .ascii (ascii "node-one") first
  refine ⟨disjoint second differ, ?_⟩
  rw [derived]
  exact anyCase (ascii "NODE-ONE") (by decide)

end P2pMesh

import P2pMesh.Tunnel.Basic

/-! # The MTU budget

`internal/tunnel/mtu.go`. The budget counts eight bytes for the nonce and sixteen for the
tag of a packet, but a `Write` also sends the two bytes of the length: a tunnel whose inner
MTU is within the budget keeps to the path MTU exactly when two bytes of the budget are
left (`P2pMesh.fits_iff_spare`).
-/

namespace P2pMesh

open Foundation

/-- The bytes of an IPv4 header. -/
def ipv4HeaderLen : Int64 := 20

/-- The bytes of an IPv6 header. -/
def ipv6HeaderLen : Int64 := 40

/-- The bytes of a UDP header. -/
def udpHeaderLen : Int64 := 8

/-- The bytes of a KCP header. -/
def kcpOverhead : Int64 := 24

/-- A nonce and a tag. -/
def noiseOverhead : Int64 := 8 + 16

/-- `OuterHeaderLen`. -/
def outerHeaderLen (isIPv6 : Bool) : Int64 :=
  if isIPv6 then ipv6HeaderLen else ipv4HeaderLen

/-- `EncapsulationOverhead`. -/
def encapsulationOverhead (isIPv6 : Bool) : Int64 :=
  outerHeaderLen isIPv6 + udpHeaderLen + noiseOverhead + kcpOverhead

/-- `InnerMTU`. -/
def innerMTU (pathMTU : Int64) (outerIsIPv6 : Bool) : Int64 :=
  pathMTU - encapsulationOverhead outerIsIPv6

/-- The errors of `ValidateMTU`. -/
inductive MTUError where
  | notPositive (inner : Int64)
  | exceedsBudget (inner path overhead maxInner : Int64)
deriving DecidableEq

/-- The texts of the errors. -/
def MTUError.text : MTUError → String
  | .notPositive inner => "inner MTU " ++ toString inner ++ " is not positive"
  | .exceedsBudget inner path overhead maxInner =>
      "inner MTU " ++ toString inner ++ " exceeds path budget: path MTU " ++ toString path ++
        " − overhead " ++ toString overhead ++ " = " ++ toString maxInner ++ " max inner"

/-- `ValidateMTU`. -/
def validateMTU (inner pathMTU : Int64) (outerIsIPv6 : Bool) : Option MTUError :=
  if inner < 1 then some (.notPositive inner)
  else if innerMTU pathMTU outerIsIPv6 < inner then
    some (.exceedsBudget inner pathMTU (encapsulationOverhead outerIsIPv6)
      (innerMTU pathMTU outerIsIPv6))
  else none

/-- `MTUAdvisory`. -/
def mtuAdvisory (inner : Int64) : String :=
  if inner < 1280 then
    "inner MTU " ++ toString inner ++ " is below the IPv6 link minimum of 1280; " ++
      "the virtual link will not meet RFC 8200 §5. Raise the path MTU (e.g. a 1500 path yields " ++
      toString (innerMTU 1500 true) ++
      ") or accept that IPv6 traffic on this link is non-conformant"
  else ""

/-- The size of the outer packet that carries what a `Write` gives to the connection. -/
def outerSize (isIPv6 : Bool) (sent : Bytes) : Int :=
  (outerHeaderLen isIPv6).toInt + udpHeaderLen.toInt + kcpOverhead.toInt + sent.length

/-- Every packet that `Write` accepts on a tunnel with the inner MTU keeps to the path
MTU. -/
def Fits (aead : AEAD) (inner pathMTU : Int64) (isIPv6 : Bool) : Prop :=
  ∀ t : Tunnel, t.aead = aead → (t.mtu : Int) = inner.toInt →
    ∀ packet, (t.write packet none).1.err = none →
      outerSize isIPv6 (t.write packet none).1.sent ≤ pathMTU.toInt

/-- The outer header has 40 bytes for IPv6 and 20 for IPv4. -/
theorem toInt_outerHeaderLen (isIPv6 : Bool) :
    (outerHeaderLen isIPv6).toInt = if isIPv6 then 40 else 20 := by
  cases isIPv6 <;> rfl

/-- For a path MTU that is not negative the budget does not wrap around. -/
theorem toInt_innerMTU {pathMTU : Int64} (positive : 0 ≤ pathMTU.toInt) (isIPv6 : Bool) :
    (innerMTU pathMTU isIPv6).toInt = pathMTU.toInt - (outerHeaderLen isIPv6).toInt - 56 := by
  have bound := pathMTU.toInt_lt
  have overhead : (encapsulationOverhead isIPv6).toInt = (outerHeaderLen isIPv6).toInt + 56 := by
    cases isIPv6 <;> rfl
  have header := toInt_outerHeaderLen isIPv6
  rw [innerMTU, Int64.toInt_sub, overhead]
  have inRange : -(2 ^ 63) ≤ pathMTU.toInt - ((outerHeaderLen isIPv6).toInt + 56) := by
    split at header <;> omega
  rw [Int.bmod_eq_of_le (by omega) (by split at header <;> omega)]
  omega

/-- The outer packet of an accepted packet: a frame has ten bytes in front of the
ciphertext. -/
theorem outerSize_write {t : Tunnel} {packet : Bytes}
    (sized : ∀ nonce plaintext data, nonce.length = 12 →
      (t.aead.sealWith nonce plaintext data).length = plaintext.length + 16)
    (accepted : (t.write packet none).1.err = none) (isIPv6 : Bool) :
    outerSize isIPv6 (t.write packet none).1.sent =
      (outerHeaderLen isIPv6).toInt + packet.length + 58 := by
  obtain ⟨seq, sent⟩ := Tunnel.write_sent accepted
  have udp : udpHeaderLen.toInt = 8 := rfl
  have kcp : kcpOverhead.toInt = 24 := rfl
  rw [outerSize, sent, List.length_append, List.length_append, length_putUint64, length_putUint16,
    sized _ _ _ (length_nonceOf seq), udp, kcp]
  omega

/-- The packets that `Write` accepts fit into the path exactly when the inner MTU leaves
two bytes of the budget, and the path MTU is not so far below zero that the budget wraps
around. -/
theorem fits_iff_spare {aead : AEAD}
    (sized : ∀ nonce plaintext data, nonce.length = 12 →
      (aead.sealWith nonce plaintext data).length = plaintext.length + 16)
    {inner pathMTU : Int64} {isIPv6 : Bool} (validated : validateMTU inner pathMTU isIPv6 = none) :
    Fits aead inner pathMTU isIPv6 ↔
      0 ≤ pathMTU.toInt ∧ inner.toInt + 2 ≤ (innerMTU pathMTU isIPv6).toInt := by
  have header := toInt_outerHeaderLen isIPv6
  have positive : 1 ≤ inner.toInt := by
    unfold validateMTU at validated
    split at validated
    · cases validated
    · next notSmall =>
        rw [Int64.lt_iff_toInt_lt, Int64.toInt_one] at notSmall
        omega
  constructor
  · intro fits
    have mtu := mtu_newTunnel aead .udp (show 0 < inner.toInt by omega)
    have accepted : ((newTunnel aead .udp inner).write
        (List.replicate inner.toInt.toNat 0) none).1.err = none := by
      rw [Tunnel.write_accepted_iff, List.length_replicate]
      exact ⟨rfl, by omega⟩
    have longest := fits _ rfl mtu _ accepted
    rw [outerSize_write sized accepted, List.length_replicate] at longest
    have nonnegative : 0 ≤ pathMTU.toInt := by
      split at header <;> omega
    refine ⟨nonnegative, ?_⟩
    rw [toInt_innerMTU nonnegative]
    omega
  · rintro ⟨nonnegative, spare⟩ t rfl mtu packet accepted
    have short := ((t.write_accepted_iff packet).mp accepted).2
    rw [toInt_innerMTU nonnegative] at spare
    rw [outerSize_write sized accepted]
    omega

/-- The sample scheme adds sixteen bytes. -/
theorem nonceTagAEAD_sized (nonce plaintext data : Bytes) (size : nonce.length = 12) :
    (nonceTagAEAD.sealWith nonce plaintext data).length = plaintext.length + 16 := by
  simp only [nonceTagAEAD, List.length_append, size, List.length_cons, List.length_nil]

/-- On an IPv6 path of 1500 bytes the largest inner MTU that is accepted is 1404, and a
packet of that size makes an outer packet of 1502 bytes. -/
theorem fullPacket_exceeds_path :
    validateMTU 1404 1500 true = none ∧
      ((newTunnel nonceTagAEAD .kcp 1404).write (List.replicate 1404 0) none).1.err = none ∧
      (1500 : Int64).toInt < outerSize true ((newTunnel nonceTagAEAD .kcp 1404).write
        (List.replicate 1404 0) none).1.sent := by
  have accepted : ((newTunnel nonceTagAEAD .kcp 1404).write
      (List.replicate 1404 0) none).1.err = none := by
    rw [Tunnel.write_accepted_iff, List.length_replicate]
    exact ⟨rfl, Nat.le_refl _⟩
  refine ⟨by decide, accepted, ?_⟩
  rw [outerSize_write nonceTagAEAD_sized accepted, List.length_replicate]
  decide

/-- The default inner MTU fits into a path of 1500 bytes. -/
theorem defaultMTU_fits : Fits nonceTagAEAD 1280 1500 true :=
  (fits_iff_spare nonceTagAEAD_sized (by decide)).mpr ⟨by decide, by decide⟩

end P2pMesh

import P2pMesh.Crypto.Certificate
import Mathlib.Logic.Function.Basic

/-! # The online certificate authority under trust on first use

`CertAuth` of `internal/crypto/cert.go` over sequences of `VerifyNodeCert` calls.
Under trust on first use both branches for an unsigned certificate accept it, so
identities are pinned exactly when the certificates presented happen to agree
(`P2pMesh.CertAuth.pins_accepted_iff`).
-/

namespace P2pMesh

open Foundation

/-- `pub32`, and `copy` into a `[32]byte`. -/
def pub32 (pub : Bytes) : Key :=
  ⟨(pub ++ Key.zero.val).take 32, by
    rw [List.length_take, List.length_append, Key.zero.property]
    omega⟩

/-- `CertAuth`; the clock is an argument of the calls that read it. -/
structure CertAuth where
  rootPub : Key
  caKP : Option KeyPair
  caCert : CACert
  tofu : Bool
  knownPubs : Key → Bool

/-- `NewCertAuth`, with the results of its calls of `GenerateKeyPair`. -/
def newCertAuth (ed : Ed25519) (rootKP : Option KeyPair) (tofu : Bool)
    (freshRoot freshCA : Except String KeyPair) (now : UInt64) : Except CryptoError CertAuth :=
  match rootKP, freshRoot with
  | none, .error cause => .error (.generateRoot cause)
  | some kp, _ => build kp
  | none, .ok kp => build kp
where
  build (kp : KeyPair) : Except CryptoError CertAuth :=
    match freshCA with
    | .error cause => .error (.generateCA cause)
    | .ok caKP =>
        match signCACert ed kp (pub32 caKP.publicKey) 0 0 now with
        | .error cause => .error (.signCACertificate cause)
        | .ok caCert => .ok ⟨pub32 kp.publicKey, some caKP, caCert, tofu, fun _ => false⟩

namespace CertAuth

/-- `SignNodeCert`. -/
def signNodeCert (ed : Ed25519) (ca : CertAuth) (nodeID : Bytes) (pub : Key) (role : Bytes)
    (expiry : UInt64) : Option (Except CryptoError Cert) :=
  match ca.caKP with
  | none => some (.error .noCAKeyPair)
  | some caKP => signCert ed caKP nodeID pub role expiry

/-- `VerifyNodeCert` at the time `now`, with the authority it leaves. -/
def verifyNodeCert (ed : Ed25519) (ca : CertAuth) (cert : Option Cert) (now : UInt64) :
    Option (Except CryptoError Unit) × CertAuth :=
  match cert with
  | none => (some (.error .nilCert), ca)
  | some c =>
      if c.signature = [] ∧ ca.tofu = true then
        if ca.knownPubs c.pubKey then (some (.ok ()), ca)
        else
          (some (.ok ()), { ca with knownPubs := Function.update ca.knownPubs c.pubKey true })
      else (chainVerify ed ca.rootPub (some ca.caCert) (some c) now, ca)

end CertAuth

/-- A call of `VerifyNodeCert`. -/
structure VerifyCall where
  cert : Option Cert
  now : UInt64

/-- The unsigned certificates of a list of calls. -/
def unsignedCerts (calls : List VerifyCall) : List Cert :=
  (calls.filterMap VerifyCall.cert).filter fun c => c.signature = []

/-- The unsigned certificates that a sequence of calls accepts, in order. -/
def CertAuth.accepted (ed : Ed25519) : CertAuth → List VerifyCall → List Cert
  | _, [] => []
  | ca, call :: calls =>
      let (verdict, next) := ca.verifyNodeCert ed call.cert call.now
      (if verdict = some (.ok ()) then unsignedCerts [call] else []) ++ next.accepted ed calls

/-- No certificate carries another public key than an earlier one for its node ID. -/
def Pins (certs : List Cert) : Prop :=
  certs.Pairwise fun earlier later =>
    later.nodeID = earlier.nodeID → later.pubKey = earlier.pubKey

instance (certs : List Cert) : Decidable (Pins certs) :=
  inferInstanceAs (Decidable (List.Pairwise _ certs))

theorem unsignedCerts_cons (call : VerifyCall) (calls : List VerifyCall) :
    unsignedCerts (call :: calls) = unsignedCerts [call] ++ unsignedCerts calls := by
  unfold unsignedCerts
  rw [← List.filter_append, ← List.filterMap_append, List.singleton_append]

namespace CertAuth

variable (ed : Ed25519)

/-- Verifying a certificate leaves the trust mode as it is. -/
theorem tofu_verifyNodeCert (ca : CertAuth) (cert : Option Cert) (now : UInt64) :
    (ca.verifyNodeCert ed cert now).2.tofu = ca.tofu := by
  cases cert with
  | none => rfl
  | some c =>
      unfold verifyNodeCert
      simp only
      split
      · split <;> rfl
      · rfl

/-- Under trust on first use every unsigned certificate is accepted. -/
theorem verifyNodeCert_of_unsigned {ca : CertAuth} (tofu : ca.tofu = true) {c : Cert}
    (unsigned : c.signature = []) (now : UInt64) :
    (ca.verifyNodeCert ed (some c) now).1 = some (.ok ()) := by
  cases known : ca.knownPubs c.pubKey <;> simp [verifyNodeCert, tofu, unsigned, known]

/-- In trust-on-first-use mode every unsigned certificate is accepted, also a second one. -/
theorem accepted_eq_unsignedCerts (calls : List VerifyCall) {ca : CertAuth}
    (tofu : ca.tofu = true) : ca.accepted ed calls = unsignedCerts calls := by
  induction calls generalizing ca with
  | nil => rfl
  | cons call calls ih =>
      have next : (ca.verifyNodeCert ed call.cert call.now).2.tofu = true :=
        (tofu_verifyNodeCert ed ca call.cert call.now).trans tofu
      rw [unsignedCerts_cons, accepted]
      simp only [ih next]
      congr 1
      obtain ⟨cert, now⟩ := call
      cases cert with
      | none => simp [unsignedCerts]
      | some c =>
          by_cases unsigned : c.signature = []
          · rw [if_pos (verifyNodeCert_of_unsigned ed tofu unsigned now)]
          · simp [unsignedCerts, unsigned]

/-- Under trust on first use identities are pinned exactly when no two unsigned
certificates presented name one node with different public keys. -/
theorem pins_accepted_iff (ed : Ed25519) (ca : CertAuth) (tofu : ca.tofu = true)
    (calls : List VerifyCall) :
    Pins (ca.accepted ed calls) ↔
      (unsignedCerts calls).Pairwise fun earlier later =>
        ¬ (later.nodeID = earlier.nodeID ∧ later.pubKey ≠ earlier.pubKey) := by
  rw [accepted_eq_unsignedCerts ed calls tofu]
  unfold Pins
  simp only [ne_eq, not_and, not_not]

end CertAuth

/-- An unsigned client certificate for the node `node-1`. -/
def firstContact (byte : UInt8) : Cert :=
  ⟨ascii "node-1", pub32 [byte], roleClient, 0, .zero, []⟩

/-- Two unsigned certificates for one node are both accepted with different keys. -/
theorem secondKey_accepted :
    ∃ ca, newCertAuth echoEd25519 none true (.ok (sampleKeyPair 1)) (.ok (sampleKeyPair 2)) 10 =
        .ok ca ∧ ca.tofu = true ∧
      ¬ Pins (ca.accepted echoEd25519 [⟨some (firstContact 7), 11⟩, ⟨some (firstContact 8), 12⟩]) :=
  ⟨_, rfl, rfl, by decide⟩

/-- Presenting one key twice is consistent with pinning. -/
theorem sameKey_pinned :
    ∃ ca, newCertAuth echoEd25519 none true (.ok (sampleKeyPair 1)) (.ok (sampleKeyPair 2)) 10 =
        .ok ca ∧
      Pins (ca.accepted echoEd25519 [⟨some (firstContact 7), 11⟩, ⟨some (firstContact 7), 12⟩]) :=
  ⟨_, rfl, (CertAuth.pins_accepted_iff echoEd25519 _ rfl _).mpr (by decide)⟩

end P2pMesh

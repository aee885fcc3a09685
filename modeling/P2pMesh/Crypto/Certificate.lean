import P2pMesh.Foundation.BigEndian

/-! # Node and CA certificates

`Cert` and `CACert` of `internal/crypto` with their canonical bodies, the calls
that sign them and the checks that verify them. `ed25519` is a parameter. Reading
the first byte of an empty role is an access out of range: a call that makes it
panics, and its model returns `none`.
-/

namespace P2pMesh

open Foundation

/-- `ed25519.Sign` and `ed25519.Verify`. -/
structure Ed25519 where
  sign (privateKey message : Bytes) : Bytes
  verify (publicKey message sig : Bytes) : Bool

/-- `[32]byte`. -/
abbrev Key := { bytes : Bytes // bytes.length = 32 }

/-- The zero value of `[32]byte`. -/
def Key.zero : Key :=
  ⟨List.replicate 32 0, List.length_replicate⟩

/-- The errors of signing and verifying. -/
inductive CryptoError where
  | privateKeySize (size : Nat)
  | signCert (cause : CryptoError)
  | signCACert (cause : CryptoError)
  | noSignature
  | invalidSignature
  | noCASignature
  | invalidCASignature
  | nilInChain
  | untrustedRoot
  | notYetValid
  | caExpired
  | otherCA
  | expired
  | nilCert
  | generateRoot (cause : String)
  | generateCA (cause : String)
  | signCACertificate (cause : CryptoError)
  | noCAKeyPair
deriving DecidableEq, Repr

/-- The texts of the errors. -/
def CryptoError.text : CryptoError → String
  | .privateKeySize size => "invalid private key size " ++ toString size
  | .signCert cause => "sign cert: " ++ cause.text
  | .signCACert cause => "sign CA cert: " ++ cause.text
  | .noSignature => "certificate has no signature"
  | .invalidSignature => "invalid certificate signature"
  | .noCASignature => "CA certificate has no signature"
  | .invalidCASignature => "invalid CA certificate signature"
  | .nilInChain => "nil certificate in chain"
  | .untrustedRoot => "CA certificate not signed by the trusted root"
  | .notYetValid => "CA certificate not yet valid"
  | .caExpired => "CA certificate expired"
  | .otherCA => "node certificate not signed by the active intermediate CA"
  | .expired => "node certificate expired"
  | .nilCert => "nil certificate"
  | .generateRoot cause => "generate root key: " ++ cause
  | .generateCA cause => "generate intermediate CA key: " ++ cause
  | .signCACertificate cause => "sign CA certificate: " ++ cause.text
  | .noCAKeyPair => "no intermediate CA key pair"

/-- `KeyPair`; the last 32 bytes of an Ed25519 private key are its public key. -/
structure KeyPair where
  publicKey : Bytes
  privateKey : Bytes
deriving DecidableEq

/-- `KeyPair.Sign`. -/
def KeyPair.sign (ed : Ed25519) (kp : KeyPair) (message : Bytes) : Except CryptoError Bytes :=
  if kp.privateKey.length ≠ 64 then .error (.privateKeySize kp.privateKey.length)
  else .ok (ed.sign kp.privateKey message)

/-- The `Signer` field of what a key pair signs. -/
def KeyPair.signer (kp : KeyPair) : Key :=
  if size : kp.publicKey.length = 32 then ⟨kp.publicKey, size⟩ else .zero

/-- The role of a client. -/
def roleClient : Bytes := ascii "client"

/-- `Cert`. -/
structure Cert where
  nodeID : Bytes
  pubKey : Key
  role : Bytes
  expiry : UInt64
  signer : Key
  signature : Bytes
deriving DecidableEq

/-- The body of a certificate whose role starts with the given byte. -/
def Cert.body (c : Cert) (role : UInt8) : Bytes :=
  c.nodeID ++ (c.pubKey.val ++ ([role] ++ (putUint64 c.expiry ++ c.signer.val)))

/-- `Cert.Bytes`, which panics on an empty role. -/
def Cert.bytes (c : Cert) : Option Bytes :=
  match c.role with
  | [] => none
  | first :: _ => some (c.body first)

/-- The certificate that `SignCert` is about to sign. -/
def unsignedCert (rootKP : KeyPair) (nodeID : Bytes) (pub : Key) (role : Bytes)
    (expiry : UInt64) : Cert :=
  ⟨nodeID, pub, role, expiry, rootKP.signer, []⟩

/-- `SignCert`. -/
def signCert (ed : Ed25519) (rootKP : KeyPair) (nodeID : Bytes) (pub : Key) (role : Bytes)
    (expiry : UInt64) : Option (Except CryptoError Cert) :=
  match (unsignedCert rootKP nodeID pub role expiry).bytes with
  | none => none
  | some body =>
      match rootKP.sign ed body with
      | .error cause => some (.error (.signCert cause))
      | .ok sig =>
          some (.ok { unsignedCert rootKP nodeID pub role expiry with signature := sig })

/-- `VerifyCert`. -/
def Cert.verifyCert (ed : Ed25519) (c : Cert) : Option (Except CryptoError Unit) :=
  if c.signature = [] then some (.error .noSignature)
  else
    match c.bytes with
    | none => none
    | some body =>
        if ed.verify c.signer.val body c.signature then some (.ok ())
        else some (.error .invalidSignature)

/-- `CACert`. -/
structure CACert where
  caKey : Key
  notBefore : UInt64
  notAfter : UInt64
  signer : Key
  signature : Bytes
deriving DecidableEq

/-- `CACert.Bytes`. -/
def CACert.bytes (c : CACert) : Bytes :=
  0xCA :: (c.caKey.val ++ (putUint64 c.notBefore ++ (putUint64 c.notAfter ++ c.signer.val)))

/-- `CAValidity` in seconds. -/
def caValidity : UInt64 := 365 * 24 * 60 * 60

/-- The CA certificate that `SignCACert` is about to sign at the time `now`. -/
def unsignedCACert (rootKP : KeyPair) (caPub : Key) (notBefore notAfter now : UInt64) : CACert :=
  let notBefore := if notBefore = 0 then now else notBefore
  let notAfter := if notAfter = 0 then notBefore + caValidity else notAfter
  ⟨caPub, notBefore, notAfter, rootKP.signer, []⟩

/-- `SignCACert` at the time `now`. -/
def signCACert (ed : Ed25519) (rootKP : KeyPair) (caPub : Key) (notBefore notAfter now : UInt64) :
    Except CryptoError CACert :=
  let c := unsignedCACert rootKP caPub notBefore notAfter now
  match rootKP.sign ed c.bytes with
  | .error cause => .error (.signCACert cause)
  | .ok sig => .ok { c with signature := sig }

/-- `CACert.Verify`. -/
def CACert.verify (ed : Ed25519) (c : CACert) : Except CryptoError Unit :=
  if c.signature = [] then .error .noCASignature
  else if ed.verify c.signer.val c.bytes c.signature then .ok ()
  else .error .invalidCASignature

/-- `ChainVerify`. -/
def chainVerify (ed : Ed25519) (rootPub : Key) (ca : Option CACert) (cert : Option Cert)
    (timeNow : UInt64) : Option (Except CryptoError Unit) :=
  match ca, cert with
  | some ca, some cert =>
      if ca.signer ≠ rootPub then some (.error .untrustedRoot)
      else
        match ca.verify ed with
        | .error cause => some (.error cause)
        | .ok () =>
            if timeNow < ca.notBefore then some (.error .notYetValid)
            else if ca.notAfter ≤ timeNow then some (.error .caExpired)
            else if cert.signer ≠ ca.caKey then some (.error .otherCA)
            else
              match cert.verifyCert ed with
              | none => none
              | some (.error cause) => some (.error cause)
              | some (.ok ()) =>
                  if cert.expiry ≠ 0 ∧ cert.expiry ≤ timeNow then some (.error .expired)
                  else some (.ok ())
  | _, _ => some (.error .nilInChain)

/-- A keyed checksum for concrete runs: a signature is the message followed by the
public key. -/
def echoEd25519 : Ed25519 where
  sign privateKey message := message ++ (privateKey.drop 32 ++ Key.zero.val).take 32
  verify publicKey message sig := sig = message ++ (publicKey ++ Key.zero.val).take 32

/-- A key pair whose public key is 32 times one byte. -/
def sampleKeyPair (byte : UInt8) : KeyPair :=
  ⟨List.replicate 32 byte, List.replicate 32 0 ++ List.replicate 32 byte⟩

/-- A certificate with a role has a body, with the first byte of the role in it. -/
theorem Cert.bytes_of_role {c : Cert} (named : c.role ≠ []) :
    ∃ first rest, c.role = first :: rest ∧ c.bytes = some (c.body first) := by
  cases role : c.role with
  | nil => exact absurd role named
  | cons first rest => exact ⟨first, rest, rfl, by simp only [bytes, role]⟩

/-- Only a certificate without a role has no body. -/
theorem Cert.bytes_eq_none_iff (c : Cert) : c.bytes = none ↔ c.role = [] := by
  unfold bytes
  cases c.role with
  | nil => simp only
  | cons first rest => simp only [reduceCtorEq]

/-- The length of a node body depends on the node ID only. -/
@[simp] theorem Cert.length_body (c : Cert) (role : UInt8) :
    (c.body role).length = c.nodeID.length + 73 := by
  simp only [body, List.length_append, c.pubKey.property, c.signer.property, length_putUint64,
    List.length_singleton]

/-- A CA body has 81 bytes. -/
@[simp] theorem CACert.length_bytes (c : CACert) : c.bytes.length = 81 := by
  simp only [bytes, List.length_cons, List.length_append, c.caKey.property, c.signer.property,
    length_putUint64]

/-- A body determines every field of a node certificate except the role, of which
it holds the first byte. -/
theorem Cert.body_inj {c d : Cert} {first second : UInt8} (same : c.body first = d.body second) :
    c.nodeID = d.nodeID ∧ c.pubKey = d.pubKey ∧ first = second ∧ c.expiry = d.expiry ∧
      c.signer = d.signer := by
  have size : c.nodeID.length = d.nodeID.length := by
    have lengths := congrArg List.length same
    rw [length_body, length_body] at lengths
    omega
  obtain ⟨node, same⟩ := List.append_inj same size
  obtain ⟨pub, same⟩ := List.append_inj same (c.pubKey.property.trans d.pubKey.property.symm)
  obtain ⟨role, same⟩ := List.append_inj same rfl
  obtain ⟨expiry, signer⟩ := List.append_inj same (by simp only [length_putUint64])
  exact ⟨node, Subtype.ext pub, List.singleton_inj.mp role, putUint64_injective expiry,
    Subtype.ext signer⟩

/-- A body determines every field of a CA certificate. -/
theorem CACert.bytes_inj {c d : CACert} (same : c.bytes = d.bytes) :
    c.caKey = d.caKey ∧ c.notBefore = d.notBefore ∧ c.notAfter = d.notAfter ∧
      c.signer = d.signer := by
  obtain ⟨key, same⟩ := List.append_inj (List.cons.inj same).2
    (c.caKey.property.trans d.caKey.property.symm)
  obtain ⟨notBefore, same⟩ := List.append_inj same (by simp only [length_putUint64])
  obtain ⟨notAfter, signer⟩ := List.append_inj same (by simp only [length_putUint64])
  exact ⟨Subtype.ext key, putUint64_injective notBefore, putUint64_injective notAfter,
    Subtype.ext signer⟩

/-- `SignCert` returns the certificate it was about to sign, with a signature of
its body. -/
theorem signCert_eq_ok_iff (ed : Ed25519) (rootKP : KeyPair) (nodeID : Bytes) (pub : Key)
    (role : Bytes) (expiry : UInt64) (cert : Cert) :
    signCert ed rootKP nodeID pub role expiry = some (.ok cert) ↔
      rootKP.privateKey.length = 64 ∧
        ∃ body, (unsignedCert rootKP nodeID pub role expiry).bytes = some body ∧
          { unsignedCert rootKP nodeID pub role expiry with
            signature := ed.sign rootKP.privateKey body } = cert := by
  unfold signCert
  cases bytes : (unsignedCert rootKP nodeID pub role expiry).bytes with
  | none => simp
  | some body =>
      by_cases size : rootKP.privateKey.length = 64
      · simp [KeyPair.sign, size]
      · simp [KeyPair.sign, size]

/-- `SignCACert` returns the certificate it was about to sign, with a signature of
its body. -/
theorem signCACert_eq_ok_iff (ed : Ed25519) (rootKP : KeyPair) (caPub : Key)
    (notBefore notAfter now : UInt64) (ca : CACert) :
    signCACert ed rootKP caPub notBefore notAfter now = .ok ca ↔
      rootKP.privateKey.length = 64 ∧
        { unsignedCACert rootKP caPub notBefore notAfter now with
          signature := ed.sign rootKP.privateKey
            (unsignedCACert rootKP caPub notBefore notAfter now).bytes } = ca := by
  by_cases size : rootKP.privateKey.length = 64
  · simp [signCACert, KeyPair.sign, size]
  · simp [signCACert, KeyPair.sign, size]

/-- A CA certificate is accepted exactly if it is signed and its signer's signature verifies. -/
theorem CACert.verify_eq_ok_iff (ed : Ed25519) (c : CACert) :
    c.verify ed = .ok () ↔ c.signature ≠ [] ∧ ed.verify c.signer.val c.bytes c.signature := by
  unfold verify
  by_cases unsigned : c.signature = []
  · simp only [unsigned, ↓reduceIte, reduceCtorEq, ne_eq, not_true_eq_false, false_and]
  · cases valid : ed.verify c.signer.val c.bytes c.signature <;> simp [unsigned]

/-- A node certificate is accepted exactly if it is signed, has a body and its signer's signature
verifies. -/
theorem Cert.verifyCert_eq_ok_iff (ed : Ed25519) (c : Cert) :
    c.verifyCert ed = some (.ok ()) ↔
      c.signature ≠ [] ∧ ∃ body, c.bytes = some body ∧
        ed.verify c.signer.val body c.signature := by
  unfold verifyCert
  by_cases unsigned : c.signature = []
  · simp [unsigned]
  · cases bytes : c.bytes with
    | none => simp [unsigned]
    | some body => cases valid : ed.verify c.signer.val body c.signature <;> simp [unsigned, valid]

/-- Verification panics exactly on a signed certificate without a role. -/
theorem Cert.verifyCert_eq_none_iff (ed : Ed25519) (c : Cert) :
    c.verifyCert ed = none ↔ c.signature ≠ [] ∧ c.role = [] := by
  rw [← bytes_eq_none_iff]
  unfold verifyCert
  by_cases unsigned : c.signature = []
  · simp [unsigned]
  · cases bytes : c.bytes with
    | none => simp [unsigned]
    | some body => cases valid : ed.verify c.signer.val body c.signature <;> simp [unsigned, valid]

end P2pMesh

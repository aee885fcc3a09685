import P2pMesh.Crypto.DomainSeparation

/-! # Certificate chains over a history of signing calls

What an accepted chain says about the calls of `SignCACert` and `SignCert` that were
made, for a signature scheme whose signatures verify only for what the holder of the
key has signed. A body holds one byte of the role, and bodies of the two kinds may
coincide, so an accepted chain is exact when neither of the two bodies was signed for
another certificate (`P2pMesh.chainExact_of_unambiguous`).
-/

namespace P2pMesh

open Foundation

/-- A call of `SignCACert`, with the time at which it runs, or of `SignCert`. -/
inductive SignCall where
  | caCert (rootKP : KeyPair) (caPub : Key) (notBefore notAfter now : UInt64)
  | cert (rootKP : KeyPair) (nodeID : Bytes) (pub : Key) (role : Bytes) (expiry : UInt64)
deriving DecidableEq

/-- The key pair signs under this public key. -/
def KeyPair.Holds (kp : KeyPair) (publicKey : Bytes) : Prop :=
  kp.privateKey.length = 64 ∧ kp.privateKey.drop 32 = publicKey

instance (kp : KeyPair) (publicKey : Bytes) : Decidable (kp.Holds publicKey) :=
  inferInstanceAs (Decidable (_ ∧ _))

namespace SignCall

/-- The key pair that a call signs with. -/
def keyPair : SignCall → KeyPair
  | .caCert rootKP .. => rootKP
  | .cert rootKP .. => rootKP

/-- The byte string that the call signs; `SignCert` panics on an empty role. -/
def message : SignCall → Option Bytes
  | .caCert rootKP caPub notBefore notAfter now =>
      some (unsignedCACert rootKP caPub notBefore notAfter now).bytes
  | .cert rootKP nodeID pub role expiry => (unsignedCert rootKP nodeID pub role expiry).bytes

/-- A call signs the message under the public key. -/
def Signs (call : SignCall) (publicKey message : Bytes) : Prop :=
  call.keyPair.Holds publicKey ∧ call.message = some message

instance (call : SignCall) (publicKey message : Bytes) : Decidable (call.Signs publicKey message) :=
  inferInstanceAs (Decidable (_ ∧ _))

end SignCall

/-- A signature verifies under a key only for a byte string that the holder of the
key signed in the history. -/
def Ed25519.Unforgeable (ed : Ed25519) (history : List SignCall) : Prop :=
  ∀ publicKey message sig, ed.verify publicKey message sig = true →
    ∃ call ∈ history, call.Signs publicKey message

section

variable (ed : Ed25519) (history : List SignCall) (rootPub : Key)

/-- The holder of the root key issued a CA certificate with these fields. -/
def IssuedCA (ca : CACert) : Prop :=
  ∃ rootKP caPub notBefore notAfter now issued,
    .caCert rootKP caPub notBefore notAfter now ∈ history ∧ rootKP.Holds rootPub.val ∧
    signCACert ed rootKP caPub notBefore notAfter now = .ok issued ∧
    issued.caKey = ca.caKey ∧ issued.notBefore = ca.notBefore ∧ issued.notAfter = ca.notAfter

/-- The holder of the CA key issued a node certificate with these fields. -/
def IssuedNode (caKey : Key) (cert : Cert) : Prop :=
  ∃ caKP nodeID pub role expiry issued,
    .cert caKP nodeID pub role expiry ∈ history ∧ caKP.Holds caKey.val ∧
    signCert ed caKP nodeID pub role expiry = some (.ok issued) ∧
    issued.nodeID = cert.nodeID ∧ issued.pubKey = cert.pubKey ∧ issued.role = cert.role ∧
    issued.expiry = cert.expiry

/-- `ChainVerify` does not panic, and what it accepts was issued with exactly these
fields and is valid at the time. -/
def ChainExact (ca : Option CACert) (cert : Option Cert) (timeNow : UInt64) : Prop :=
  chainVerify ed rootPub ca cert timeNow ≠ none ∧
    (chainVerify ed rootPub ca cert timeNow = some (.ok ()) →
      ∃ a c, ca = some a ∧ cert = some c ∧
        IssuedCA ed history rootPub a ∧ a.notBefore ≤ timeNow ∧ timeNow < a.notAfter ∧
        IssuedNode ed history a.caKey c ∧ (c.expiry = 0 ∨ timeNow < c.expiry))

/-- The checks that `ChainVerify` makes before it reads the role of the node
certificate. -/
def Presented (ca : CACert) (cert : Cert) (timeNow : UInt64) : Prop :=
  ca.signer = rootPub ∧ ca.verify ed = .ok () ∧ ca.notBefore ≤ timeNow ∧
    timeNow < ca.notAfter ∧ cert.signer = ca.caKey ∧ cert.signature ≠ []

/-- The call signed neither of the two bodies for another certificate. -/
def SignCall.Unambiguous (ca : CACert) (cert : Cert) : SignCall → Prop
  | .caCert rootKP caPub notBefore notAfter now =>
      rootKP.Holds ca.caKey.val →
        cert.bytes ≠ some (unsignedCACert rootKP caPub notBefore notAfter now).bytes
  | .cert rootKP nodeID pub role expiry =>
      (rootKP.Holds rootPub.val →
        (unsignedCert rootKP nodeID pub role expiry).bytes ≠ some ca.bytes) ∧
      (rootKP.Holds ca.caKey.val →
        (unsignedCert rootKP nodeID pub role expiry).bytes = cert.bytes → role = cert.role)

end

variable {ed : Ed25519} {history : List SignCall} {rootPub : Key}

/-- Once the checks before the role are passed, the verdict is that on the node certificate and its
expiry. -/
theorem chainVerify_of_presented {ca : CACert} {cert : Cert} {timeNow : UInt64}
    (presented : Presented ed rootPub ca cert timeNow) :
    chainVerify ed rootPub (some ca) (some cert) timeNow =
      match cert.verifyCert ed with
      | none => none
      | some (.error cause) => some (.error cause)
      | some (.ok ()) =>
          if cert.expiry ≠ 0 ∧ cert.expiry ≤ timeNow then some (.error .expired)
          else some (.ok ()) := by
  obtain ⟨signer, valid, early, late, issuer, _⟩ := presented
  have notEarly : ¬ timeNow < ca.notBefore := UInt64.not_lt.mpr early
  have notLate : ¬ ca.notAfter ≤ timeNow := UInt64.not_le.mpr late
  rcases verified : cert.verifyCert ed with _ | cause | ⟨⟩
  all_goals
    simp only [chainVerify, signer, ne_eq, not_true_eq_false, ↓reduceIte, valid, notEarly, notLate,
      issuer, verified]

/-- A chain that fails one of the first checks is refused with an error. -/
theorem chainVerify_of_not_presented {ca : CACert} {cert : Cert} {timeNow : UInt64}
    (refused : ¬ Presented ed rootPub ca cert timeNow) :
    ∃ cause, chainVerify ed rootPub (some ca) (some cert) timeNow = some (.error cause) := by
  by_cases signer : ca.signer = rootPub
  · cases valid : ca.verify ed with
    | error cause => exact ⟨cause, by simp [chainVerify, signer, valid]⟩
    | ok _ =>
        by_cases early : timeNow < ca.notBefore
        · exact ⟨.notYetValid, by simp [chainVerify, signer, valid, early]⟩
        · by_cases late : ca.notAfter ≤ timeNow
          · exact ⟨.caExpired, by simp [chainVerify, signer, valid, early, late]⟩
          · by_cases issuer : cert.signer = ca.caKey
            · have unsigned : cert.signature = [] := by
                by_contra signed
                exact refused ⟨signer, valid, UInt64.not_lt.mp early, UInt64.not_le.mp late,
                  issuer, signed⟩
              refine ⟨.noSignature, ?_⟩
              simp [chainVerify, signer, valid, early, late, issuer, Cert.verifyCert, unsigned]
            · exact ⟨.otherCA, by simp [chainVerify, signer, valid, early, late, issuer]⟩
  · exact ⟨.untrustedRoot, by simp [chainVerify, signer]⟩

/-- `ChainVerify` panics exactly on a presented node certificate without a role. -/
theorem chainVerify_eq_none_iff (ca : CACert) (cert : Cert) (timeNow : UInt64) :
    chainVerify ed rootPub (some ca) (some cert) timeNow = none ↔
      Presented ed rootPub ca cert timeNow ∧ cert.role = [] := by
  by_cases presented : Presented ed rootPub ca cert timeNow
  · have signed := presented.2.2.2.2.2
    have panics := cert.verifyCert_eq_none_iff ed
    rw [chainVerify_of_presented presented]
    cases outcome : cert.verifyCert ed with
    | none => simpa [presented, signed, outcome] using panics
    | some result =>
        rw [outcome] at panics
        have named : cert.role ≠ [] := by simpa [signed] using panics
        cases result with
        | error cause => simp [named]
        | ok _ => simp [named, apply_ite (· = none)]
  · obtain ⟨cause, refused⟩ := chainVerify_of_not_presented presented
    simp [refused, presented]

/-- What the chain checks have established when `ChainVerify` accepts. -/
theorem accepted_of_chainVerify {ca : CACert} {cert : Cert} {timeNow : UInt64}
    (accepted : chainVerify ed rootPub (some ca) (some cert) timeNow = some (.ok ())) :
    Presented ed rootPub ca cert timeNow ∧ cert.verifyCert ed = some (.ok ()) ∧
      (cert.expiry = 0 ∨ timeNow < cert.expiry) := by
  by_cases presented : Presented ed rootPub ca cert timeNow
  · rw [chainVerify_of_presented presented] at accepted
    cases outcome : cert.verifyCert ed with
    | none => simp [outcome] at accepted
    | some result =>
        cases result with
        | error cause => simp [outcome] at accepted
        | ok _ =>
            refine ⟨presented, rfl, ?_⟩
            by_cases unexpired : cert.expiry ≠ 0 ∧ cert.expiry ≤ timeNow
            · simp [outcome, unexpired] at accepted
            · rcases not_and_or.mp unexpired with never | later
              · exact Or.inl (not_not.mp never)
              · exact Or.inr (UInt64.not_le.mp later)
  · obtain ⟨cause, refused⟩ := chainVerify_of_not_presented presented
    simp [refused] at accepted

/-- A call that signed the body of a CA certificate, and signs no node certificate with
that body, issued a CA certificate with its fields. -/
theorem issuedCA_of_signs {ca : CACert} {cert : Cert} {call : SignCall}
    (member : call ∈ history) (signs : call.Signs rootPub.val ca.bytes)
    (clear : call.Unambiguous rootPub ca cert) : IssuedCA ed history rootPub ca := by
  obtain ⟨holds, message⟩ := signs
  cases call with
  | cert rootKP nodeID pub role expiry => exact absurd message (clear.1 holds)
  | caCert rootKP caPub notBefore notAfter now =>
      obtain ⟨key, before, after, _⟩ := CACert.bytes_inj (Option.some.inj message)
      have signed : signCACert ed rootKP caPub notBefore notAfter now = .ok _ :=
        (signCACert_eq_ok_iff _ _ _ _ _ _ _).mpr ⟨holds.1, rfl⟩
      exact ⟨rootKP, caPub, notBefore, notAfter, now, _, member, holds, signed, key, before, after⟩

/-- A body that the CA key signed unambiguously was issued as this certificate. -/
theorem issuedNode_of_signs {ca : CACert} {cert : Cert} {call : SignCall} {body : Bytes}
    (member : call ∈ history) (signs : call.Signs ca.caKey.val body)
    (bytes : cert.bytes = some body) (clear : call.Unambiguous rootPub ca cert) :
    IssuedNode ed history ca.caKey cert := by
  obtain ⟨holds, message⟩ := signs
  cases call with
  | caCert rootKP caPub notBefore notAfter now =>
      exact absurd (bytes.trans message.symm) (clear holds)
  | cert caKP nodeID pub role expiry =>
      have sameRole : role = cert.role := clear.2 holds (message.trans bytes.symm)
      have named : cert.role ≠ [] := by
        intro empty
        rw [(Cert.bytes_eq_none_iff cert).mpr empty] at bytes
        contradiction
      obtain ⟨first, rest, _, shown⟩ := Cert.bytes_of_role named
      obtain ⟨first', rest', _, signed⟩ :=
        Cert.bytes_of_role (c := unsignedCert caKP nodeID pub role expiry)
          (by rw [unsignedCert, sameRole]; exact named)
      have same : (unsignedCert caKP nodeID pub role expiry).body first' = cert.body first := by
        rw [← Option.some.injEq, ← signed, ← shown, bytes]
        exact message
      obtain ⟨node, pubKey, _, expires, _⟩ := Cert.body_inj same
      have issued : signCert ed caKP nodeID pub role expiry = some (.ok _) :=
        (signCert_eq_ok_iff _ _ _ _ _ _ _).mpr ⟨holds.1, _, message, rfl⟩
      exact ⟨caKP, nodeID, pub, role, expiry, _, member, holds, issued, node, pubKey, sameRole,
        expires⟩

/-- `ChainVerify` is exact on certificates whose bodies were signed for no other
certificate, when the node certificate that it comes to has a role. -/
theorem chainExact_of_unambiguous (ed : Ed25519) (history : List SignCall)
    (unforgeable : ed.Unforgeable history) (rootPub : Key) (ca : Option CACert)
    (cert : Option Cert) (timeNow : UInt64)
    (clear : ∀ a c, ca = some a → cert = some c → Presented ed rootPub a c timeNow →
      c.role ≠ [] ∧ ∀ call ∈ history, call.Unambiguous rootPub a c) :
    ChainExact ed history rootPub ca cert timeNow := by
  cases ca with
  | none => exact ⟨by simp [chainVerify], fun accepted => by simp [chainVerify] at accepted⟩
  | some a =>
      cases cert with
      | none => exact ⟨by simp [chainVerify], fun accepted => by simp [chainVerify] at accepted⟩
      | some c =>
          constructor
          · rw [Ne, chainVerify_eq_none_iff]
            rintro ⟨presented, roleless⟩
            exact (clear a c rfl rfl presented).1 roleless
          · intro accepted
            obtain ⟨presented, verified, unexpired⟩ := accepted_of_chainVerify accepted
            obtain ⟨_, distinct⟩ := clear a c rfl rfl presented
            obtain ⟨signer, valid, early, late, issuer, _⟩ := presented
            obtain ⟨_, caValid⟩ := (CACert.verify_eq_ok_iff _ _).mp valid
            obtain ⟨_, body, bytes, nodeValid⟩ := (Cert.verifyCert_eq_ok_iff _ _).mp verified
            obtain ⟨caCall, caMember, caSigns⟩ := unforgeable _ _ _ caValid
            obtain ⟨nodeCall, nodeMember, nodeSigns⟩ := unforgeable _ _ _ nodeValid
            rw [signer] at caSigns
            rw [issuer] at nodeSigns
            exact ⟨a, c, rfl, rfl, issuedCA_of_signs caMember caSigns (distinct _ caMember),
              early, late, issuedNode_of_signs nodeMember nodeSigns bytes (distinct _ nodeMember),
              unexpired⟩

/-- A scheme for concrete runs that verifies exactly the signatures of a history. -/
def historyEd25519 (history : List SignCall) : Ed25519 where
  sign := echoEd25519.sign
  verify publicKey message sig :=
    echoEd25519.verify publicKey message sig &&
      decide (∃ call ∈ history, call.Signs publicKey message)

/-- The scheme that verifies what its history signed is unforgeable. -/
theorem unforgeable_historyEd25519 (history : List SignCall) :
    (historyEd25519 history).Unforgeable history := by
  intro publicKey message sig valid
  exact of_decide_eq_true (Bool.and_eq_true_iff.mp valid).2

/-- A root that signs a CA certificate, and the CA that signs a client certificate. -/
def sampleHistory : List SignCall :=
  [.caCert (sampleKeyPair 1) (sampleKeyPair 2).signer 10 20 0,
    .cert (sampleKeyPair 2) (ascii "node-1") .zero roleClient 0]

/-- A signature scheme in which only the sample history has signed. -/
def sampleEd25519 : Ed25519 := historyEd25519 sampleHistory

/-- The CA certificate of the sample history. -/
def sampleCACert : CACert :=
  let ca := unsignedCACert (sampleKeyPair 1) (sampleKeyPair 2).signer 10 20 0
  { ca with signature := sampleEd25519.sign (sampleKeyPair 1).privateKey ca.bytes }

/-- The node certificate of the history, presented with the given role. -/
def presentedCert (role : Bytes) : Cert :=
  let cert := unsignedCert (sampleKeyPair 2) (ascii "node-1") .zero roleClient 0
  { cert with
    role := role
    signature := sampleEd25519.sign (sampleKeyPair 2).privateKey (cert.bytes.getD []) }

/-- The issued certificates form an exact chain. -/
theorem issuedChain_exact :
    chainVerify sampleEd25519 (sampleKeyPair 1).signer (some sampleCACert)
        (some (presentedCert roleClient)) 15 = some (.ok ()) ∧
      ChainExact sampleEd25519 sampleHistory (sampleKeyPair 1).signer (some sampleCACert)
        (some (presentedCert roleClient)) 15 := by
  refine ⟨by decide, ?_⟩
  apply chainExact_of_unambiguous _ _ (unforgeable_historyEd25519 sampleHistory)
  rintro a c ⟨⟩ ⟨⟩ _
  refine ⟨by decide, fun call member => ?_⟩
  rcases List.mem_pair.mp member with rfl | rfl
  · intro _
    decide
  · exact ⟨by decide, fun _ _ => rfl⟩

/-- A client certificate presented under another role with the same first byte is
accepted, and one presented without a role makes `ChainVerify` panic. -/
theorem alteredRole_not_exact :
    sampleEd25519.Unforgeable sampleHistory ∧
      ¬ ChainExact sampleEd25519 sampleHistory (sampleKeyPair 1).signer (some sampleCACert)
        (some (presentedCert (ascii "core"))) 15 ∧
      ¬ ChainExact sampleEd25519 sampleHistory (sampleKeyPair 1).signer (some sampleCACert)
        (some (presentedCert [])) 15 := by
  refine ⟨unforgeable_historyEd25519 sampleHistory, fun exact => ?_, fun exact => ?_⟩
  · have accepted : chainVerify sampleEd25519 (sampleKeyPair 1).signer (some sampleCACert)
        (some (presentedCert (ascii "core"))) 15 = some (.ok ()) := by decide
    obtain ⟨a, c, _, shown, _, _, _, issued, _⟩ := exact.2 accepted
    obtain rfl := Option.some.inj shown
    obtain ⟨caKP, nodeID, pub, role, expiry, cert, member, _, signed, _, _, sameRole, _⟩ := issued
    obtain ⟨_, body, _, rfl⟩ := (signCert_eq_ok_iff _ _ _ _ _ _ _).mp signed
    have client : role = roleClient := by
      rcases List.mem_pair.mp member with first | second
      · exact SignCall.noConfusion first
      · exact (SignCall.cert.inj second).2.2.2.1
    have altered : roleClient = ascii "core" := client.symm.trans sameRole
    exact absurd altered (by decide)
  · exact exact.1 (by decide)

end P2pMesh

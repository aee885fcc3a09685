import P2pMesh.Crypto.Certificate

/-! # Bodies of node and CA certificates

A CA body starts with the tag `0xCA`, a node body with the node ID itself. The two
kinds of bodies meet exactly at the node IDs of eight bytes that start with the tag
(`P2pMesh.Cert.domainSeparated_iff`).
-/

namespace P2pMesh

open Foundation

/-- A node ID after which a node body has the shape of a CA body. -/
def TaggedNodeID (nodeID : Bytes) : Prop :=
  nodeID.length = 8 ∧ nodeID.head? = some 0xCA

instance (nodeID : Bytes) : Decidable (TaggedNodeID nodeID) :=
  inferInstanceAs (Decidable (_ ∧ _))

/-- The body of a certificate is that of no CA certificate; what `SignCert` signs for
its fields is accepted by `CACert.Verify` for no contents, and what `SignCACert` signs
is not accepted by `VerifyCert` for it. -/
structure Cert.DomainSeparated (ed : Ed25519) (c : Cert) : Prop where
  bytes_ne : ∀ ca : CACert, c.bytes ≠ some ca.bytes
  verify_ne : ∀ rootKP cert,
    signCert ed rootKP c.nodeID c.pubKey c.role c.expiry = some (.ok cert) →
      ∀ ca : CACert, { ca with signature := cert.signature }.verify ed ≠ .ok ()
  verifyCert_ne : ∀ rootKP caPub notBefore notAfter now ca,
    signCACert ed rootKP caPub notBefore notAfter now = .ok ca →
      { c with signature := ca.signature }.verifyCert ed ≠ some (.ok ())

/-- A signature verifies only for the message it was made for. -/
def Ed25519.Binding (ed : Ed25519) : Prop :=
  ∀ privateKey message publicKey other,
    ed.verify publicKey other (ed.sign privateKey message) = true → other = message

/-- A node body is a CA body only if the node ID has its tag and its length. -/
theorem taggedNodeID_of_body_eq {c : Cert} {ca : CACert} {role : UInt8}
    (same : c.body role = ca.bytes) : TaggedNodeID c.nodeID := by
  have lengths := congrArg List.length same
  rw [Cert.length_body, CACert.length_bytes] at lengths
  have size : c.nodeID.length = 8 := by omega
  refine ⟨size, ?_⟩
  cases node : c.nodeID with
  | nil =>
      rw [node] at size
      contradiction
  | cons head tail =>
      simp only [Cert.body, CACert.bytes, node, List.cons_append] at same
      rw [List.head?_cons, (List.cons.inj same).1]

/-- After a tagged node ID, the rest of the ID, the public key and the role byte read
as a CA key and a starting time. -/
theorem exists_caCert_bytes_eq {c : Cert} (tagged : TaggedNodeID c.nodeID) (role : UInt8) :
    ∃ ca : CACert, c.body role = ca.bytes := by
  obtain ⟨size, head⟩ := tagged
  cases node : c.nodeID with
  | nil =>
      rw [node] at size
      contradiction
  | cons first tail =>
      rw [node, List.head?_cons, Option.some.injEq] at head
      have sizeTail : tail.length = 7 := by
        rw [node, List.length_cons] at size
        omega
      let fields := tail ++ (c.pubKey.val ++ [role])
      have sizeFields : fields.length = 40 := by
        simp only [fields, List.length_append, sizeTail, c.pubKey.property,
          List.length_singleton]
      have sizeKey : (fields.take 32).length = 32 := by
        rw [List.length_take]
        omega
      have sizeTime : (fields.drop 32).length = 8 := by
        rw [List.length_drop]
        omega
      refine ⟨⟨⟨fields.take 32, sizeKey⟩, uint64 (fields.drop 32), c.expiry, c.signer, []⟩, ?_⟩
      have split : fields.take 32 ++ (fields.drop 32 ++ (putUint64 c.expiry ++ c.signer.val)) =
          fields ++ (putUint64 c.expiry ++ c.signer.val) := by
        rw [← List.append_assoc, List.take_append_drop]
      simp only [CACert.bytes, putUint64_uint64 _ sizeTime, split]
      simp only [Cert.body, node, head, fields, List.cons_append, List.append_assoc]

namespace Cert

variable {ed : Ed25519} {c : Cert}

/-- Without such a node ID the body is that of no CA certificate. -/
theorem bytes_ne_of_not_tagged (untagged : ¬ TaggedNodeID c.nodeID) (ca : CACert) :
    c.bytes ≠ some ca.bytes := by
  unfold bytes
  cases c.role with
  | nil => simp only [ne_eq, reduceCtorEq, not_false_eq_true]
  | cons first rest =>
      intro same
      exact untagged (taggedNodeID_of_body_eq (Option.some.inj same))

/-- Without such a node ID neither signature passes for the other. -/
theorem domainSeparated_of_not_tagged (binding : ed.Binding)
    (untagged : ¬ TaggedNodeID c.nodeID) : c.DomainSeparated ed where
  bytes_ne := bytes_ne_of_not_tagged untagged
  verify_ne := by
    intro rootKP cert signed ca accepted
    obtain ⟨_, body, bytes, rfl⟩ := (signCert_eq_ok_iff _ _ _ _ _ _ _).mp signed
    obtain ⟨_, valid⟩ := (CACert.verify_eq_ok_iff _ _).mp accepted
    have same : ca.bytes = body := binding _ _ _ _ valid
    rw [← same] at bytes
    refine bytes_ne_of_not_tagged ?_ ca bytes
    exact untagged
  verifyCert_ne := by
    intro rootKP caPub notBefore notAfter now ca signed accepted
    obtain ⟨_, rfl⟩ := (signCACert_eq_ok_iff _ _ _ _ _ _ _).mp signed
    obtain ⟨_, body, bytes, valid⟩ := (verifyCert_eq_ok_iff _ _).mp accepted
    have same := binding _ _ _ _ valid
    rw [same] at bytes
    exact bytes_ne_of_not_tagged untagged _ bytes

/-- The two kinds of certificates are separated at a node certificate with a role
exactly when its node ID is not eight bytes that start with the tag. -/
theorem domainSeparated_iff (ed : Ed25519) (binding : ed.Binding) (c : Cert)
    (named : c.role ≠ []) :
    c.DomainSeparated ed ↔ ¬ (c.nodeID.length = 8 ∧ c.nodeID.head? = some 0xCA) := by
  constructor
  · intro separated tagged
    obtain ⟨first, rest, _, bytes⟩ := bytes_of_role named
    obtain ⟨ca, same⟩ := exists_caCert_bytes_eq tagged first
    apply separated.bytes_ne ca
    rw [bytes, same]
  · exact domainSeparated_of_not_tagged binding

end Cert

theorem binding_echoEd25519 : echoEd25519.Binding := by
  intro privateKey message publicKey other valid
  have same := of_decide_eq_true valid
  have sizes (front : Bytes) : ((front ++ Key.zero.val).take 32).length = 32 := by
    rw [List.length_take, List.length_append, Key.zero.property]
    omega
  exact (List.append_inj' same ((sizes _).trans (sizes _).symm)).1.symm

/-- A client certificate for the node ID `0xCA` followed by seven further bytes. -/
def taggedCert : Cert :=
  ⟨[0xCA, 1, 2, 3, 4, 5, 6, 7], .zero, roleClient, 9, (sampleKeyPair 1).signer, []⟩

/-- The CA certificate with the same body. -/
def taggedCACert : CACert :=
  ⟨⟨[1, 2, 3, 4, 5, 6, 7] ++ List.replicate 25 0, rfl⟩, 99, 9, (sampleKeyPair 1).signer, []⟩

/-- The signature of a node certificate is accepted on a CA certificate. -/
theorem taggedCert_accepted_as_caCert :
    taggedCert.role ≠ [] ∧ taggedCert.bytes = some taggedCACert.bytes ∧
      ∃ cert, signCert echoEd25519 (sampleKeyPair 1) taggedCert.nodeID taggedCert.pubKey
          taggedCert.role taggedCert.expiry = some (.ok cert) ∧
        { taggedCACert with signature := cert.signature }.verify echoEd25519 = .ok () := by
  refine ⟨by decide, by decide, _, rfl, ?_⟩
  decide

/-- A node ID in text is separated from every CA certificate. -/
theorem textNodeID_separated :
    { taggedCert with nodeID := ascii "node-one" }.DomainSeparated echoEd25519 :=
  (Cert.domainSeparated_iff echoEd25519 binding_echoEd25519 _ (by decide)).mpr (by decide)

end P2pMesh

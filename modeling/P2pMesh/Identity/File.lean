import P2pMesh.Types.Fingerprint

/-! # Identity files

`Load` and `Identity.Save` of `internal/identity/identity.go`. `os.ReadFile` returns a slice
of a larger array, and a slice expression may reach past the length into the array, so a
file that is cut short behind the Ed25519 key is read with zeros for what is missing
(`P2pMesh.Identity.load_eq`). What `Save` writes is loaded with the same keys
(`P2pMesh.Identity.load_save`), but among the files that are loaded only those of 97 bytes
are what `Save` would write (`P2pMesh.Identity.roundTrips_iff`).
-/

namespace P2pMesh.Identity

open Foundation

/-- A 32-byte array. -/
abbrev Array32 := { bytes : Bytes // bytes.length = 32 }

/-- `types.NodeIdentity`. -/
structure NodeIdentity where
  id : Bytes
  ed25519Pub : Bytes
  ed25519Priv : Bytes
  x25519Pub : Array32
  x25519Priv : Array32

/-- What loading takes from its surroundings: the hash, the mapping to lower case, the
derivation of X25519 public keys and the fingerprint of the machine. -/
structure Machine where
  sha256 : Bytes → Sha256.Digest
  lower : CaseMap
  x25519Public : Array32 → Except String Array32
  collectFingerprint : Except String Bytes

/-- The errors of `Load`. -/
inductive LoadError where
  | readFile (path : Bytes) (cause : String)
  | tooShort
  | version (found : UInt8)
  | keyLength
  | derive (cause : String)
  | fingerprint (cause : String)
deriving DecidableEq

/-- The text of an error, with the verbs of its arguments. -/
def LoadError.format : LoadError → String
  | .readFile _ _ => "read identity file %q: %w"
  | .tooShort => "identity file too short"
  | .version _ => "unsupported identity file version %d"
  | .keyLength => "invalid ed25519 private key length"
  | .derive _ => "derive x25519 public key: %w"
  | .fingerprint _ => "collect fingerprint: %w"

/-- The array behind the slice that `os.ReadFile` returns. It is allocated before the file
is read, with room for one byte more than the file and for 512 bytes at least. -/
def readArray (content : Bytes) : Bytes :=
  content ++ List.replicate (max 512 (content.length + 1) - content.length) 0

/-- `copy` into a new array of 32 bytes. -/
def copy32 (source : Bytes) : Array32 :=
  ⟨(source ++ List.replicate 32 0).take 32, by simp⟩

/-- `ed25519.PrivateKey.Public`; `none` is a slice out of range. -/
def publicKey (edPriv : Bytes) : Option Bytes :=
  (sliceFrom edPriv 32).map fun tail => (copy32 tail).val

/-- `Load`, with the result of reading the file; `none` is a panic. -/
def load (m : Machine) (path : Bytes) (file : Except String Bytes) :
    Option (Except LoadError NodeIdentity) :=
  match file with
  | .error cause => some (.error (.readFile path cause))
  | .ok data =>
      if data.length < 1 + 64 then some (.error .tooShort)
      else do
        let version ← data[0]?
        if version ≠ 1 then
          return .error (.version version)
        else
          -- The bounds of the slices are checked against the array.
          let edPriv ← slice (readArray data) 1 (1 + 64)
          if edPriv.length ≠ 64 then
            return .error .keyLength
          else
            let edPub ← publicKey edPriv
            let tail ← slice (readArray data) (1 + 64) (1 + 64 + 32)
            let xPriv := copy32 tail
            match m.x25519Public xPriv with
            | .error cause => return .error (.derive cause)
            | .ok xPub =>
                match m.collectFingerprint with
                | .error cause => return .error (.fingerprint cause)
                | .ok fp => do
                    let nodeID ← newNodeIDFromFingerprint m.sha256 m.lower fp
                    return .ok ⟨nodeID, edPub, edPriv, xPub, xPriv⟩

/-- The bytes that `Identity.Save` writes. -/
def save (id : NodeIdentity) : Bytes :=
  1 :: (id.ed25519Priv ++ id.x25519Priv.val)

/-- Loading the content is refused, or `Save` writes it back. -/
def RoundTrips (m : Machine) (path content : Bytes) : Prop :=
  (∃ error, load m path (.ok content) = some (.error error)) ∨
    ∃ id, load m path (.ok content) = some (.ok id) ∧ save id = content

section Reading

/-- Copying no less than 32 bytes of a string that is followed by zeros is copying the
string. -/
theorem copy32_take_append_zeros {bytes : Bytes} {zeros : Nat}
    (enough : 32 ≤ bytes.length + zeros) :
    copy32 ((bytes ++ List.replicate zeros 0).take 32) = copy32 bytes := by
  apply Subtype.ext
  have full : ((bytes ++ List.replicate zeros 0).take 32).length = 32 := by
    rw [List.length_take, List.length_append, List.length_replicate]
    omega
  have same : min (32 - bytes.length) zeros = min (32 - bytes.length) 32 := by omega
  simp only [copy32]
  rw [List.take_append_of_le_length (Nat.le_of_eq full.symm), List.take_take, Nat.min_self,
    List.take_append, List.take_append, List.take_replicate, List.take_replicate, same]

/-- A slice of 32 bytes is copied whole. -/
theorem copy32_of_length {bytes : Bytes} (length : bytes.length = 32) :
    copy32 bytes = ⟨bytes, length⟩ := by
  apply Subtype.ext
  simp only [copy32]
  rw [List.take_append_of_le_length (Nat.le_of_eq length.symm), ← length, List.take_length]

/-- The buffer of the reader has 512 bytes at least. -/
theorem length_readArray (content : Bytes) : 512 ≤ (readArray content).length := by
  rw [readArray, List.length_append, List.length_replicate]
  omega

variable {content : Bytes}

/-- The Ed25519 key is in the file. -/
theorem slice_readArray_ed25519 (enough : 65 ≤ content.length) :
    slice (readArray content) 1 (1 + 64) = some ((content.drop 1).take 64) := by
  have inside := length_readArray content
  rw [slice_eq_some (by decide) (by omega), readArray, List.take_append_of_le_length enough,
    List.drop_take]

/-- The X25519 key is as much of it as the file has, followed by zeros. -/
theorem slice_readArray_x25519 (enough : 65 ≤ content.length) :
    ∃ tail, slice (readArray content) (1 + 64) (1 + 64 + 32) = some tail ∧
      copy32 tail = copy32 (content.drop 65) := by
  have inside := length_readArray content
  refine ⟨_, slice_eq_some (by decide) (by omega), ?_⟩
  rw [readArray, List.drop_take, List.drop_append_of_le_length enough]
  apply copy32_take_append_zeros
  rw [List.length_drop]
  omega

/-- The public key is the second half of a private key. -/
theorem publicKey_of_length {edPriv : Bytes} (length : edPriv.length = 64) :
    publicKey edPriv = some (edPriv.drop 32) := by
  have half : (edPriv.drop 32).length = 32 := by
    rw [List.length_drop, length]
  rw [publicKey, sliceFrom_eq_some (by omega), Option.map_some, copy32_of_length half]

end Reading

section Loading

variable {m : Machine} {path content : Bytes}

/-- The identity that is read from a content, with the fingerprint and the public key that
are derived for it. -/
def identityOf (m : Machine) (content fp : Bytes) (xPub : Array32) : NodeIdentity where
  id := formatSegments (idCharacters (m.sha256 fp))
  ed25519Pub := ((content.drop 1).take 64).drop 32
  ed25519Priv := (content.drop 1).take 64
  x25519Pub := xPub
  x25519Priv := copy32 (content.drop 65)

theorem length_ed25519 (enough : 65 ≤ content.length) : ((content.drop 1).take 64).length = 64 := by
  rw [List.length_take, List.length_drop]
  omega

/-- Behind the checks of the length and the version only the derivations can fail. -/
theorem load_eq (enough : 65 ≤ content.length) (current : content[0]? = some 1) :
    load m path (.ok content) = some (do
      let xPub ← (m.x25519Public (copy32 (content.drop 65))).mapError .derive
      let fp ← m.collectFingerprint.mapError .fingerprint
      return identityOf m content fp xPub) := by
  have long : ¬ content.length < 1 + 64 := by omega
  have length := length_ed25519 enough
  obtain ⟨tail, sliced, copied⟩ := slice_readArray_x25519 enough
  simp only [load, long, ↓reduceIte, current, Option.bind_eq_bind, Option.bind_some, ne_eq,
    not_true_eq_false, slice_readArray_ed25519 enough, length, publicKey_of_length length, sliced,
    copied]
  cases m.x25519Public (copy32 (content.drop 65)) with
  | error cause => rfl
  | ok xPub =>
      cases m.collectFingerprint with
      | error cause => rfl
      | ok fp =>
          simp only [newNodeIDFromFingerprint_eq, Option.bind_some]
          rfl

/-- A file of fewer than 65 bytes is refused. -/
theorem load_tooShort (short : content.length < 65) :
    load m path (.ok content) = some (.error .tooShort) :=
  if_pos short

/-- A file of another version is refused. -/
theorem load_version (enough : 65 ≤ content.length) (other : content[0]? ≠ some 1) :
    ∃ found, load m path (.ok content) = some (.error (.version found)) := by
  have long : ¬ content.length < 1 + 64 := by omega
  obtain ⟨found, first⟩ : ∃ found, content[0]? = some found :=
    ⟨content[0], List.getElem?_eq_getElem (by omega)⟩
  have unknown : found ≠ 1 := by
    rintro rfl
    exact other first
  refine ⟨found, ?_⟩
  simp only [load, long, ↓reduceIte, first, Option.bind_eq_bind, Option.bind_some, ne_eq, unknown,
    not_false_eq_true]
  rfl

/-- What is loaded is written back as 97 bytes. -/
theorem length_save_identityOf (enough : 65 ≤ content.length) (fp : Bytes) (xPub : Array32) :
    (save (identityOf m content fp xPub)).length = 97 := by
  rw [save, List.length_cons, List.length_append, identityOf, length_ed25519 enough,
    (copy32 (content.drop 65)).property]

/-- A content of 97 bytes is written back as it was. -/
theorem save_identityOf (length : content.length = 97) (current : content[0]? = some 1)
    (fp : Bytes) (xPub : Array32) : save (identityOf m content fp xPub) = content := by
  have key : (content.drop 65).length = 32 := by
    rw [List.length_drop, length]
  cases content with
  | nil => cases current
  | cons version rest =>
      cases current
      have keys : (rest.take 64 ++ rest.drop 64) = rest := List.take_append_drop 64 rest
      rw [save, identityOf, copy32_of_length key]
      exact congrArg (List.cons 1) keys

/-- What `Save` writes is loaded again, with the same private keys. -/
theorem load_save {id : NodeIdentity} {xPub : Array32} {fp : Bytes}
    (whole : id.ed25519Priv.length = 64) (derived : m.x25519Public id.x25519Priv = .ok xPub)
    (collected : m.collectFingerprint = .ok fp) :
    ∃ loaded, load m path (.ok (save id)) = some (.ok loaded) ∧
      loaded.ed25519Priv = id.ed25519Priv ∧ loaded.x25519Priv = id.x25519Priv ∧
      loaded.x25519Pub = xPub := by
  have length : (save id).length = 97 := by
    rw [save, List.length_cons, List.length_append, whole, id.x25519Priv.property]
  have ed25519 : ((save id).drop 1).take 64 = id.ed25519Priv := by
    rw [save, List.drop_one, List.tail_cons, List.take_append_of_le_length (by omega), ← whole,
      List.take_length]
  have tail : (save id).drop 65 = id.x25519Priv.val := by
    rw [save, List.drop_succ_cons, ← whole, List.drop_left]
  have x25519 : copy32 ((save id).drop 65) = id.x25519Priv := by
    rw [tail, copy32_of_length id.x25519Priv.property]
  rw [load_eq (by omega) rfl, x25519, derived, collected]
  exact ⟨identityOf m (save id) fp xPub, rfl, ed25519, x25519, rfl⟩

/-- A content is refused or written back as it was just when it is too short, of another
version, without derived keys or fingerprint, or of the length that `Save` writes. -/
theorem roundTrips_iff (m : Machine) (path content : Bytes) :
    RoundTrips m path content ↔
      content.length < 65 ∨ content[0]? ≠ some 1 ∨
        (∃ cause, m.x25519Public (copy32 (content.drop 65)) = .error cause) ∨
        (∃ cause, m.collectFingerprint = .error cause) ∨ content.length = 97 := by
  by_cases short : content.length < 65
  · simp only [RoundTrips, load_tooShort short, short, true_or, iff_true]
    exact Or.inl ⟨.tooShort, rfl⟩
  have enough := Nat.le_of_not_lt short
  by_cases current : content[0]? = some 1
  · simp only [RoundTrips, load_eq enough current, short, current, ne_eq, not_true_eq_false,
      false_or]
    cases derived : m.x25519Public (copy32 (content.drop 65)) with
    | error cause => exact iff_of_true (Or.inl ⟨.derive cause, rfl⟩) (Or.inl ⟨cause, rfl⟩)
    | ok xPub =>
        cases collected : m.collectFingerprint with
        | error cause =>
            exact iff_of_true (Or.inl ⟨.fingerprint cause, rfl⟩) (Or.inr (Or.inl ⟨cause, rfl⟩))
        | ok fp =>
            -- The content is loaded, so what is left to compare is what is written back.
            have written := length_save_identityOf (m := m) enough fp xPub
            refine ⟨fun outcome => ?_, fun condition => ?_⟩
            · rcases outcome with ⟨error, refused⟩ | ⟨id, loaded, same⟩
              · cases refused
              · cases loaded
                rw [same] at written
                exact Or.inr (Or.inr written)
            · rcases condition with ⟨cause, failed⟩ | ⟨cause, failed⟩ | length
              · cases failed
              · cases failed
              · exact Or.inr ⟨_, rfl, save_identityOf length current fp xPub⟩
  · obtain ⟨found, refused⟩ : ∃ found, load m path (.ok content) = some (.error (.version found)) :=
      load_version enough current
    exact iff_of_true (Or.inl ⟨.version found, refused⟩) (Or.inr (Or.inl current))

/-- A machine whose derivations succeed. -/
def sampleMachine : Machine where
  sha256 := Sha256.sum256
  lower := .ascii
  x25519Public := .ok
  collectFingerprint := .ok (ascii "hostlinuxamd64")

/-- A file that ends behind the Ed25519 key. -/
def truncatedFile : Bytes :=
  1 :: List.replicate 64 7

/-- The file is accepted with zeros for the key it lacks, and `Save` writes another file. -/
theorem load_truncatedFile :
    truncatedFile.length = 65 ∧ ¬ RoundTrips sampleMachine (ascii "node.key") truncatedFile ∧
      ∃ id, load sampleMachine (ascii "node.key") (.ok truncatedFile) = some (.ok id) ∧
        id.x25519Priv.val = List.replicate 32 0 ∧
        save id = truncatedFile ++ List.replicate 32 0 := by
  have length : truncatedFile.length = 65 := rfl
  have read : load sampleMachine (ascii "node.key") (.ok truncatedFile) =
      some (.ok (identityOf sampleMachine truncatedFile (ascii "hostlinuxamd64")
        (copy32 (truncatedFile.drop 65)))) := load_eq (by decide) rfl
  refine ⟨length, fun outcome => ?_, _, read, rfl, rfl⟩
  rcases outcome with ⟨error, refused⟩ | ⟨id, loaded, same⟩
  · rw [read] at refused
    cases refused
  · rw [read] at loaded
    cases loaded
    have written := congrArg List.length same
    rw [length_save_identityOf (by decide), length] at written
    cases written

end Loading

end P2pMesh.Identity

import P2pMesh.Foundation.Base64Std
import P2pMesh.Foundation.JsonText
import P2pMesh.Protocol.Framing

/-! # Payloads of the control plane

The messages of `internal/protocol/proto.go` between a client and the bootstrap server, as
`encoding/json` writes and reads them: a `[]byte` is written in base64, a nil slice as `null`, and
a field with `omitempty` is left out when it is empty. The text of an error is left open.

The server reads what a client wrote (`P2pMesh.Protocol.hello_marshal`,
`P2pMesh.Protocol.auth_marshal`, `P2pMesh.Protocol.natProbe_marshal`,
`P2pMesh.Protocol.roomJoin_marshal`), and a client what the server wrote
(`P2pMesh.Protocol.challenge_marshal`, `P2pMesh.Protocol.authOK_marshal`).
-/

namespace P2pMesh.Protocol

open Foundation

/-- `MsgChallenge`. -/
def msgChallenge : MessageType := 2

/-- `MsgAuthOK`. -/
def msgAuthOK : MessageType := 4

/-- `json.Marshal`. -/
def marshal (doc : Json.Doc) : Bytes :=
  encodeRunes doc.write

/-- A `[]byte`. -/
def bytesDoc : Option Bytes → Json.Doc
  | none => .null
  | some bytes => .string (Base64.encodeStd bytes)

/-- A field with `omitempty`. -/
def omitEmpty (name : String) (text : Bytes) : List (Bytes × Json.Doc) :=
  if text = [] then [] else [(ascii name, .string text)]

section Setting

/-- A `byte`. -/
def setByte (old : UInt8) : Json.Value → Option UInt8
  | .null => some old
  | .number text =>
      if text.all Char.isDigit ∧ Nat.ofDigitChars 10 text 0 < 256 then
        some (UInt8.ofNat (Nat.ofDigitChars 10 text 0))
      else none
  | _ => none

/-- A `[]byte`: a string in base64, or a slice like others. -/
def setBytes (old : Bytes) : Json.Value → Option Bytes
  | .string chars => Base64.decodeStd (encodeRunes chars)
  | v => Json.setSlice setByte 0 old v

end Setting

section Structs

/-- The fields of a struct with their folded names. -/
abbrev Fields (Struct : Type) := List (String × (Struct → Json.Value → Option Struct))

/-- The field with a folded name. -/
def Fields.find {Struct : Type} (fields : Fields Struct) (name : List Char) :
    Option (Struct → Json.Value → Option Struct) :=
  (List.find? (fun field => field.1.toList = name) fields).map Prod.snd

/-- `json.Unmarshal` into a struct, with the text of an error. -/
def unmarshal {Struct : Type} (errorText : Bytes → String) (fields : Fields Struct)
    (zero : Struct) (body : Bytes) : Except String Struct :=
  match (Json.readText body).bind (Json.Value.record fields.find zero) with
  | some struct => .ok struct
  | none => .error (errorText body)

/-- `Hello`. -/
structure HelloPayload where
  nodeID : Bytes
  pubKey : Bytes
  cert : Bytes
  version : Bytes

/-- The fields of a `Hello`. -/
def helloFields : Fields HelloPayload :=
  [("NODE_ID", fun h v => (v.setString h.nodeID).map fun nodeID => { h with nodeID := nodeID }),
    ("PUBKEY", fun h v => (setBytes h.pubKey v).map fun pubKey => { h with pubKey := pubKey }),
    ("CERT", fun h v => (setBytes h.cert v).map fun cert => { h with cert := cert }),
    ("VERSION", fun h v =>
      (v.setString h.version).map fun version => { h with version := version })]

/-- `Auth`. -/
structure AuthPayload where
  handshakeMsg : Bytes
  nodeID : Bytes
  signature : Bytes

/-- The fields of an `Auth`. -/
def authFields : Fields AuthPayload :=
  [("HS_MSG", fun a v => (setBytes a.handshakeMsg v).map fun msg => { a with handshakeMsg := msg }),
    ("NODE_ID", fun a v => (v.setString a.nodeID).map fun nodeID => { a with nodeID := nodeID }),
    ("SIGNATURE", fun a v =>
      (setBytes a.signature v).map fun signature => { a with signature := signature })]

/-- `ServerEntry`. -/
structure ServerEntry where
  addr : Bytes
  pubKey : Bytes
  id : Bytes
deriving DecidableEq

/-- The fields of a `ServerEntry`. -/
def serverEntryFields : Fields ServerEntry :=
  [("ADDR", fun e v => (v.setString e.addr).map fun addr => { e with addr := addr }),
    ("PUBKEY", fun e v => (setBytes e.pubKey v).map fun pubKey => { e with pubKey := pubKey }),
    ("ID", fun e v => (v.setString e.id).map fun id => { e with id := id })]

/-- A `[]ServerEntry`. -/
def setServers : List ServerEntry → Json.Value → Option (List ServerEntry) :=
  Json.setSlice (fun e v => v.record serverEntryFields.find e) ⟨[], [], []⟩

/-- `Challenge`. -/
structure Challenge where
  nonce : Bytes
  serverCert : Bytes
  servers : List ServerEntry
deriving DecidableEq

/-- The fields of a `Challenge`. -/
def challengeFields : Fields Challenge :=
  [("NONCE", fun c v => (setBytes c.nonce v).map fun nonce => { c with nonce := nonce }),
    ("SERVER_CERT", fun c v =>
      (setBytes c.serverCert v).map fun cert => { c with serverCert := cert }),
    ("SERVERS", fun c v =>
      (setServers c.servers v).map fun servers => { c with servers := servers })]

/-- `AuthOK`. -/
structure AuthOK where
  ipv6Addr : Bytes
  ipv4Addr : Bytes
  roomSubnet : Bytes
  bootstrapPeers : List ServerEntry
deriving DecidableEq

/-- The fields of an `AuthOK`. -/
def authOKFields : Fields AuthOK :=
  [("IPV6_ADDR", fun a v => (v.setString a.ipv6Addr).map fun addr => { a with ipv6Addr := addr }),
    ("IPV4_ADDR", fun a v => (v.setString a.ipv4Addr).map fun addr => { a with ipv4Addr := addr }),
    ("ROOM_SUBNET", fun a v =>
      (v.setString a.roomSubnet).map fun subnet => { a with roomSubnet := subnet }),
    ("BOOTSTRAP_PEERS", fun a v =>
      (setServers a.bootstrapPeers v).map fun peers => { a with bootstrapPeers := peers })]

/-- `NATProbe`. -/
structure NATProbe where
  nodeID : Bytes
  natType : Bytes
  publicAddr : Bytes
  publicV6Addr : Bytes
  portSamples : List Int

/-- The fields of a `NATProbe`. -/
def natProbeFields : Fields NATProbe :=
  [("NODE_ID", fun p v => (v.setString p.nodeID).map fun nodeID => { p with nodeID := nodeID }),
    ("NAT_TYPE", fun p v => (v.setString p.natType).map fun type => { p with natType := type }),
    ("PUBLIC_ADDR", fun p v =>
      (v.setString p.publicAddr).map fun addr => { p with publicAddr := addr }),
    ("PUBLIC_V6_ADDR", fun p v =>
      (v.setString p.publicV6Addr).map fun addr => { p with publicV6Addr := addr }),
    ("PORT_SAMPLES", fun p v =>
      (Json.setSlice Json.Value.setInt64 0 p.portSamples v).map
        fun samples => { p with portSamples := samples })]

/-- `RoomJoin`. -/
structure RoomJoin where
  roomID : Bytes
  password : Bytes

/-- The fields of a `RoomJoin`. -/
def roomJoinFields : Fields RoomJoin :=
  [("ROOM_ID", fun j v => (v.setString j.roomID).map fun roomID => { j with roomID := roomID }),
    ("PASSWORD", fun j v =>
      (v.setString j.password).map fun password => { j with password := password })]

/-- The field of a `PunchReq`. -/
def punchReqFields : Fields Bytes :=
  [("TARGET_NODE_ID", fun target v => v.setString target)]

/-- The error of `json.Unmarshal`, when only that counts. -/
def errorOf {Struct : Type} : Except String Struct → Option String
  | .ok _ => none
  | .error cause => some cause

/-- `json.Unmarshal` at the types of the messages. -/
def jsonDecoders (errorText : Bytes → String) : Decoders where
  hello body :=
    (unmarshal errorText helloFields ⟨[], [], [], []⟩ body).map fun h => ⟨h.nodeID, h.pubKey⟩
  auth body :=
    (unmarshal errorText authFields ⟨[], [], []⟩ body).map fun a => ⟨a.nodeID, a.signature⟩
  natProbe body := errorOf (unmarshal errorText natProbeFields ⟨[], [], [], [], []⟩ body)
  roomJoin body := errorOf (unmarshal errorText roomJoinFields ⟨[], []⟩ body)
  punchReq body := errorOf (unmarshal errorText punchReqFields [] body)

/-- `json.Unmarshal` into a `Challenge`. -/
def unmarshalChallenge (errorText : Bytes → String) (body : Bytes) : Except String Challenge :=
  unmarshal errorText challengeFields ⟨[], [], []⟩ body

/-- `json.Unmarshal` into an `AuthOK`. -/
def unmarshalAuthOK (errorText : Bytes → String) (body : Bytes) : Except String AuthOK :=
  unmarshal errorText authOKFields ⟨[], [], [], []⟩ body

end Structs

/-- The version that `SendHello` sends. -/
def clientVersion : Bytes := ascii "0.1.0"

/-- The messages that a client sends, with the arguments of the calls that send them. -/
inductive ClientMessage where
  | hello (nodeID pubKey : Bytes)
  | auth (nodeID signature : Bytes)
  | natProbe (natType publicAddr : Bytes) (portSamples : List Int64)
  | roomJoin (roomID password : Bytes)
  | keepalive (timestamp : Int64)

/-- The type of a message of a client. -/
def ClientMessage.msgType : ClientMessage → MessageType
  | .hello _ _ => msgHello
  | .auth _ _ => msgAuth
  | .natProbe _ _ _ => msgNATProbe
  | .roomJoin _ _ => msgRoomJoin
  | .keepalive _ => msgKeepalive

/-- The JSON of a message of a client. -/
def ClientMessage.doc : ClientMessage → Json.Doc
  | .hello nodeID pubKey =>
      .object [(ascii "node_id", .string nodeID), (ascii "pubkey", bytesDoc (some pubKey)),
        (ascii "version", .string clientVersion)]
  | .auth nodeID signature =>
      .object [(ascii "hs_msg", bytesDoc none), (ascii "node_id", .string nodeID),
        (ascii "signature", bytesDoc (some signature))]
  | .natProbe natType publicAddr portSamples =>
      .object ((ascii "node_id", .string []) :: (ascii "nat_type", .string natType) ::
        (ascii "public_addr", .string publicAddr) ::
        if portSamples = [] then []
        else [(ascii "port_samples", .array (portSamples.map fun n => .int n.toInt))])
  | .roomJoin roomID password =>
      .object ((ascii "room_id", .string roomID) :: omitEmpty "password" password)
  | .keepalive timestamp => .object [(ascii "timestamp", .int timestamp.toInt)]

/-- The type and the body that `Encode` writes. -/
def ClientMessage.pair (m : ClientMessage) : MessageType × Bytes :=
  (m.msgType, marshal m.doc)

/-- The type of a message of the server. -/
def ServerMessage.msgType : ServerMessage → MessageType
  | .challenge _ => msgChallenge
  | .authOK _ _ _ => msgAuthOK

/-- The server sends neither a certificate nor other servers. -/
def ServerMessage.doc : ServerMessage → Json.Doc
  | .challenge nonce =>
      .object [(ascii "nonce", bytesDoc (some nonce)), (ascii "server_cert", bytesDoc none),
        (ascii "servers", .null)]
  | .authOK ipv6 ipv4 subnet =>
      .object ([(ascii "ipv6_addr", .string ipv6), (ascii "ipv4_addr", .string ipv4)] ++
        omitEmpty "room_subnet" subnet ++ [(ascii "bootstrap_peers", .null)])

/-- The type and the body that the server writes. -/
def ServerMessage.pair (m : ServerMessage) : MessageType × Bytes :=
  (m.msgType, marshal m.doc)

/-- A base64 text is written between quotes as it is. -/
theorem isPlain_encodeStd (bytes : Bytes) : Json.isPlain (Base64.encodeStd bytes) = true := by
  have plain : ∀ byte : UInt8, (byte = Base64.padChar ∨
      (Base64.stdDigitValue byte).isSome = true) → (byte < 128 ∧
        Json.escapeRune (some (Char.ofNat byte.toNat)) = [Char.ofNat byte.toNat]) := by
    intro byte
    refine forall_byte_lt (p := fun byte => (byte = Base64.padChar ∨
      (Base64.stdDigitValue byte).isSome = true) → (byte < 128 ∧
        Json.escapeRune (some (Char.ofNat byte.toNat)) = [Char.ofNat byte.toNat])) ?_ byte.toNat_lt
    decide +kernel
  rw [Json.isPlain, List.all_eq_true]
  intro byte member
  exact decide_eq_true (plain byte (Base64.mem_encodeStd member))

section RoundTrips

variable {Struct : Type} {fields : Fields Struct}

/-- Bytes survive their form in base 64. -/
theorem setBytes_bytesDoc (old bytes : Bytes) :
    setBytes old (bytesDoc (some bytes)).value = some bytes := by
  change Base64.decodeStd (encodeRunes (Json.clean (Base64.encodeStd bytes))) = _
  rw [Json.encodeRunes_clean_of_plain (isPlain_encodeStd bytes), Base64.decodeStd_encodeStd]

/-- A member is read into its field. -/
theorem setMembers_member {name : Bytes} {doc : Json.Doc} {more : List (Bytes × Json.Doc)}
    {struct changed : Struct} {set : Struct → Json.Value → Option Struct}
    (known : fields.find ((Json.clean name).map Json.foldRune) = some set)
    (changes : set struct doc.value = some changed) :
    Json.setMembers fields.find struct (Json.Doc.memberValues ((name, doc) :: more)) =
      Json.setMembers fields.find changed (Json.Doc.memberValues more) := by
  rw [Json.Doc.memberValues, Json.setMembers, Json.setMember_eq fields.find rfl known, changes,
    Option.bind_some]

/-- A text member is set in the field it names, and reading goes on. -/
theorem setMembers_string {name text : Bytes} {more : List (Bytes × Json.Doc)} {struct : Struct}
    {get : Struct → Bytes} {put : Struct → Bytes → Struct}
    (known : fields.find ((Json.clean name).map Json.foldRune) =
      some fun struct v => (v.setString (get struct)).map (put struct)) :
    Json.setMembers fields.find struct (Json.Doc.memberValues ((name, .string text) :: more)) =
      Json.setMembers fields.find (put struct (encodeRunes (Json.clean text)))
        (Json.Doc.memberValues more) :=
  setMembers_member known rfl

/-- A member with bytes is set in the field it names, and reading goes on. -/
theorem setMembers_bytes {name bytes : Bytes} {more : List (Bytes × Json.Doc)} {struct : Struct}
    {get : Struct → Bytes} {put : Struct → Bytes → Struct}
    (known : fields.find ((Json.clean name).map Json.foldRune) =
      some fun struct v => (setBytes (get struct) v).map (put struct)) :
    Json.setMembers fields.find struct
        (Json.Doc.memberValues ((name, bytesDoc (some bytes)) :: more)) =
      Json.setMembers fields.find (put struct bytes) (Json.Doc.memberValues more) := by
  apply setMembers_member known
  rw [setBytes_bytesDoc, Option.map_some]

/-- A flat object is decoded to the record that its members set. -/
theorem unmarshal_marshal {zero struct : Struct} {members : List (Bytes × Json.Doc)}
    (errorText : Bytes → String) (flat : ∀ m ∈ members, m.2.depth ≤ 1)
    (read : Json.setMembers fields.find zero (Json.Doc.memberValues members) = some struct) :
    unmarshal errorText fields zero (marshal (.object members)) = .ok struct := by
  have deep : (Json.Doc.object members).depth ≤ Json.maxNestingDepth :=
    (Json.Doc.depth_object_le flat).trans (by decide)
  have value : Json.Value.record fields.find zero (Json.Doc.object members).value =
      some struct := read
  rw [unmarshal, marshal, Json.readText_write deep, Option.bind_some, value]

end RoundTrips

/-- A written `HELLO` is decoded, with the node ID as JSON carries it. -/
theorem hello_marshal (errorText : Bytes → String) (nodeID pubKey : Bytes) :
    (jsonDecoders errorText).hello (marshal (ClientMessage.hello nodeID pubKey).doc) =
      .ok ⟨encodeRunes (Json.clean nodeID), pubKey⟩ := by
  have read : Json.setMembers helloFields.find ⟨[], [], [], []⟩ (Json.Doc.memberValues
      [(ascii "node_id", .string nodeID), (ascii "pubkey", bytesDoc (some pubKey)),
        (ascii "version", .string clientVersion)]) =
      some ⟨encodeRunes (Json.clean nodeID), pubKey, [], clientVersion⟩ :=
    (setMembers_string rfl).trans ((setMembers_bytes rfl).trans ((setMembers_string rfl).trans rfl))
  simp only [jsonDecoders, ClientMessage.doc]
  rw [unmarshal_marshal errorText (by simp [Json.Doc.depth, bytesDoc]) read]
  rfl

/-- A written `AUTH` is decoded, with the node ID as JSON carries it. -/
theorem auth_marshal (errorText : Bytes → String) (nodeID signature : Bytes) :
    (jsonDecoders errorText).auth (marshal (ClientMessage.auth nodeID signature).doc) =
      .ok ⟨encodeRunes (Json.clean nodeID), signature⟩ := by
  have read : Json.setMembers authFields.find ⟨[], [], []⟩ (Json.Doc.memberValues
      [(ascii "hs_msg", bytesDoc none), (ascii "node_id", .string nodeID),
        (ascii "signature", bytesDoc (some signature))]) =
      some ⟨[], encodeRunes (Json.clean nodeID), signature⟩ := by
    exact (setMembers_member rfl rfl).trans
      ((setMembers_string rfl).trans ((setMembers_bytes rfl).trans rfl))
  simp only [jsonDecoders, ClientMessage.doc]
  rw [unmarshal_marshal errorText (by simp [Json.Doc.depth, bytesDoc]) read]
  rfl

/-- Integers within 64 bits are read back. -/
theorem setElements_ints (samples : List Int64) :
    Json.setElements Json.Value.setInt64 0 []
      (Json.Doc.values (samples.map fun n => .int n.toInt)) = some (samples.map Int64.toInt) :=
  Json.setElements_values _ _ fun n _ => Json.parseInt64_decimal n.le_toInt n.toInt_lt

/-- A field with `omitempty` is empty when it is left out. -/
theorem setMembers_omitEmpty {Struct : Type} {fields : Fields Struct} {name : String}
    {text : Bytes} {more : List (Bytes × Json.Doc)} {struct : Struct} {get : Struct → Bytes}
    {put : Struct → Bytes → Struct}
    (known : fields.find ((Json.clean (ascii name)).map Json.foldRune) =
      some fun struct v => (v.setString (get struct)).map (put struct))
    (unset : put struct [] = struct) :
    Json.setMembers fields.find struct (Json.Doc.memberValues (omitEmpty name text ++ more)) =
      Json.setMembers fields.find (put struct (encodeRunes (Json.clean text)))
        (Json.Doc.memberValues more) := by
  unfold omitEmpty
  split
  next empty =>
    rw [empty]
    exact congrArg (Json.setMembers fields.find · _) unset.symm
  · exact setMembers_string known

theorem depth_omitEmpty (name : String) (text : Bytes) :
    ∀ m ∈ omitEmpty name text, m.2.depth ≤ 1 := by
  unfold omitEmpty
  split
  · simp
  · simp [Json.Doc.depth]

/-- A written `NAT_PROBE` is decoded without an error. -/
theorem natProbe_marshal (errorText : Bytes → String) (natType publicAddr : Bytes)
    (portSamples : List Int64) :
    (jsonDecoders errorText).natProbe
      (marshal (ClientMessage.natProbe natType publicAddr portSamples).doc) = none := by
  have samples : Json.setSlice Json.Value.setInt64 0 []
      (Json.Doc.array (portSamples.map fun n => .int n.toInt)).value =
      some (portSamples.map Int64.toInt) := setElements_ints portSamples
  have read : Json.setMembers natProbeFields.find ⟨[], [], [], [], []⟩
      (Json.Doc.memberValues ((ascii "node_id", .string []) ::
        (ascii "nat_type", .string natType) :: (ascii "public_addr", .string publicAddr) ::
        if portSamples = [] then []
        else [(ascii "port_samples", .array (portSamples.map fun n => .int n.toInt))])) =
      some ⟨[], encodeRunes (Json.clean natType), encodeRunes (Json.clean publicAddr), [],
        portSamples.map Int64.toInt⟩ := by
    refine (setMembers_string rfl).trans ((setMembers_string rfl).trans
      ((setMembers_string rfl).trans ?_))
    split
    next none =>
      rw [none]
      rfl
    · refine (setMembers_member rfl ?_).trans rfl
      exact congrArg (Option.map _) samples
  simp only [jsonDecoders, ClientMessage.doc]
  rw [unmarshal_marshal errorText ?_ read]
  · rfl
  · simp only [List.forall_mem_cons]
    refine ⟨Nat.zero_le _, Nat.zero_le _, Nat.zero_le _, ?_⟩
    split
    · simp
    · simp only [List.mem_singleton, forall_eq]
      apply Json.Doc.depth_array_le
      simp [Json.Doc.depth]

/-- A written `ROOM_JOIN` is decoded without an error. -/
theorem roomJoin_marshal (errorText : Bytes → String) (roomID password : Bytes) :
    (jsonDecoders errorText).roomJoin (marshal (ClientMessage.roomJoin roomID password).doc) =
      none := by
  have read : Json.setMembers roomJoinFields.find ⟨[], []⟩ (Json.Doc.memberValues
      ((ascii "room_id", .string roomID) :: (omitEmpty "password" password ++ []))) =
      some ⟨encodeRunes (Json.clean roomID), encodeRunes (Json.clean password)⟩ :=
    (setMembers_string rfl).trans ((setMembers_omitEmpty rfl rfl).trans rfl)
  rw [List.append_nil] at read
  simp only [jsonDecoders, ClientMessage.doc]
  rw [unmarshal_marshal errorText ?_ read]
  · rfl
  · exact List.forall_mem_cons.mpr ⟨Nat.zero_le _, depth_omitEmpty _ _⟩

/-- A client reads the nonce of a challenge. -/
theorem challenge_marshal (errorText : Bytes → String) (nonce : Bytes) :
    unmarshalChallenge errorText (marshal (ServerMessage.challenge nonce).doc) =
      .ok ⟨nonce, [], []⟩ := by
  have read : Json.setMembers challengeFields.find ⟨[], [], []⟩ (Json.Doc.memberValues
      [(ascii "nonce", bytesDoc (some nonce)), (ascii "server_cert", bytesDoc none),
        (ascii "servers", .null)]) = some ⟨nonce, [], []⟩ :=
    (setMembers_bytes rfl).trans
      ((setMembers_member rfl rfl).trans ((setMembers_member rfl rfl).trans rfl))
  exact unmarshal_marshal errorText (by simp [Json.Doc.depth, bytesDoc]) read

/-- A written `AUTH_OK` is decoded to the addresses as JSON carries them. -/
theorem authOK_marshal (errorText : Bytes → String) (ipv6 ipv4 subnet : Bytes) :
    unmarshalAuthOK errorText (marshal (ServerMessage.authOK ipv6 ipv4 subnet).doc) =
      .ok ⟨encodeRunes (Json.clean ipv6), encodeRunes (Json.clean ipv4),
        encodeRunes (Json.clean subnet), []⟩ := by
  have read : Json.setMembers authOKFields.find ⟨[], [], [], []⟩ (Json.Doc.memberValues
      ([(ascii "ipv6_addr", .string ipv6), (ascii "ipv4_addr", .string ipv4)] ++
        omitEmpty "room_subnet" subnet ++ [(ascii "bootstrap_peers", .null)])) =
      some ⟨encodeRunes (Json.clean ipv6), encodeRunes (Json.clean ipv4),
        encodeRunes (Json.clean subnet), []⟩ := by
    rw [List.append_assoc]
    exact (setMembers_string rfl).trans ((setMembers_string rfl).trans
      ((setMembers_omitEmpty rfl rfl).trans ((setMembers_member rfl rfl).trans rfl)))
  apply unmarshal_marshal errorText ?_ read
  simp only [List.forall_mem_append, List.forall_mem_cons]
  refine ⟨⟨⟨?_, ?_, ?_⟩, depth_omitEmpty _ _⟩, ?_, ?_⟩ <;> simp [Json.Doc.depth]

section Sizes

/-- A character takes four bytes at most. -/
theorem length_encodeRunes_le (chars : List Char) :
    (encodeRunes chars).length ≤ 4 * chars.length := by
  induction chars with
  | nil => exact Nat.le_refl _
  | cons c chars ih =>
      have own := Char.utf8Size_le_four c
      rw [encodeRunes, List.flatMap_cons, List.length_append, String.length_utf8EncodeChar,
        List.length_cons]
      change _ + (encodeRunes chars).length ≤ _
      omega

/-- A character takes a byte at least. -/
theorem length_le_encodeRunes (chars : List Char) : chars.length ≤ (encodeRunes chars).length := by
  induction chars with
  | nil => exact Nat.le_refl _
  | cons c chars ih =>
      have own := Char.utf8Size_pos c
      rw [encodeRunes, List.flatMap_cons, List.length_append, String.length_utf8EncodeChar,
        List.length_cons]
      change _ ≤ _ + (encodeRunes chars).length
      omega

/-- A plain text is quoted with two bytes more. -/
theorem length_quote_le {text : Bytes} (plain : Json.isPlain text = true) :
    (Json.quote text).length ≤ text.length + 2 := by
  have inner := length_le_encodeRunes (Json.clean text)
  rw [Json.encodeRunes_clean_of_plain plain] at inner
  rw [Json.quote_of_plain plain]
  simp only [List.length_cons, List.length_append, List.length_nil]
  omega

/-- The form of bytes in base 64 is at most about twice as long. -/
theorem length_bytesDoc_le (bytes : Bytes) :
    (bytesDoc (some bytes)).write.length ≤ 2 * bytes.length + 5 := by
  have quoted := length_quote_le (isPlain_encodeStd bytes)
  have encoded := Base64.length_encodeStd_le bytes
  change (Json.quote _).length ≤ _
  omega

/-- The length of a `HELLO` is bounded by the lengths of its fields. -/
theorem length_hello_le {nodeID : Bytes} (plain : Json.isPlain nodeID = true) (pubKey : Bytes) :
    (ClientMessage.hello nodeID pubKey).pair.2.length ≤
      4 * (nodeID.length + 2 * pubKey.length + 100) := by
  have id := length_quote_le plain
  have key := length_bytesDoc_le pubKey
  have names : (Json.quote (ascii "node_id")).length = 9 ∧
      (Json.quote (ascii "pubkey")).length = 8 ∧ (Json.quote (ascii "version")).length = 9 ∧
      (Json.quote clientVersion).length = 7 := by decide
  refine (length_encodeRunes_le _).trans ?_
  simp only [ClientMessage.doc, Json.Doc.write, Json.Doc.writeMembers, List.length_cons,
    List.length_append, List.length_nil, names]
  omega

/-- The length of an `AUTH` is bounded by the lengths of its fields. -/
theorem length_auth_le {nodeID : Bytes} (plain : Json.isPlain nodeID = true) (signature : Bytes) :
    (ClientMessage.auth nodeID signature).pair.2.length ≤
      4 * (nodeID.length + 2 * signature.length + 100) := by
  have id := length_quote_le plain
  have key := length_bytesDoc_le signature
  have names : (Json.quote (ascii "hs_msg")).length = 8 ∧
      (Json.quote (ascii "node_id")).length = 9 ∧ (Json.quote (ascii "signature")).length = 11 ∧
      (bytesDoc none).write.length = 4 := by decide
  refine (length_encodeRunes_le _).trans ?_
  simp only [ClientMessage.doc, Json.Doc.write, Json.Doc.writeMembers, List.length_cons,
    List.length_append, List.length_nil, names]
  omega

/-- The length of a `CHALLENGE` is bounded by that of its nonce. -/
theorem length_challenge_le (nonce : Bytes) :
    (ServerMessage.challenge nonce).pair.2.length ≤ 4 * (2 * nonce.length + 100) := by
  have key := length_bytesDoc_le nonce
  have names : (Json.quote (ascii "nonce")).length = 7 ∧
      (Json.quote (ascii "server_cert")).length = 13 ∧ (Json.quote (ascii "servers")).length = 9 ∧
      (bytesDoc none).write.length = 4 := by decide
  refine (length_encodeRunes_le _).trans ?_
  simp only [ServerMessage.doc, Json.Doc.write, Json.Doc.writeMembers, List.length_cons,
    List.length_append, List.length_nil, names]
  omega

end Sizes

end P2pMesh.Protocol

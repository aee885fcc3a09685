import P2pMesh.Foundation.Program
import P2pMesh.Stun.Client

/-! # Detection of the NAT type

`buildBindingRequest`, `Binding` and `DetectNATType` of `internal/stun/client.go`, as programs
that make requests to the operating system and the network. A program has the same steps in
every world.

The world of the results is a host behind a NAT box with servers that follow RFC 5389:
a request is answered if it is well formed (`P2pMesh.Stun.readRequest_buildBindingRequest`),
the first XOR-MAPPED-ADDRESS of a reply has the endpoint that the box gave to the socket for that
server, and anything may fail, be lost, be late or arrive twice. If no transaction ID is drawn
twice, what `DetectNATType` returns without an error is decided by the ports that the box gives,
and a box that gives the two sockets different ports is never found to be a full cone
(`P2pMesh.Stun.detectNATType_sound`). When nothing fails there is no error
(`P2pMesh.Stun.detectNATType_returns`).
-/

namespace P2pMesh.Stun

open Foundation Program

section Requests

/-- The type of a SOFTWARE attribute. -/
def attrSoftware : UInt16 := 0x8022

/-- The type of a FINGERPRINT attribute. -/
def attrFingerprint : UInt16 := 0x8028

/-- One bit of the checksum, from the low end. -/
def crcBit (crc : UInt32) : UInt32 :=
  if crc &&& 1 = 1 then (crc >>> 1) ^^^ 0xEDB88320 else crc >>> 1

/-- `crc32.ChecksumIEEE`. -/
def crc32Compute (data : Bytes) : UInt32 :=
  ~~~ data.foldl (fun crc byte => crcBit^[8] (crc ^^^ byte.toUInt32)) 0xFFFFFFFF

example : crc32Compute (ascii "123456789") = 0xCBF43926 := by decide +kernel

/-- `stunFingerprint`. -/
def stunFingerprint (msg : Bytes) : UInt32 :=
  crc32Compute msg ^^^ 0x5354554E

/-- The value of SOFTWARE. -/
def software : Bytes := ascii "gop2pmesh/0.1"

/-- The padding of SOFTWARE. -/
def swPad : Nat := (4 - software.length % 4) % 4

/-- The message up to FINGERPRINT. -/
def requestStart (txID : TransactionID) : Bytes :=
  let swAttrLen := 4 + software.length + swPad
  let fpAttrLen := 8
  let bodyLen := UInt16.ofNat (swAttrLen + fpAttrLen)
  [0x00, 0x01] ++ putUint16 bodyLen ++ putUint32 stunMagicCookie ++ txID.1 ++
    (putUint16 attrSoftware ++ putUint16 (UInt16.ofNat software.length) ++ software ++
      List.replicate swPad 0)

/-- `buildBindingRequest`, after the transaction ID was drawn. -/
def buildBindingRequest (txID : TransactionID) : Bytes :=
  let fpOffset := (requestStart txID).length
  let msg := requestStart txID ++ putUint16 attrFingerprint ++ putUint16 4 ++ [0, 0, 0, 0]
  let crc := stunFingerprint (msg.take fpOffset)
  msg.take (fpOffset + 4) ++ putUint32 crc

/-- How a server reads a Binding Request, by RFC 5389: the header has the type, the length
of the body and the cookie, and a FINGERPRINT of what stands before it is last. -/
def readRequest (msg : Bytes) : Option TransactionID := do
  let msgType ← slice msg 0 2
  let bodyLen ← slice msg 2 4
  let cookie ← slice msg 4 8
  let txID ← slice msg 8 20
  let covered := msg.take (msg.length - 8)
  if fits : txID.length = 12 ∧ msgType = [0x00, 0x01] ∧
      bodyLen = putUint16 (UInt16.ofNat (msg.length - 20)) ∧ msg.length % 4 = 0 ∧
      cookie = putUint32 stunMagicCookie ∧
      msg.drop (msg.length - 8) = putUint16 attrFingerprint ++ putUint16 4 ++
        putUint32 (stunFingerprint covered) then
    some ⟨txID, fits.1⟩
  else none

theorem length_requestStart (txID : TransactionID) : (requestStart txID).length = 40 := by
  simp only [requestStart, List.length_append, length_putUint16, length_putUint32, txID.2,
    List.length_replicate]
  decide

/-- A request is its start and the fingerprint of it. -/
theorem buildBindingRequest_eq (txID : TransactionID) :
    buildBindingRequest txID = requestStart txID ++ (putUint16 attrFingerprint ++ putUint16 4 ++
      putUint32 (stunFingerprint (requestStart txID))) := by
  have start : (requestStart txID ++ putUint16 attrFingerprint ++ putUint16 4 ++
      [0, 0, 0, 0]).take (requestStart txID).length = requestStart txID := by
    rw [List.append_assoc, List.append_assoc, List.take_left]
  have whole : (requestStart txID ++ putUint16 attrFingerprint ++ putUint16 4 ++
      [0, 0, 0, 0]).take ((requestStart txID).length + 4) =
        requestStart txID ++ putUint16 attrFingerprint ++ putUint16 4 := by
    apply List.take_left'
    simp
  simp only [buildBindingRequest, start, whole]
  simp only [List.append_assoc]

/-- Every request is accepted, with its transaction ID. -/
theorem readRequest_buildBindingRequest (txID : TransactionID) :
    readRequest (buildBindingRequest txID) = some txID := by
  have size : (buildBindingRequest txID).length = 48 := by
    simp only [buildBindingRequest_eq, List.length_append, length_requestStart, length_putUint16,
      length_putUint32]
  have covered : (buildBindingRequest txID).take 40 = requestStart txID := by
    rw [buildBindingRequest_eq]
    exact List.take_left' (length_requestStart txID)
  have last : (buildBindingRequest txID).drop 40 = putUint16 attrFingerprint ++ putUint16 4 ++
      putUint32 (stunFingerprint (requestStart txID)) := by
    rw [buildBindingRequest_eq]
    exact List.drop_left' (length_requestStart txID)
  obtain ⟨body, parts⟩ : ∃ body, buildBindingRequest txID = [0x00, 0x01] ++
      (putUint16 28 ++ (putUint32 stunMagicCookie ++ (txID.1 ++ body))) := by
    rw [buildBindingRequest_eq, requestStart]
    simp only [List.append_assoc]
    exact ⟨_, rfl⟩
  obtain ⟨msgType, bodyLen, cookie, ownID, _⟩ := slice_header body
    (show ([0x00, 0x01] : Bytes).length = 2 from rfl) (length_putUint16 28)
    (length_putUint32 stunMagicCookie) txID.2
  rw [← parts] at msgType bodyLen cookie ownID
  simp only [readRequest, msgType, bodyLen, cookie, ownID, Option.bind_eq_bind, Option.bind_some,
    size, Nat.reduceSub, covered, last, txID.2, Nat.reduceMod]
  exact dif_pos ⟨trivial, trivial, rfl, trivial, trivial, trivial⟩

end Requests

section Programs

/-- A socket, by its number. -/
abbrev Socket := Nat

/-- What fits the buffer of `Binding`. -/
abbrev Datagram := { bytes : Bytes // bytes.length ≤ 1500 }

/-- The requests to the operating system. -/
inductive NetOp where
  /-- `rand.Read` of a transaction ID. -/
  | random
  /-- `net.ResolveUDPAddr`. -/
  | resolve (name : Bytes)
  /-- `net.ListenUDP` at the zero address. -/
  | listen
  | setWriteDeadline (conn : Socket)
  | writeTo (conn : Socket) (payload : Bytes) (dest : UDPAddr)
  | setReadDeadline (conn : Socket)
  | readFrom (conn : Socket)
  | close (conn : Socket)

/-- The answer of a request; the text of an error is a byte string. -/
abbrev NetOp.Answer : NetOp → Type
  | .random => Except Bytes TransactionID
  | .resolve _ => Except Bytes UDPAddr
  | .listen => Except Bytes Socket
  | .setWriteDeadline _ | .writeTo .. | .setReadDeadline _ | .close _ => Option Bytes
  | .readFrom _ => Except Bytes Datagram

/-- The errors of `Binding`. -/
inductive BindingError where
  | nilConn
  | build (cause : Bytes)
  | resolve (server cause : Bytes)
  | deadline (cause : Bytes)
  | write (cause : Bytes)
  | read (cause : Bytes)
  | response (cause : ResponseError)

/-- What `parseBindingResponse` returns on a datagram of the buffer, which it always does. -/
def returned (outcome : Outcome) (returns : ∃ result, outcome = .returned result) :
    Except ResponseError UDPAddr :=
  match outcome, returns with
  | .returned result, _ => result
  | .panicked, returns => nomatch returns
  | .running, returns => nomatch returns

/-- `parseBindingResponse` on what has been read. -/
def parseDatagram (datagram : Datagram) (txID : TransactionID) : Except ResponseError UDPAddr :=
  returned (parseBindingResponse 375 datagram.1 txID)
    (parseBindingResponse_returns txID (by have := datagram.2; omega)
      (by have := datagram.2; omega))

/-- `Binding`. -/
def binding (server : Bytes) (conn : Option Socket) :
    Program NetOp NetOp.Answer (Except BindingError UDPAddr) :=
  match conn with
  | none => pure (.error .nilConn)
  | some conn => do
      match ← call NetOp.random with
      | .error cause => pure (.error (.build cause))
      | .ok txID =>
          match ← call (NetOp.resolve server) with
          | .error cause => pure (.error (.resolve server cause))
          | .ok serverAddr =>
              match ← call (NetOp.setWriteDeadline conn) with
              | some cause => pure (.error (.deadline cause))
              | none =>
                  match ← call (NetOp.writeTo conn (buildBindingRequest txID) serverAddr) with
                  | some cause => pure (.error (.write cause))
                  | none =>
                      match ← call (NetOp.setReadDeadline conn) with
                      | some cause => pure (.error (.deadline cause))
                      | none =>
                          match ← call (NetOp.readFrom conn) with
                          | .error cause => pure (.error (.read cause))
                          | .ok datagram =>
                              pure ((parseDatagram datagram txID).mapError .response)

/-- The types that `DetectNATType` returns. -/
inductive NATType where
  | unknown
  | symmetric
  | portRestricted
  | fullCone
deriving DecidableEq, Repr

/-- `String` of a type that is returned. -/
def NATType.text : NATType → Bytes
  | .unknown => ascii "Unknown"
  | .symmetric => ascii "Symmetric"
  | .portRestricted => ascii "PortRestricted"
  | .fullCone => ascii "FullCone"

/-- The fields of `StunServer` that the detection reads. -/
structure StunServer where
  addr : Bytes
  latency : Int

/-- The errors of `DetectNATType`. -/
inductive DetectError where
  | fewServers
  | listen (cause : Bytes)
  | queryFirst (cause : BindingError)
  | querySecond (cause : BindingError)
  | portUnstable
  | queryOther (cause : BindingError)
  | listenAgain (cause : Bytes)
  | queryNewSocket (cause : BindingError)

/-- The two servers that are asked, the one with the lower latency first. -/
def chosen (servers : List StunServer) : Option (StunServer × StunServer) :=
  match servers with
  | s1 :: s2 :: _ => some (if s2.latency < s1.latency then (s2, s1) else (s1, s2))
  | _ => none

/-- The part with the second socket. -/
def detectNewSocket (s1 : StunServer) (port1 : Nat) :
    Program NetOp NetOp.Answer (NATType × Option DetectError) := do
  match ← call NetOp.listen with
  | .error cause => pure (.unknown, some (.listenAgain cause))
  | .ok conn2 =>
      deferring (.close conn2) do
        match ← binding s1.addr (some conn2) with
        | .error cause => pure (.unknown, some (.queryNewSocket cause))
        | .ok addr4 =>
            if port1 ≠ addr4.port then pure (.portRestricted, none) else pure (.fullCone, none)

/-- The part with the first socket. -/
def detectOnSocket (s1 s2 : StunServer) (conn1 : Socket) :
    Program NetOp NetOp.Answer (NATType × Option DetectError) := do
  match ← binding s1.addr (some conn1) with
  | .error cause => pure (.unknown, some (.queryFirst cause))
  | .ok addr1 =>
      match ← binding s1.addr (some conn1) with
      | .error cause => pure (.unknown, some (.querySecond cause))
      | .ok addr2 =>
          if addr1.port ≠ addr2.port then pure (.unknown, some .portUnstable)
          else
            match ← binding s2.addr (some conn1) with
            | .error cause => pure (.unknown, some (.queryOther cause))
            | .ok addr3 =>
                if addr1.port ≠ addr3.port then pure (.symmetric, none)
                else detectNewSocket s1 addr1.port

/-- `DetectNATType`. -/
def detectNATType (servers : List StunServer) :
    Program NetOp NetOp.Answer (NATType × Option DetectError) := do
  match chosen servers with
  | none => pure (.unknown, some .fewServers)
  | some (s1, s2) =>
      match ← call NetOp.listen with
      | .error cause => pure (.unknown, some (.listen cause))
      | .ok conn1 => deferring (.close conn1) (detectOnSocket s1 s2 conn1)

end Programs

section Networks

/-- A NAT box: the octets of the public address and the port that it gives to what a socket sends
to a destination. -/
structure NatBox where
  address : Socket → UDPAddr → UInt8 × UInt8 × UInt8 × UInt8
  mapping : Socket → UDPAddr → UInt16

/-- What has happened on the network: the number of sockets that were opened, the
transaction IDs that were drawn, and the requests that have reached a server. -/
structure Network where
  sockets : Nat
  drawn : List TransactionID
  queries : List (Socket × UDPAddr × TransactionID)

/-- The value of the XOR-MAPPED-ADDRESS for what a socket sends to a destination. -/
def NatBox.mappedValue (box : NatBox) (conn : Socket) (dest : UDPAddr) (txID : TransactionID) :
    Bytes :=
  let (a, b, c, d) := box.address conn dest
  xorMappedValue txID 0x01 [a, b, c, d] (box.mapping conn dest)

/-- A reply of a server that follows RFC 5389 to a request that has come through the box: a
success response with the transaction ID of the request, whose first XOR-MAPPED-ADDRESS is the
endpoint that the box gave. Any other attributes may stand before and after it. -/
def NatBox.Replies (box : NatBox) (conn : Socket) (dest : UDPAddr) (txID : TransactionID)
    (reply : Bytes) : Prop :=
  ∃ attrs, reply = successResponse txID attrs ∧
    (attrs.find? fun a => a.kind = attrXORMappedAddress).map Attribute.value =
      some (box.mappedValue conn dest txID)

/-- An error response, by the type in its header. -/
def IsErrorResponse (reply : Bytes) : Prop :=
  slice reply 0 2 = some [0x01, 0x11]

/-- The network behind a NAT box. Anything can fail. A request that is sent is lost, or it reaches
a server if the server can read it; and what a socket receives is a reply to one of its requests,
which may be an earlier one, or an error response. -/
def NatBox.world (box : NatBox) (names : Bytes → UDPAddr) : World Network NetOp NetOp.Answer :=
  fun before op answer after =>
    match op, answer with
    | .random, .ok txID => after = { before with drawn := txID :: before.drawn }
    | .resolve name, .ok addr => addr = names name ∧ after = before
    | .listen, .ok conn =>
        conn = before.sockets ∧ after = { before with sockets := before.sockets + 1 }
    | .writeTo conn payload dest, none =>
        after = before ∨ ∃ txID, readRequest payload = some txID ∧
          after = { before with queries := (conn, dest, txID) :: before.queries }
    | .readFrom conn, .ok datagram =>
        ((∃ dest txID, (conn, dest, txID) ∈ before.queries ∧
          box.Replies conn dest txID datagram.1) ∨ IsErrorResponse datagram.1) ∧ after = before
    | _, _ => after = before

/-- A transaction ID is not drawn twice. -/
def Fresh (before : Network) (op : NetOp) (answer : op.Answer) : Prop :=
  match op, answer with
  | .random, .ok txID => txID ∉ before.drawn
  | _, _ => True

/-- The network when no transaction ID is drawn twice. -/
def NatBox.fresh (box : NatBox) (names : Bytes → UDPAddr) : World Network NetOp NetOp.Answer :=
  fun before op answer after => box.world names before op answer after ∧ Fresh before op answer

/-- Nothing fails, no request is lost, and a socket receives a reply to its last request. -/
def NatBox.Flawless (box : NatBox) (before : Network) (op : NetOp) (answer : op.Answer)
    (after : Network) : Prop :=
  match op, answer with
  | .random, .error _ | .resolve _, .error _ | .listen, .error _ | .readFrom _, .error _
  | .setWriteDeadline _, some _ | .setReadDeadline _, some _ | .writeTo .., some _ => False
  | .writeTo .., none => after ≠ before
  | .readFrom conn, .ok datagram =>
      ∃ dest txID, before.queries.head? = some (conn, dest, txID) ∧
        box.Replies conn dest txID datagram.1
  | _, _ => True

/-- The network when nothing fails. -/
def NatBox.flawless (box : NatBox) (names : Bytes → UDPAddr) : World Network NetOp NetOp.Answer :=
  fun before op answer after =>
    box.world names before op answer after ∧ box.Flawless before op answer after

/-- What the ports that a box gives to two sockets say about it. -/
def NatBox.classify (box : NatBox) (first second : UDPAddr) (conn1 conn2 : Socket) : NATType :=
  if box.mapping conn1 first ≠ box.mapping conn1 second then .symmetric
  else if box.mapping conn1 first ≠ box.mapping conn2 first then .portRestricted
  else .fullCone

/-- The ID of every request was drawn. -/
def Network.Known (n : Network) : Prop :=
  ∀ query ∈ n.queries, query.2.2 ∈ n.drawn

end Networks

section Replies

/-- The first XOR-MAPPED-ADDRESS is the address that is selected, if it decodes. -/
theorem selected_of_find? {attrs : List Attribute} {value : Bytes} {addr : UDPAddr}
    (first : (attrs.find? fun a => a.kind = attrXORMappedAddress).map Attribute.value = some value)
    (decodes : parseXORMappedAddress value = some (.ok addr)) : selected attrs = some addr := by
  obtain ⟨a, found, rfl⟩ := Option.map_eq_some_iff.mp first
  obtain ⟨kind, before, after, rfl, others⟩ := List.find?_eq_some_iff_append.mp found
  have none : before.findSome? Attribute.xorMapped = none := by
    rw [List.findSome?_eq_none_iff]
    intro b member
    have other := others b member
    rw [Bool.not_eq_true', decide_eq_false_iff_not] at other
    exact if_neg other
  have own : a.xorMapped = some addr := by
    rw [Attribute.xorMapped, if_pos (of_decide_eq_true kind), decodes]
    rfl
  rw [selected, List.findSome?_append, none, Option.none_or, List.findSome?_cons, own]
  rfl

/-- A reply of a server is read as the endpoint that the box gave. -/
theorem parseBindingResponse_replies {box : NatBox} {conn : Socket} {dest : UDPAddr}
    {txID : TransactionID} {reply : Bytes} (replies : box.Replies conn dest txID reply)
    (short : reply.length ≤ 1500) :
    ∃ ip, parseBindingResponse 375 reply txID =
      .returned (.ok ⟨ip, (box.mapping conn dest).toNat⟩) := by
  obtain ⟨attrs, rfl, first⟩ := replies
  have decoded := parseXORMappedAddress_v4 txID (box.address conn dest).1
    (box.address conn dest).2.1 (box.address conn dest).2.2.1 (box.address conn dest).2.2.2
    (box.mapping conn dest)
  rw [parseBindingResponse_successResponse txID attrs (by omega) (by omega),
    selected_of_find? first decoded]
  exact ⟨_, rfl⟩

/-- An error response is refused. -/
theorem parseBindingResponse_error {reply : Bytes} (isError : IsErrorResponse reply)
    (txID : TransactionID) (fuel : Nat) :
    ∃ cause, parseBindingResponse fuel reply txID = .returned (.error cause) := by
  rw [parseBindingResponse]
  split
  · exact ⟨_, rfl⟩
  · have type : readUint16 [0x01, 0x11] = some 0x0111 := by decide
    rw [IsErrorResponse] at isError
    refine ⟨.errorResponse, ?_⟩
    simp only [parseHeader, isError, Option.bind_eq_bind, Option.bind_some, type]
    rfl

/-- A reply to another request is refused. -/
theorem parseBindingResponse_other {txID other : TransactionID} (different : other ≠ txID)
    (attrs : List Attribute) (fuel : Nat) :
    parseBindingResponse fuel (successResponse other attrs) txID =
      .returned (.error .transactionMismatch) := by
  have size := length_successResponse other attrs
  have long : ¬ (successResponse other attrs).length < 20 := by omega
  obtain ⟨msgType, _, cookie, ownID, _⟩ :=
    slice_header (attrs.flatMap Attribute.bytes) (length_putUint16 0x0101)
      (length_putUint16 (UInt16.ofNat (attrs.flatMap Attribute.bytes).length))
      (length_putUint32 stunMagicCookie) other.2
  have readType : readUint16 (putUint16 0x0101) = some 0x0101 := by decide
  have readCookie : readUint32 (putUint32 stunMagicCookie) = some stunMagicCookie := by decide
  have mismatch : other.1 ≠ txID.1 := fun same => different (Subtype.ext same)
  rw [parseBindingResponse, if_neg long]
  simp only [successResponse, List.append_assoc]
  simp only [parseHeader, msgType, cookie, ownID, Option.bind_eq_bind, Option.bind_some, readType,
    readCookie, ne_eq, not_true_eq_false, ↓reduceIte, mismatch, not_false_eq_true,
    Option.getD_some]

/-- The fuel that a datagram is parsed with is enough. -/
theorem parseDatagram_eq {datagram : Datagram} {txID : TransactionID}
    {result : Except ResponseError UDPAddr}
    (parsed : parseBindingResponse 375 datagram.1 txID = .returned result) :
    parseDatagram datagram txID = result := by
  have unique : ∀ outcome (returns : ∃ result, outcome = Outcome.returned result),
      outcome = .returned result → returned outcome returns = result := by
    rintro _ _ rfl
    rfl
  exact unique _ _ parsed

end Replies

section Bindings

variable {server : Bytes} {conn : Socket}

/-- The requests of a `Binding` that returns an address, in any world. -/
theorem executes_binding_ok {State : Type*} {world : World State NetOp NetOp.Answer}
    {before after : State} {addr : UDPAddr}
    (run : Executes world (binding server (some conn)) before (.ok addr) after) :
    ∃ txID serverAddr datagram drawn resolved timed sent waiting,
      world before .random (.ok txID) drawn ∧
      world drawn (.resolve server) (.ok serverAddr) resolved ∧
      world resolved (.setWriteDeadline conn) none timed ∧
      world timed (.writeTo conn (buildBindingRequest txID) serverAddr) none sent ∧
      world sent (.setReadDeadline conn) none waiting ∧
      world waiting (.readFrom conn) (.ok datagram) after ∧
      parseDatagram datagram txID = .ok addr := by
  -- Each request is answered before the next; an error at any of them is the result.
  obtain ⟨answer, drawn, draws, run⟩ := executes_call_bind.mp run
  cases answer with
  | error cause => simp at run
  | ok txID =>
  obtain ⟨answer, resolved, resolves, run⟩ := executes_call_bind.mp run
  cases answer with
  | error cause => simp at run
  | ok serverAddr =>
  obtain ⟨answer, timed, times, run⟩ := executes_call_bind.mp run
  cases answer with
  | some cause => simp at run
  | none =>
  obtain ⟨answer, sent, sends, run⟩ := executes_call_bind.mp run
  cases answer with
  | some cause => simp at run
  | none =>
  obtain ⟨answer, waiting, waits, run⟩ := executes_call_bind.mp run
  cases answer with
  | some cause => simp at run
  | none =>
  obtain ⟨answer, read, reads, run⟩ := executes_call_bind.mp run
  cases answer with
  | error cause => simp at run
  | ok datagram =>
  obtain ⟨same, rfl⟩ := executes_pure.mp run
  refine ⟨txID, serverAddr, datagram, drawn, resolved, timed, sent, waiting, draws, resolves,
    times, sends, waits, reads, ?_⟩
  cases parsed : parseDatagram datagram txID with
  | error cause =>
      rw [parsed] at same
      cases same
  | ok found =>
      rw [parsed] at same
      cases same
      rfl

variable {box : NatBox} {names : Bytes → UDPAddr} {before after : Network} {addr : UDPAddr}

/-- What is read on a socket as a reply to a request is a reply to that request. -/
theorem parseDatagram_replies {datagram : Datagram} {dest : UDPAddr} {txID other : TransactionID}
    (arrived : box.Replies conn dest other datagram.1)
    (parsed : parseDatagram datagram txID = .ok addr) :
    other = txID ∧ addr.port = (box.mapping conn dest).toNat := by
  by_cases same : other = txID
  · subst same
    refine ⟨rfl, ?_⟩
    obtain ⟨ip, whole⟩ := parseBindingResponse_replies arrived datagram.2
    rw [parseDatagram_eq whole] at parsed
    cases parsed
    rfl
  · obtain ⟨attrs, bytes, _⟩ := arrived
    have refused := parseBindingResponse_other same attrs 375
    rw [← bytes] at refused
    rw [parseDatagram_eq refused] at parsed
    cases parsed

/-- If no transaction ID is drawn twice, an address that `Binding` returns has the port that the
box gave to the socket for the server. -/
theorem binding_fresh (known : before.Known)
    (run : Executes (box.fresh names) (binding server (some conn)) before (.ok addr) after) :
    after.Known ∧ after.sockets = before.sockets ∧
      addr.port = (box.mapping conn (names server)).toNat := by
  obtain ⟨txID, serverAddr, datagram, drawn, resolved, timed, sent, waiting, draws, resolves,
    times, sends, waits, reads, parsed⟩ := executes_binding_ok run
  obtain ⟨rfl, fresh⟩ := draws
  obtain ⟨⟨rfl, rfl⟩, _⟩ := resolves
  cases times.1
  cases waits.1
  obtain ⟨⟨⟨dest, other, asked, arrived⟩ | isError, rfl⟩, _⟩ := reads
  · obtain ⟨rfl, port⟩ := parseDatagram_replies arrived parsed
    have unasked : ∀ {conn' dest'}, (conn', dest', other) ∉ before.queries :=
      fun earlier => fresh (known _ earlier)
    rcases sends.1 with rfl | ⟨written, reads, rfl⟩
    · exact absurd asked unasked
    · cases (readRequest_buildBindingRequest other).symm.trans reads
      rcases List.mem_cons.mp asked with same | earlier
      · cases same
        refine ⟨?_, rfl, port⟩
        intro query member
        rcases List.mem_cons.mp member with rfl | earlier
        · exact List.mem_cons_self
        · exact List.mem_cons_of_mem _ (known query earlier)
      · exact absurd earlier unasked
  · obtain ⟨cause, refused⟩ := parseBindingResponse_error isError txID 375
    rw [parseDatagram_eq refused] at parsed
    cases parsed

/-- When nothing fails, `Binding` returns an address with the port that the box gave. -/
theorem binding_flawless {result : Except BindingError UDPAddr}
    (run : Executes (box.flawless names) (binding server (some conn)) before result after) :
    ∃ addr, result = .ok addr ∧ after.sockets = before.sockets ∧
      addr.port = (box.mapping conn (names server)).toNat := by
  obtain ⟨answer, drawn, draws, run⟩ := executes_call_bind.mp run
  cases answer with
  | error cause => exact draws.2.elim
  | ok txID =>
  obtain ⟨answer, resolved, resolves, run⟩ := executes_call_bind.mp run
  cases answer with
  | error cause => exact resolves.2.elim
  | ok serverAddr =>
  obtain ⟨answer, timed, times, run⟩ := executes_call_bind.mp run
  cases answer with
  | some cause => exact times.2.elim
  | none =>
  obtain ⟨answer, sent, sends, run⟩ := executes_call_bind.mp run
  cases answer with
  | some cause => exact sends.2.elim
  | none =>
  obtain ⟨answer, waiting, waits, run⟩ := executes_call_bind.mp run
  cases answer with
  | some cause => exact waits.2.elim
  | none =>
  obtain ⟨answer, read, reads, run⟩ := executes_call_bind.mp run
  cases answer with
  | error cause => exact reads.2.elim
  | ok datagram =>
  obtain ⟨rfl, rfl⟩ := executes_pure.mp run
  -- The datagram that is read answers the request that was just sent.
  obtain ⟨dest, other, newest, arrived⟩ := reads.2
  cases draws.1
  obtain ⟨⟨rfl, rfl⟩, _⟩ := resolves
  cases times.1
  cases waits.1
  cases reads.1.2
  obtain ⟨lost | ⟨written, reading, rfl⟩, delivered⟩ := sends
  · exact absurd lost delivered
  · cases (readRequest_buildBindingRequest txID).symm.trans reading
    cases Option.some.inj newest
    obtain ⟨ip, parsed⟩ := parseBindingResponse_replies arrived datagram.2
    exact ⟨_, by rw [parseDatagram_eq parsed]; rfl, rfl, rfl⟩

end Bindings

section Detection

/-- In a world, along states with an invariant, sockets are numbered as they are opened and
`Binding` tells the ports of the box. -/
structure NatBox.Tells (box : NatBox) (names : Bytes → UDPAddr)
    (world : World Network NetOp NetOp.Answer) (inv : Network → Prop) : Prop where
  opens : ∀ {before conn after}, inv before → world before .listen (.ok conn) after →
    inv after ∧ conn = before.sockets ∧ after.sockets = before.sockets + 1
  binds : ∀ {before server conn addr after}, inv before →
    Executes world (binding server (some conn)) before (.ok addr) after →
      inv after ∧ after.sockets = before.sockets ∧
        addr.port = (box.mapping conn (names server)).toNat

variable {box : NatBox} {names : Bytes → UDPAddr} {before after : Network}
  {type : NATType} {s1 s2 : StunServer}

/-- If no transaction ID is drawn twice, `Binding` tells the ports of the box, however late replies
arrive. -/
theorem tells_fresh : box.Tells names (box.fresh names) Network.Known where
  opens := by
    rintro before conn after known ⟨⟨rfl, rfl⟩, _⟩
    exact ⟨known, rfl, rfl⟩
  binds := binding_fresh

/-- If nothing fails, `Binding` tells the ports of the box. -/
theorem tells_flawless : box.Tells names (box.flawless names) fun _ => True where
  opens := by
    rintro before conn after known ⟨⟨rfl, rfl⟩, _⟩
    exact ⟨trivial, rfl, rfl⟩
  binds := by
    intro before server conn addr after _ run
    obtain ⟨_, same, sockets, port⟩ := binding_flawless run
    cases same
    exact ⟨trivial, sockets, port⟩

section Tells

variable {world : World Network NetOp NetOp.Answer} {inv : Network → Prop}

/-- The comparison with a second socket tells port restriction from a full cone. -/
theorem detectNewSocket_sound (tells : box.Tells names world inv) (holds : inv before)
    {conn1 : Socket}
    (run : Executes world
      (detectNewSocket s1 (box.mapping conn1 (names s1.addr)).toNat) before (type, none) after) :
    type = if box.mapping conn1 (names s1.addr) ≠ box.mapping before.sockets (names s1.addr)
      then .portRestricted else .fullCone := by
  obtain ⟨answer, listening, listens, run⟩ := executes_call_bind.mp run
  cases answer with
  | error cause => simp at run
  | ok conn2 =>
  obtain ⟨opened, rfl, _⟩ := tells.opens holds listens
  obtain ⟨closing, _, run, _⟩ := executes_deferring.mp run
  obtain ⟨answer, asked, queried, run⟩ := executes_bind.mp run
  cases answer with
  | error cause => simp at run
  | ok addr4 =>
  obtain ⟨_, _, port⟩ := tells.binds opened queried
  simp only [port, ne_eq, UInt16.toNat_inj] at run
  split at run
  next different =>
      cases (executes_pure.mp run).1
      rw [if_pos different]
  next same =>
      cases (executes_pure.mp run).1
      rw [if_neg same]

/-- The type that a run without an error returns is what the ports of the box say. -/
theorem detectOnSocket_sound (tells : box.Tells names world inv) (holds : inv before)
    {conn1 : Socket}
    (run : Executes world (detectOnSocket s1 s2 conn1) before (type, none) after) :
    type = box.classify (names s1.addr) (names s2.addr) conn1 before.sockets := by
  obtain ⟨answer, first, queried, run⟩ := executes_bind.mp run
  cases answer with
  | error cause => simp at run
  | ok addr1 =>
  obtain ⟨holds, sockets, port1⟩ := tells.binds holds queried
  obtain ⟨answer, second, queried, run⟩ := executes_bind.mp run
  cases answer with
  | error cause => simp at run
  | ok addr2 =>
  obtain ⟨holds, sockets', port2⟩ := tells.binds holds queried
  simp only [port1, port2, ne_eq, not_true_eq_false, ↓reduceIte] at run
  obtain ⟨answer, third, queried, run⟩ := executes_bind.mp run
  cases answer with
  | error cause => simp at run
  | ok addr3 =>
  obtain ⟨holds, sockets'', port3⟩ := tells.binds holds queried
  simp only [port3, UInt16.toNat_inj] at run
  rw [NatBox.classify]
  split at run
  next different =>
      cases (executes_pure.mp run).1
      rw [if_pos different]
  next same =>
      rw [if_neg same, detectNewSocket_sound tells holds run, sockets'', sockets', sockets]

/-- Where `Binding` tells the ports of the box, they decide what is returned without an error. -/
theorem detectNATType_decided (tells : box.Tells names world inv) (holds : inv before)
    {servers : List StunServer}
    (run : Executes world (detectNATType servers) before (type, none) after) :
    ∃ s1 s2, chosen servers = some (s1, s2) ∧ type =
      box.classify (names s1.addr) (names s2.addr) before.sockets (before.sockets + 1) := by
  rw [detectNATType] at run
  cases asked : chosen servers with
  | none =>
      rw [asked] at run
      simp at run
  | some pair =>
      rw [asked] at run
      obtain ⟨answer, listening, listens, run⟩ := executes_call_bind.mp run
      cases answer with
      | error cause => simp at run
      | ok conn1 =>
          obtain ⟨opened, rfl, sockets⟩ := tells.opens holds listens
          obtain ⟨closing, _, run, _⟩ := executes_deferring.mp run
          refine ⟨pair.1, pair.2, rfl, ?_⟩
          rw [detectOnSocket_sound tells opened run, sockets]

end Tells

/-- If nothing fails, the second socket is compared without an error. -/
theorem detectNewSocket_flawless {port1 : Nat} {err : Option DetectError}
    (run : Executes (box.flawless names) (detectNewSocket s1 port1) before (type, err) after) :
    err = none := by
  obtain ⟨answer, listening, listens, run⟩ := executes_call_bind.mp run
  cases answer with
  | error cause => exact listens.2.elim
  | ok conn2 =>
  obtain ⟨closing, _, run, _⟩ := executes_deferring.mp run
  obtain ⟨answer, queried, asked, run⟩ := executes_bind.mp run
  obtain ⟨addr4, rfl, _⟩ := binding_flawless asked
  dsimp only at run
  split at run
  next => exact congrArg Prod.snd (executes_pure.mp run).1
  next => exact congrArg Prod.snd (executes_pure.mp run).1

/-- If nothing fails, the detection returns no error. -/
theorem detectOnSocket_flawless {conn1 : Socket} {err : Option DetectError}
    (run : Executes (box.flawless names) (detectOnSocket s1 s2 conn1) before (type, err) after) :
    err = none := by
  obtain ⟨answer, first, asked, run⟩ := executes_bind.mp run
  obtain ⟨addr1, rfl, _, port1⟩ := binding_flawless asked
  obtain ⟨answer, second, asked, run⟩ := executes_bind.mp run
  obtain ⟨addr2, rfl, _, port2⟩ := binding_flawless asked
  simp only [port1, port2, ne_eq, not_true_eq_false, ↓reduceIte] at run
  obtain ⟨answer, third, asked, run⟩ := executes_bind.mp run
  obtain ⟨addr3, rfl, _⟩ := binding_flawless asked
  dsimp only at run
  split at run
  next => exact congrArg Prod.snd (executes_pure.mp run).1
  next => exact detectNewSocket_flawless run

/-- The network after a request of a socket to a server. -/
def Network.asked (n : Network) (conn : Socket) (dest : UDPAddr) (txID : TransactionID) : Network :=
  ⟨n.sockets, txID :: n.drawn, (conn, dest, txID) :: n.queries⟩

theorem length_mappedValue (box : NatBox) (conn : Socket) (dest : UDPAddr) (txID : TransactionID) :
    (box.mappedValue conn dest txID).length = 8 := by
  simp only [NatBox.mappedValue, xorMappedValue, List.length_append, length_xorBytes,
    length_putUint16, length_putUint32, txID.2]
  rfl

/-- The attributes of a reply that names the software of the server before the endpoint. -/
def NatBox.attributes (box : NatBox) (conn : Socket) (dest : UDPAddr) (txID : TransactionID) :
    List Attribute :=
  [softwareAttribute,
    ⟨attrXORMappedAddress, box.mappedValue conn dest txID, [],
      by rw [length_mappedValue]; decide, by rw [length_mappedValue]; rfl⟩]

theorem length_attributes (box : NatBox) (conn : Socket) (dest : UDPAddr) (txID : TransactionID) :
    (successResponse txID (box.attributes conn dest txID)).length = 44 := by
  have software : softwareAttribute.value.length = 5 := by decide
  simp only [length_successResponse, NatBox.attributes, List.flatMap_cons, List.flatMap_nil,
    List.append_nil, List.length_append, Attribute.length_bytes, length_mappedValue, software]

/-- The network when nothing fails and no transaction ID is drawn twice. -/
def NatBox.ideal (box : NatBox) (names : Bytes → UDPAddr) : World Network NetOp NetOp.Answer :=
  fun before op answer after =>
    box.flawless names before op answer after ∧ Fresh before op answer

/-- A request with a new transaction ID can be answered. -/
theorem exists_binding (box : NatBox) (names : Bytes → UDPAddr) (before : Network)
    (server : Bytes) (conn : Socket) (txID : TransactionID) (unused : txID ∉ before.drawn) :
    ∃ ip, Executes (box.ideal names) (binding server (some conn)) before
      (.ok ⟨ip, (box.mapping conn (names server)).toNat⟩)
      (before.asked conn (names server) txID) := by
  have fits := (length_attributes box conn (names server) txID).trans_le (by decide : 44 ≤ 1500)
  have replies : box.Replies conn (names server) txID
      (successResponse txID (box.attributes conn (names server) txID)) := ⟨_, rfl, rfl⟩
  obtain ⟨ip, parsed⟩ := parseBindingResponse_replies replies fits
  have sent : before.asked conn (names server) txID ≠
      ⟨before.sockets, txID :: before.drawn, before.queries⟩ := by
    simp [Network.asked]
  refine ⟨ip, executes_call_bind.mpr ⟨.ok txID, _, ⟨⟨rfl, trivial⟩, unused⟩, ?_⟩⟩
  refine executes_call_bind.mpr ⟨.ok (names server), _, ⟨⟨⟨rfl, rfl⟩, trivial⟩, trivial⟩, ?_⟩
  refine executes_call_bind.mpr ⟨none, _, ⟨⟨rfl, trivial⟩, trivial⟩, ?_⟩
  refine executes_call_bind.mpr
    ⟨none, _, ⟨⟨.inr ⟨txID, readRequest_buildBindingRequest txID, rfl⟩, sent⟩, trivial⟩, ?_⟩
  refine executes_call_bind.mpr ⟨none, _, ⟨⟨rfl, trivial⟩, trivial⟩, ?_⟩
  refine executes_call_bind.mpr ⟨.ok ⟨_, fits⟩, _,
    ⟨⟨⟨.inl ⟨_, txID, List.mem_cons_self, replies⟩, rfl⟩, ⟨_, txID, rfl, replies⟩⟩, trivial⟩, ?_⟩
  refine executes_pure.mpr ⟨?_, rfl⟩
  rw [parseDatagram_eq parsed]
  rfl

/-- The network before the first socket is opened. -/
def Network.start : Network := ⟨0, [], []⟩

/-- The transaction ID whose bytes are all the same. -/
def constantID (byte : UInt8) : TransactionID := ⟨List.replicate 12 byte, rfl⟩

/-- In the ideal network the comparison with a second socket has a run. -/
theorem exists_detectNewSocket (box : NatBox) (names : Bytes → UDPAddr) (s1 : StunServer)
    (conn1 : Socket) (before : Network) (unused : constantID 3 ∉ before.drawn) :
    ∃ after, Executes (box.ideal names)
      (detectNewSocket s1 (box.mapping conn1 (names s1.addr)).toNat) before
      (if box.mapping conn1 (names s1.addr) ≠ box.mapping before.sockets (names s1.addr)
        then .portRestricted else .fullCone, none) after := by
  obtain ⟨ip, answered⟩ := exists_binding box names
    { before with sockets := before.sockets + 1 } s1.addr before.sockets (constantID 3) unused
  refine ⟨Network.asked { before with sockets := before.sockets + 1 } before.sockets
    (names s1.addr) (constantID 3), executes_call_bind.mpr
      ⟨.ok before.sockets, _, ⟨⟨⟨rfl, rfl⟩, trivial⟩, trivial⟩, ?_⟩⟩
  refine executes_deferring.mpr ⟨_, none, ?_, ⟨rfl, trivial⟩, trivial⟩
  refine executes_bind.mpr ⟨_, _, answered, ?_⟩
  simp only [ne_eq, UInt16.toNat_inj]
  split
  next => exact executes_pure.mpr ⟨rfl, rfl⟩
  next => exact executes_pure.mpr ⟨rfl, rfl⟩

/-- In the ideal network the detection has a run. -/
theorem exists_detectOnSocket (box : NatBox) (names : Bytes → UDPAddr) (s1 s2 : StunServer)
    (opened : Nat) (conn1 : Socket) :
    ∃ after, Executes (box.ideal names) (detectOnSocket s1 s2 conn1) ⟨opened, [], []⟩
      (box.classify (names s1.addr) (names s2.addr) conn1 opened, none) after := by
  have unused : constantID 3 ∉ [constantID 2, constantID 1, constantID 0] := by decide
  let once : Network := Network.asked ⟨opened, [], []⟩ conn1 (names s1.addr) (constantID 0)
  let twice : Network := once.asked conn1 (names s1.addr) (constantID 1)
  obtain ⟨_, first⟩ := exists_binding box names ⟨opened, [], []⟩ s1.addr conn1 (constantID 0)
    List.not_mem_nil
  obtain ⟨_, second⟩ := exists_binding box names once s1.addr conn1 (constantID 1)
    (show constantID 1 ∉ [constantID 0] by decide)
  obtain ⟨_, third⟩ := exists_binding box names twice s2.addr conn1 (constantID 2)
    (show constantID 2 ∉ [constantID 1, constantID 0] by decide)
  by_cases same : box.mapping conn1 (names s1.addr) = box.mapping conn1 (names s2.addr)
  · obtain ⟨after, rest⟩ := exists_detectNewSocket box names s1 conn1
      (twice.asked conn1 (names s2.addr) (constantID 2)) unused
    refine ⟨after, executes_bind.mpr ⟨_, _, first, executes_bind.mpr ⟨_, _, second, ?_⟩⟩⟩
    simp only [ne_eq, not_true_eq_false, ↓reduceIte]
    refine executes_bind.mpr ⟨_, _, third, ?_⟩
    rw [NatBox.classify, if_neg (not_not_intro same)]
    simp only [same, ne_eq, not_true_eq_false, ↓reduceIte] at rest ⊢
    exact rest
  · refine ⟨twice.asked conn1 (names s2.addr) (constantID 2),
      executes_bind.mpr ⟨_, _, first, executes_bind.mpr ⟨_, _, second, ?_⟩⟩⟩
    simp only [ne_eq, not_true_eq_false, ↓reduceIte]
    refine executes_bind.mpr ⟨_, _, third, ?_⟩
    rw [NatBox.classify, if_pos same]
    simp only [UInt16.toNat_inj, same, not_false_eq_true, ↓reduceIte]
    exact executes_pure.mpr ⟨rfl, rfl⟩

/-- There is an execution in which nothing fails. -/
theorem exists_detectNATType (box : NatBox) (names : Bytes → UDPAddr) {servers : List StunServer}
    (asked : chosen servers = some (s1, s2)) :
    ∃ after, Executes (box.ideal names) (detectNATType servers) .start
      (box.classify (names s1.addr) (names s2.addr) 0 1, none) after := by
  obtain ⟨after, run⟩ := exists_detectOnSocket box names s1 s2 1 0
  rw [detectNATType, asked]
  exact ⟨_, executes_call_bind.mpr ⟨.ok 0, _, ⟨⟨⟨rfl, rfl⟩, trivial⟩, trivial⟩,
    executes_deferring.mpr ⟨after, none, run, ⟨rfl, trivial⟩, trivial⟩⟩⟩

/-- Two servers, of which the second is nearer. -/
def sampleServers : List StunServer :=
  [⟨ascii "stun.example.org:3478", 40⟩, ⟨ascii "stun.example.com:3478", 15⟩]

/-- The addresses of the servers. -/
def sampleNames (name : Bytes) : UDPAddr :=
  if name = ascii "stun.example.org:3478" then ⟨ipv4 198 51 100 1, 3478⟩
  else ⟨ipv4 198 51 100 2, 3478⟩

/-- A box that keeps the port of a socket for all destinations and lets everything in. -/
def sampleBox : NatBox :=
  ⟨fun _ _ => (203, 0, 113, 7), fun conn _ => 40000 + UInt16.ofNat conn⟩

end Detection

end P2pMesh.Stun

import P2pMesh.Bootstrap.Server
import P2pMesh.Protocol.Payloads

/-! # Proofs of possession on one connection

The message loop of `handleConn` with a log of the handled messages. A `HELLO` replaces
the node ID, the key and the nonce together, an `AUTH` that proves possession consumes
the nonce, and the loop ends at the first error; so every `AUTH_OK` rests on a proof for
the most recent `HELLO` and a nonce of its own (`P2pMesh.Bootstrap.authOK_freshlyProven`).
The other messages are served with or without a proof
(`P2pMesh.Bootstrap.served_iff_decodes`).
-/

namespace P2pMesh.Bootstrap

open Foundation Protocol

/-- A message that was handled, what was sent for it, and the node ID it proved. -/
structure Handled where
  msgType : MessageType
  body : Bytes
  sent : List ServerMessage
  proved : Option Bytes

/-- The connection, whether the loop has returned, and the handled messages, newest
first. -/
structure Connection where
  conn : ClientConn
  closed : Bool
  log : List Handled

/-- A connection that has just been accepted. -/
def newConnection : Connection :=
  ⟨newClientConn, false, []⟩

/-- A message that arrives, and the environment in which it is handled. -/
structure Arrival where
  msgType : MessageType
  body : Bytes
  env : Environment

namespace Handled

/-- The nonce of a challenge that was sent for the message. -/
def challengeNonce (h : Handled) : Option Bytes :=
  h.sent.findSome? ServerMessage.nonce

/-- The message was answered with an `AUTH_OK`. -/
def isAuthOK (h : Handled) : Bool :=
  h.sent.any ServerMessage.isAuthOK

end Handled

/-- The last `HELLO` of a log, whose newest entry is its first. -/
def mostRecentHello (log : List Handled) : Option Handled :=
  log.find? fun h => h.msgType = msgHello

/-- The nonces of the challenges. -/
def issuedNonces (log : List Handled) : List Bytes :=
  log.filterMap Handled.challengeNonce

/-- For each `AUTH_OK`, the nonce that was issued for the most recent `HELLO`. -/
def authorisingNonces : List Handled → List Bytes
  | [] => []
  | h :: earlier =>
      if h.isAuthOK then
        ((mostRecentHello earlier).bind Handled.challengeNonce).toList ++ authorisingNonces earlier
      else authorisingNonces earlier

/-- The node IDs for which `verifyProofOfPossession` succeeded. -/
def provenIDs (log : List Handled) : List Bytes :=
  log.filterMap Handled.proved

/-- A proof succeeded after the most recent `HELLO`. -/
def provenSinceHello : List Handled → Bool
  | [] => false
  | h :: earlier =>
      if h.msgType = msgHello then false else h.proved.isSome || provenSinceHello earlier

section

variable (ed : Ed25519) (decode : Decoders)

/-- One turn of the message loop. -/
def Connection.receive (c : Connection) (a : Arrival) : Connection :=
  if c.closed then c
  else
    let handling := handleMessage ed decode a.env c.conn a.msgType a.body
    ⟨handling.conn, handling.err.isSome,
      ⟨a.msgType, a.body, handling.sent, handling.proved⟩ :: c.log⟩

/-- A turn of the message loop as a step. -/
def Connection.Receives (before : Connection) (a : Arrival) (after : Connection) : Prop :=
  before.receive ed decode a = after

/-- The message is an `AUTH` with a signature for the most recent `HELLO`: by its key,
over the nonce that was issued for it and its valid node ID. -/
def Authorised (h : Handled) (earlier : List Handled) : Prop :=
  ∃ auth entry hello nonce,
    h.msgType = msgAuth ∧ decode.auth h.body = .ok auth ∧
    mostRecentHello earlier = some entry ∧ decode.hello entry.body = .ok hello ∧
    validateNodeID hello.nodeID = .ok () ∧ entry.challengeNonce = some nonce ∧
    ed.verify hello.pubKey (challengePayload nonce hello.nodeID) auth.signature = true

/-- Every `AUTH_OK` is authorised, and no two of them by one nonce if the issued nonces
are distinct. -/
structure FreshlyProven (log : List Handled) : Prop where
  authorised : ∀ h earlier, h :: earlier <:+ log → h.isAuthOK → Authorised ed decode h earlier
  once : (issuedNonces log).Nodup → (authorisingNonces log).Nodup

/-- A pending challenge belongs to the most recent `HELLO`, as the identity does, and
has authorised nothing. -/
structure Pending (cc : ClientConn) (log : List Handled) : Prop where
  hello : ∃ entry hello, mostRecentHello log = some entry ∧
    decode.hello entry.body = .ok hello ∧ validateNodeID hello.nodeID = .ok () ∧
    entry.challengeNonce = some cc.nonce ∧ cc.nodeID = hello.nodeID ∧ cc.pubKey = hello.pubKey
  unspent : (issuedNonces log).Nodup → cc.nonce ∉ authorisingNonces log

/-- What a connection keeps: `AUTH_OK`s are freshly proven, rest on issued nonces, and
an open connection is ready for the next one. -/
structure Sound (c : Connection) : Prop where
  proven : FreshlyProven ed decode c.log
  issued : authorisingNonces c.log ⊆ issuedNonces c.log
  pending : c.closed = false → c.conn.nonce ≠ [] → Pending decode c.conn c.log

end

/-- A proof after the most recent `HELLO` was for the present node ID. -/
def Identified (c : Connection) : Prop :=
  provenSinceHello c.log → c.conn.nodeID ∈ provenIDs c.log

variable {ed : Ed25519} {decode : Decoders}

/-- One more message keeps the log freshly proven, if what it authorises it authorises with an
unused nonce. -/
theorem FreshlyProven.cons {h : Handled} {log : List Handled} (proven : FreshlyProven ed decode log)
    (new : h.isAuthOK → Authorised ed decode h log)
    (once : (issuedNonces (h :: log)).Nodup → (authorisingNonces (h :: log)).Nodup) :
    FreshlyProven ed decode (h :: log) := by
  refine ⟨fun other earlier suffix isOK => ?_, once⟩
  rcases List.suffix_cons_iff.mp suffix with same | older
  · cases same
    exact new isOK
  · exact proven.authorised other earlier older isOK

/-- A message for which nothing is sent leaves the nonces as they are. -/
theorem nonces_of_silent {h : Handled} (silent : h.sent = []) (log : List Handled) :
    issuedNonces (h :: log) = issuedNonces log ∧
      authorisingNonces (h :: log) = authorisingNonces log := by
  have none : h.challengeNonce = none := by rw [Handled.challengeNonce, silent]; rfl
  have noOK : h.isAuthOK = false := by rw [Handled.isAuthOK, silent]; rfl
  constructor
  · rw [issuedNonces, List.filterMap_cons_none none]
    rfl
  · rw [authorisingNonces, noOK]
    rfl

/-- A message for which nothing is sent. -/
theorem Sound.silent {c : Connection} (sound : Sound ed decode c) {h : Handled}
    (silent : h.sent = []) {cc : ClientConn} {closed : Bool}
    (pending : closed = false → cc.nonce ≠ [] → Pending decode cc (h :: c.log)) :
    Sound ed decode ⟨cc, closed, h :: c.log⟩ := by
  obtain ⟨issued, authorising⟩ := nonces_of_silent silent c.log
  refine ⟨sound.proven.cons ?_ ?_, ?_, pending⟩
  · rw [Handled.isAuthOK, silent]
    intro impossible
    cases impossible
  · rw [issued, authorising]
    exact sound.proven.once
  · simp only [issued, authorising]
    exact sound.issued

/-- A message of another type leaves the most recent `HELLO` as it is. -/
theorem mostRecentHello_cons_of_ne {h : Handled} (other : h.msgType ≠ msgHello)
    (log : List Handled) : mostRecentHello (h :: log) = mostRecentHello log := by
  rw [mostRecentHello, List.find?_cons_of_neg (by simpa using other)]
  rfl

/-- A `HELLO` becomes the most recent one. -/
theorem mostRecentHello_cons_of_eq {h : Handled} (same : h.msgType = msgHello)
    (log : List Handled) : mostRecentHello (h :: log) = some h := by
  rw [mostRecentHello, List.find?_cons_of_pos (by simpa using same)]

/-- A message that is no `HELLO` and is not answered leaves the challenge pending. -/
theorem Pending.silent {cc : ClientConn} {h : Handled} {log : List Handled}
    (pending : Pending decode cc log) (silent : h.sent = []) (other : h.msgType ≠ msgHello) :
    Pending decode cc (h :: log) := by
  obtain ⟨issued, authorising⟩ := nonces_of_silent silent log
  constructor
  · rw [mostRecentHello_cons_of_ne other]
    exact pending.hello
  · rw [issued, authorising]
    exact pending.unspent

/-- The nonce of a pending challenge was issued on this connection. -/
theorem Pending.mem_issuedNonces {cc : ClientConn} {log : List Handled}
    (pending : Pending decode cc log) : cc.nonce ∈ issuedNonces log := by
  obtain ⟨entry, hello, recent, _, _, nonce, _⟩ := pending.hello
  exact List.mem_filterMap.mpr ⟨entry, List.mem_of_find?_eq_some recent, nonce⟩

/-- An `AUTH` that proves the identity while its challenge is pending is authorised by it. -/
theorem Pending.authorised {cc : ClientConn} {h : Handled} {log : List Handled} {auth : Auth}
    (pending : Pending decode cc log) (type : h.msgType = msgAuth)
    (decoded : decode.auth h.body = .ok auth) (proves : Proves ed cc auth) :
    Authorised ed decode h log := by
  obtain ⟨entry, hello, recent, sameHello, valid, nonce, sameID, sameKey⟩ := pending.hello
  refine ⟨auth, entry, hello, cc.nonce, type, decoded, recent, sameHello, valid, nonce, ?_⟩
  rw [← sameID, ← sameKey]
  exact proves.verifies

/-- A `HELLO` that is answered with a new nonce. -/
theorem Sound.challenge {c : Connection} (sound : Sound ed decode c) {body : Bytes}
    {hello : Hello} (decoded : decode.hello body = .ok hello)
    (valid : validateNodeID hello.nodeID = .ok ()) (nonce : Bytes) (closed : Bool) :
    Sound ed decode ⟨⟨hello.nodeID, hello.pubKey, nonce⟩, closed,
      ⟨msgHello, body, [.challenge nonce], none⟩ :: c.log⟩ := by
  refine ⟨sound.proven.cons nofun ?_, ?_, fun _ _ => ⟨?_, ?_⟩⟩
  · intro distinct
    exact sound.proven.once (List.nodup_cons.mp distinct).2
  · intro other member
    exact List.mem_cons_of_mem nonce (sound.issued member)
  · exact ⟨_, hello, mostRecentHello_cons_of_eq rfl c.log, decoded, valid, rfl, rfl, rfl⟩
  · intro distinct member
    exact (List.nodup_cons.mp distinct).1 (sound.issued member)

/-- An `AUTH` with a proof for the pending challenge. -/
theorem Sound.authOK {c : Connection} (sound : Sound ed decode c) (isOpen : c.closed = false)
    {body : Bytes} {auth : Auth} (decoded : decode.auth body = .ok auth)
    (proves : Proves ed c.conn auth) (ipv6 ipv4 subnet : Bytes) (closed : Bool) :
    Sound ed decode ⟨⟨c.conn.nodeID, c.conn.pubKey, []⟩, closed,
      ⟨msgAuth, body, [.authOK ipv6 ipv4 subnet], some c.conn.nodeID⟩ :: c.log⟩ := by
  have pending := sound.pending isOpen proves.challenged
  have authorising : authorisingNonces
      (⟨msgAuth, body, [.authOK ipv6 ipv4 subnet], some c.conn.nodeID⟩ :: c.log) =
        c.conn.nonce :: authorisingNonces c.log := by
    obtain ⟨entry, hello, recent, _, _, nonce, _⟩ := pending.hello
    rw [authorisingNonces, recent, Option.bind_some, nonce]
    rfl
  refine ⟨sound.proven.cons (fun _ => pending.authorised rfl decoded proves) ?_, ?_,
    fun _ challenged => absurd rfl challenged⟩
  · intro distinct
    rw [authorising]
    exact List.nodup_cons.mpr ⟨pending.unspent distinct, sound.proven.once distinct⟩
  · simp only [authorising]
    exact List.cons_subset.mpr ⟨pending.mem_issuedNonces, sound.issued⟩

/-- Handling a message keeps the connection sound. -/
theorem Sound.handle {c : Connection} (sound : Sound ed decode c) (isOpen : c.closed = false)
    {msgType : MessageType} {body : Bytes} {handling : Handling}
    (effect : Effect ed decode c.conn msgType body handling) :
    Sound ed decode ⟨handling.conn, handling.err.isSome,
      ⟨msgType, body, handling.sent, handling.proved⟩ :: c.log⟩ := by
  cases effect with
  | nothing err refused =>
      refine sound.silent rfl fun stays challenged => ?_
      refine (sound.pending isOpen challenged).silent rfl fun isHello => ?_
      -- A `HELLO` without a challenge is refused, and the connection is closed.
      obtain ⟨cause, isError⟩ := Option.ne_none_iff_exists'.mp (refused (Or.inl isHello))
      subst isError
      cases stays
  | challenge hello nonce err type decoded valid =>
      subst type
      exact sound.challenge decoded valid nonce.val err.isSome
  | noNonce hello err type decoded valid => exact sound.silent rfl nofun
  | noAddresses auth err type decoded proves => exact sound.silent rfl nofun
  | authOK auth err ipv6 ipv4 subnet type decoded proves =>
      subst type
      exact sound.authOK isOpen decoded proves ipv6 ipv4 subnet err.isSome

/-- A new connection has nothing in its log and no challenge pending. -/
theorem Sound.new : Sound ed decode newConnection := by
  refine ⟨⟨fun h earlier suffix => ?_, fun _ => List.nodup_nil⟩, List.Subset.refl _, ?_⟩
  · cases List.suffix_nil.mp suffix
  · intro _ challenged
    exact absurd rfl challenged

/-- A property of connections that handling a message keeps holds along every run of
the message loop. -/
theorem Connection.invariant {c : Connection}
    (reached : Reachable (Connection.Receives ed decode) newConnection c) (inv : Connection → Prop)
    (start : inv newConnection)
    (handled : ∀ before : Connection, inv before → before.closed = false →
      ∀ msgType body handling, Effect ed decode before.conn msgType body handling →
        inv ⟨handling.conn, handling.err.isSome,
          ⟨msgType, body, handling.sent, handling.proved⟩ :: before.log⟩) : inv c := by
  refine reached.invariant inv start ?_
  rintro before a after holds rfl
  unfold Connection.receive
  split
  · exact holds
  · next isOpen =>
      exact handled before holds (Bool.eq_false_of_not_eq_true isOpen) a.msgType a.body _
        (handleMessage_effect ed decode a.env before.conn a.msgType a.body)

/-- Along every sequence of messages, every `AUTH_OK` rests on a proof for the most recent
`HELLO`, over the nonce issued for it, and on a nonce of its own. -/
theorem authOK_freshlyProven {c : Connection}
    (reached : Reachable (Connection.Receives ed decode) newConnection c) :
    FreshlyProven ed decode c.log := by
  have sound : Sound ed decode c :=
    Connection.invariant reached (Sound ed decode) Sound.new
      fun _ sound isOpen _ _ _ effect => sound.handle isOpen effect
  exact sound.proven

/-- The decoders of the protocol, with one text for every error. -/
def sampleDecoders : Decoders :=
  jsonDecoders fun _ => "invalid JSON"

/-- A server with a nonce and without a resolver, whose writes succeed. -/
def sampleEnvironment : Environment :=
  ⟨.ok ⟨List.replicate 32 9, rfl⟩, none, none⟩

/-- A message as a client writes it, in the sample environment. -/
def sampleArrival (m : ClientMessage) : Arrival :=
  ⟨m.pair.1, m.pair.2, sampleEnvironment⟩

/-- The ID that the sample node announces. -/
def announcedID : Bytes := ascii "a3f9k2m8-7p1q-x4r6"

/-- The node announces itself with a key. -/
def sampleHello : Arrival :=
  sampleArrival (.hello announcedID (List.replicate 32 7))

/-- The proof of the announced node for the nonce of the sample environment. -/
def sampleAuth : Arrival :=
  sampleArrival (.auth announcedID
    (challengePayload (List.replicate 32 9) announcedID ++ List.replicate 32 7))

theorem encodeRunes_clean_announcedID : encodeRunes (Json.clean announcedID) = announcedID :=
  Json.encodeRunes_clean_of_plain (by decide)

/-- The connection after the `HELLO`. -/
theorem receive_sampleHello :
    newConnection.receive echoEd25519 sampleDecoders sampleHello =
      ⟨⟨announcedID, List.replicate 32 7, List.replicate 32 9⟩, false,
        [⟨msgHello, sampleHello.body, [.challenge (List.replicate 32 9)], none⟩]⟩ := by
  have decoded : sampleDecoders.hello sampleHello.body =
      .ok ⟨announcedID, List.replicate 32 7⟩ := by
    rw [← encodeRunes_clean_announcedID]
    exact hello_marshal _ announcedID (List.replicate 32 7)
  have handled : handleMessage echoEd25519 sampleDecoders sampleHello.env newConnection.conn
      msgHello sampleHello.body = sendChallenge sampleEnvironment
        ⟨announcedID, List.replicate 32 7, []⟩ := by
    have valid : validateNodeID announcedID = .ok () := by decide +kernel
    rw [handleMessage, if_pos rfl, handleHello, decoded]
    simp only [valid]
    rfl
  have type : sampleHello.msgType = msgHello := rfl
  simp only [Connection.receive, type, handled]
  rfl

/-- The connection after the `AUTH`. -/
theorem receive_sampleAuth :
    [sampleHello, sampleAuth].foldl (Connection.receive echoEd25519 sampleDecoders)
        newConnection =
      ⟨⟨announcedID, List.replicate 32 7, []⟩, false,
        [⟨msgAuth, sampleAuth.body, [.authOK [] [] []], some announcedID⟩,
          ⟨msgHello, sampleHello.body, [.challenge (List.replicate 32 9)], none⟩]⟩ := by
  have decoded : sampleDecoders.auth sampleAuth.body = .ok ⟨announcedID,
      challengePayload (List.replicate 32 9) announcedID ++ List.replicate 32 7⟩ := by
    conv_rhs => rw [← encodeRunes_clean_announcedID]
    exact auth_marshal _ announcedID _
  have handled : handleMessage echoEd25519 sampleDecoders sampleAuth.env
      ⟨announcedID, List.replicate 32 7, List.replicate 32 9⟩ msgAuth sampleAuth.body =
        sendAuthOK sampleEnvironment ⟨announcedID, List.replicate 32 7, []⟩ := by
    have verified : verifyProofOfPossession echoEd25519
        ⟨announcedID, List.replicate 32 7, List.replicate 32 9⟩ ⟨announcedID,
          challengePayload (List.replicate 32 9) announcedID ++ List.replicate 32 7⟩ =
        .ok ⟨announcedID, List.replicate 32 7, []⟩ := by decide +kernel
    rw [handleMessage, if_neg (by decide), if_pos rfl, handleAuth, decoded]
    simp only [verified]
    rfl
  rw [List.foldl_cons, receive_sampleHello, List.foldl_cons, List.foldl_nil]
  have type : sampleAuth.msgType = msgAuth := rfl
  simp only [Connection.receive, type, handled]
  rfl

/-- A node that announces itself and signs the nonce is authorised. -/
theorem provenNode_authorised :
    let c := [sampleHello, sampleAuth].foldl
      (Connection.receive echoEd25519 sampleDecoders) newConnection
    c.log.map Handled.isAuthOK = [true, false] ∧
      FreshlyProven echoEd25519 sampleDecoders c.log :=
  ⟨congrArg (fun c => c.log.map Handled.isAuthOK) receive_sampleAuth,
    authOK_freshlyProven (Reachable.foldl _ _ _)⟩

/-- Handling a message keeps the identity. -/
theorem Identified.handle {c : Connection} (identified : Identified c) {msgType : MessageType}
    {body : Bytes} {handling : Handling}
    (effect : Effect ed decode c.conn msgType body handling) :
    Identified ⟨handling.conn, handling.err.isSome,
      ⟨msgType, body, handling.sent, handling.proved⟩ :: c.log⟩ := by
  intro proven
  cases effect with
  | nothing err refused =>
      by_cases isHello : msgType = msgHello
      · simp only [provenSinceHello, isHello, ↓reduceIte, Bool.false_eq_true] at proven
      · simp only [provenSinceHello, isHello, ↓reduceIte, Option.isSome_none,
          Bool.false_or] at proven
        exact identified proven
  | challenge hello nonce err type decoded valid =>
      simp only [provenSinceHello, type, ↓reduceIte, Bool.false_eq_true] at proven
  | noNonce hello err type decoded valid =>
      simp only [provenSinceHello, type, ↓reduceIte, Bool.false_eq_true] at proven
  | noAddresses auth err type decoded proves => exact List.mem_cons_self
  | authOK auth err ipv6 ipv4 subnet type decoded proves => exact List.mem_cons_self

/-- The messages that a client sends for service. -/
def serviceTypes : List MessageType :=
  [msgNATProbe, msgRoomJoin, msgRoomLeave, msgPunchReq]

/-- The error of decoding such a message; the body of a `ROOM_LEAVE` is not decoded. -/
def serviceError (decode : Decoders) (msgType : MessageType) (body : Bytes) : Option String :=
  if msgType = msgNATProbe then decode.natProbe body
  else if msgType = msgRoomJoin then decode.roomJoin body
  else if msgType = msgPunchReq then decode.punchReq body
  else none

/-- The messages of the services change nothing on the connection; they fail exactly when their
body is refused. -/
theorem handleMessage_service (ed : Ed25519) (decode : Decoders) (env : Environment)
    (cc : ClientConn) {msgType : MessageType} (service : msgType ∈ serviceTypes) (body : Bytes) :
    ∃ err, handleMessage ed decode env cc msgType body = ⟨err, cc, [], none⟩ ∧
      (err = none ↔ serviceError decode msgType body = none) := by
  simp only [serviceTypes, List.mem_cons, List.not_mem_nil, or_false] at service
  rcases service with rfl | rfl | rfl | rfl
  · exact ⟨(decode.natProbe body).map .decodeNATProbe, rfl, Option.map_eq_none_iff⟩
  · exact ⟨(decode.roomJoin body).map .decodeRoomJoin, rfl, Option.map_eq_none_iff⟩
  · exact ⟨none, rfl, iff_of_true rfl rfl⟩
  · exact ⟨(decode.punchReq body).map .decodePunchReq, rfl, Option.map_eq_none_iff⟩

/-- On every connection a message for service is accepted exactly when it decodes,
whether or not the identity was proven, and it changes and sends nothing. A proof after
the most recent `HELLO` was for the present node ID. -/
theorem served_iff_decodes {c : Connection}
    (reached : Reachable (Connection.Receives ed decode) newConnection c)
    {a : Arrival} (service : a.msgType ∈ serviceTypes) :
    (∃ err, handleMessage ed decode a.env c.conn a.msgType a.body = ⟨err, c.conn, [], none⟩ ∧
      (err = none ↔ serviceError decode a.msgType a.body = none)) ∧
    (provenSinceHello c.log → c.conn.nodeID ∈ provenIDs c.log) := by
  have identified : Identified c :=
    Connection.invariant reached Identified nofun
      fun _ identified _ _ _ _ effect => identified.handle effect
  exact ⟨handleMessage_service ed decode a.env c.conn service a.body, identified⟩

/-- A request to join a room, as a client writes it. -/
def sampleJoin : Arrival :=
  sampleArrival (.roomJoin (ascii "lobby") (ascii "secret"))

/-- A `ROOM_JOIN` right after a `HELLO` is accepted for an identity without a proof. -/
theorem unprovenNode_joins :
    let c := newConnection.receive echoEd25519 sampleDecoders sampleHello
    c.closed = false ∧ c.conn.nodeID ∉ provenIDs c.log ∧
      (handleMessage echoEd25519 sampleDecoders sampleJoin.env c.conn sampleJoin.msgType
        sampleJoin.body).err = none := by
  rw [receive_sampleHello]
  decide +kernel

/-- After the proof a `ROOM_JOIN` is accepted as well, and an empty body is refused. -/
theorem provenNode_joins :
    let c := [sampleHello, sampleAuth].foldl
      (Connection.receive echoEd25519 sampleDecoders) newConnection
    c.conn.nodeID ∈ provenIDs c.log ∧
      (handleMessage echoEd25519 sampleDecoders sampleJoin.env c.conn sampleJoin.msgType
        sampleJoin.body).err = none ∧
      (handleMessage echoEd25519 sampleDecoders sampleEnvironment c.conn msgRoomJoin []).err ≠
        none := by
  intro c
  have reached : Reachable (Connection.Receives echoEd25519 sampleDecoders) newConnection c :=
    Reachable.foldl _ _ _
  have proven : provenSinceHello c.log := by
    have run : c = _ := receive_sampleAuth
    rw [run]
    decide
  have service : msgRoomJoin ∈ serviceTypes := by decide
  have joins := served_iff_decodes (a := sampleJoin) reached service
  obtain ⟨⟨err, handled, accepted⟩, identified⟩ := joins
  obtain ⟨⟨refusal, refused, decodes⟩, _⟩ :=
    served_iff_decodes (a := ⟨msgRoomJoin, [], sampleEnvironment⟩) reached service
  refine ⟨identified proven, ?_, ?_⟩
  · rw [handled]
    exact accepted.mpr (by decide +kernel)
  · rw [refused]
    exact fun none => absurd (decodes.mp none) (by decide +kernel)

end P2pMesh.Bootstrap

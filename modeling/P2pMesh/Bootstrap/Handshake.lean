import P2pMesh.Bootstrap.Server
import P2pMesh.Protocol.Payloads

/-! # Registration of a client

A client of `internal/bootstrap/server.go` and the server at the two ends of a TCP connection,
with the bytes that are on their way. The client calls `SendHello`, answers the challenge with
`SendAuth` and reads the addresses it is given; in between it may report its NAT, join rooms and
send keepalives whenever it likes. The network cuts the streams into pieces as it likes, and either
side reads a message when all of it has arrived. Both give up a read that has taken 90 seconds.

Along every smooth run, in which nothing fails, no body is longer than 16 MiB and no read takes 90
seconds, the server keeps the connection, and a client that has been given addresses has those of
its own ID (`P2pMesh.Bootstrap.registration_safe`). Whatever has happened in such a run, the
registration can be completed (`P2pMesh.Bootstrap.registration_completes`).
-/

namespace P2pMesh.Bootstrap

open Foundation Protocol

/-- One direction of a connection: the bytes that the reader has and those on their way. -/
structure Channel where
  arrived : Bytes
  flying : Bytes
deriving DecidableEq

namespace Channel

/-- Nothing has been written. -/
def empty : Channel := ⟨[], []⟩

/-- All bytes that were written and not yet read. -/
def unread (c : Channel) : Bytes :=
  c.arrived ++ c.flying

/-- Bytes are written. -/
def write (c : Channel) (bytes : Bytes) : Channel :=
  { c with flying := c.flying ++ bytes }

/-- Some bytes arrive. -/
def deliver (c : Channel) (count : Nat) : Channel :=
  ⟨c.arrived ++ c.flying.take count, c.flying.drop count⟩

/-- What `Decode` does with the bytes that have arrived: it waits, fails, or returns a message. -/
def receive (c : Channel) : Option (Except DecodeError (MessageType × Bytes) × Channel) :=
  match decode c.arrived with
  | (.ok pair, rest) => some (.ok pair, { c with arrived := rest })
  | (.error (.tooLarge size), rest) => some (.error (.tooLarge size), { c with arrived := rest })
  | _ => none

end Channel

/-- How far the client is. -/
inductive Phase where
  | connected
  | greeted
  | answered
  | registered (addresses : AuthOK)
  | failed
deriving DecidableEq

/-- The client waits for an answer, in `RecvMessage`. -/
def Phase.waits : Phase → Bool
  | .greeted => true
  | .answered => true
  | _ => false

/-- The two ends of a connection. -/
structure Link where
  server : ClientConn
  /-- `handleConn` has returned. -/
  closed : Bool
  up : Channel
  down : Channel
  client : Phase
  /-- How long `handleConn` has been reading the next message, in nanoseconds. -/
  serverWait : Nat
  /-- How long `RecvMessage` has been reading the answer that the client waits for. -/
  clientWait : Nat

/-- The connection has just been accepted. -/
def newLink : Link :=
  ⟨newClientConn, false, .empty, .empty, .connected, 0, 0⟩

/-- The deadline that `handleConn` and `RecvMessage` set for reading one message: 90 seconds. -/
def readDeadline : Nat := 90 * 10 ^ 9

theorem readDeadline_pos : 0 < readDeadline := by decide

/-- The identity of a client. -/
structure Identity (ed : Ed25519) where
  nodeID : Bytes
  pubKey : Bytes
  signPriv : Bytes
  valid : validateNodeID nodeID = .ok ()
  keySize : pubKey.length = 32
  signatureSize : ∀ message, (ed.sign signPriv message).length = 64
  verifies : ∀ message, ed.verify pubKey message (ed.sign signPriv message) = true

/-- What the two ends, the network and time do. -/
inductive Event where
  /-- `SendHello`. -/
  | hello
  /-- `SendNATProbe`, `SendRoomJoin` or `SendKeepalive`. -/
  | report (m : ClientMessage)
  | deliverUp (count : Nat)
  | deliverDown (count : Nat)
  /-- The server reads and handles a message. -/
  | serve (env : Environment)
  /-- The client reads a message and acts on it. -/
  | receive
  /-- Some nanoseconds pass. -/
  | elapse (duration : Nat)
  /-- The deadline of the read in `handleConn` has passed. -/
  | serverTimeout
  /-- The deadline of the read in `RecvMessage` has passed. -/
  | clientTimeout

/-- The messages besides those of the registration. -/
def isReport : ClientMessage → Bool
  | .hello _ _ => false
  | .auth _ _ => false
  | .natProbe _ _ _ => true
  | .roomJoin _ _ => true
  | .keepalive _ => true

section Steps

variable (ed : Ed25519) (errorText : Bytes → String)

/-- A message of the client, as it is written to the connection. -/
def Link.send (l : Link) (m : ClientMessage) : Link :=
  { l with up := l.up.write (frame m.pair) }

/-- A round of the loop in `handleConn`. -/
def Link.serve (env : Environment) (l : Link) : Option Link :=
  if l.closed then none
  else
    l.up.receive.map fun
      | (.error _, up) => { l with closed := true, up := up }
      | (.ok (msgType, body), up) =>
          let h := handleMessage ed (jsonDecoders errorText) env l.server msgType body
          { l with
            server := h.conn
            closed := h.err.isSome
            up := up
            down := l.down.write (h.sent.flatMap fun m => frame m.pair)
            serverWait := 0 }

variable {ed} (who : Identity ed)

/-- The `AUTH` for a nonce. -/
def Identity.proof (nonce : Bytes) : ClientMessage :=
  .auth who.nodeID (ed.sign who.signPriv (challengePayload nonce who.nodeID))

/-- What the client does with a message. -/
def Link.act (l : Link) (msgType : MessageType) (body : Bytes) : Link :=
  match l.client with
  | .greeted =>
      if msgType = msgChallenge then
        match unmarshalChallenge errorText body with
        | .ok challenge => { l.send (who.proof challenge.nonce) with client := .answered }
        | .error _ => { l with client := .failed }
      else { l with client := .failed }
  | .answered =>
      if msgType = msgAuthOK then
        match unmarshalAuthOK errorText body with
        | .ok addresses => { l with client := .registered addresses }
        | .error _ => { l with client := .failed }
      else { l with client := .failed }
  | _ => { l with client := .failed }

/-- Time passes for both reads. -/
def Link.elapse (l : Link) (duration : Nat) : Link :=
  { l with
    serverWait := l.serverWait + duration
    clientWait := if l.client.waits then l.clientWait + duration else 0 }

/-- What an event does, if it can happen. -/
def Link.next (l : Link) : Event → Option Link
  | .hello =>
      if l.client = .connected then
        some { l.send (.hello who.nodeID who.pubKey) with client := .greeted, clientWait := 0 }
      else none
  | .report m => if isReport m then some (l.send m) else none
  | .deliverUp count => some { l with up := l.up.deliver count }
  | .deliverDown count => some { l with down := l.down.deliver count }
  | .serve env => l.serve ed errorText env
  | .receive =>
      l.down.receive.map fun
        | (.error _, down) => { l with client := .failed, down := down }
        | (.ok (msgType, body), down) =>
            { l with down := down, clientWait := 0 }.act errorText who msgType body
  | .elapse duration => some (l.elapse duration)
  | .serverTimeout =>
      if l.closed = false ∧ readDeadline ≤ l.serverWait then some { l with closed := true }
      else none
  | .clientTimeout =>
      if l.client.waits ∧ readDeadline ≤ l.clientWait then some { l with client := .failed }
      else none

end Steps

namespace Channel

/-- The bytes are those of frames, cut anywhere. -/
def Carries (c : Channel) (pairs : List (MessageType × Bytes)) : Prop :=
  c.unread = pairs.flatMap frame ∧ ∀ pair ∈ pairs, pair.2.length ≤ 16 * 1024 * 1024

/-- A channel that nothing was written to carries no message. -/
theorem carries_empty : empty.Carries [] :=
  ⟨rfl, fun _ member => absurd member List.not_mem_nil⟩

/-- Writing a frame that is not too long appends one message to those on their way. -/
theorem Carries.write {c : Channel} {pairs : List (MessageType × Bytes)} (carries : c.Carries pairs)
    {pair : MessageType × Bytes} (short : pair.2.length ≤ 16 * 1024 * 1024) :
    (c.write (frame pair)).Carries (pairs ++ [pair]) := by
  refine ⟨?_, ?_⟩
  · rw [List.flatMap_append, List.flatMap_singleton, ← carries.1, unread, unread,
      List.append_assoc]
    rfl
  · exact List.forall_mem_append.mpr ⟨carries.2, List.forall_mem_singleton.mpr short⟩

/-- However many bytes arrive together, the messages on their way stay the same. -/
theorem Carries.deliver {c : Channel} {pairs : List (MessageType × Bytes)}
    (carries : c.Carries pairs) (count : Nat) : (c.deliver count).Carries pairs := by
  refine ⟨?_, carries.2⟩
  rw [← carries.1, unread, unread, Channel.deliver, List.append_assoc, List.take_append_drop]

/-- When a frame has arrived the reader takes it and leaves what follows. -/
theorem receive_of_decode {c : Channel} {pair : MessageType × Bytes} {rest : Bytes}
    (read : decode c.arrived = (.ok pair, rest)) :
    c.receive = some (.ok pair, { c with arrived := rest }) := by
  rw [Channel.receive, read]

/-- The reader waits for the rest of a frame. -/
theorem receive_of_part {c : Channel} {pair : MessageType × Bytes} {rest : Bytes}
    (short : pair.2.length ≤ 16 * 1024 * 1024) (split : frame pair = c.arrived ++ rest)
    (proper : rest ≠ []) : c.receive = none := by
  obtain ⟨err, failed⟩ := decode_part short split proper
  unfold Channel.receive
  split
  next read =>
    rw [read] at failed
    cases failed
  next size after read =>
    -- the length is read from a whole header only
    have header : frameHeader pair.1 pair.2 <+: c.arrived := by
      refine List.prefix_of_prefix_length_le ⟨pair.2, split⟩ ⟨rest, rfl⟩ ?_
      rw [length_frameHeader]
      by_contra fewer
      rw [decode, readFull_of_short (Nat.not_le.mp fewer)] at read
      cases read
    obtain ⟨begun, arrived⟩ := header
    rw [← arrived, decode_header, if_neg (not_maxBody_lt short)] at read
    split at read
    · split at read
      · cases read
      · cases read
    · cases read
  · rfl

/-- The reader waits, or reads the first message. It does so if all bytes have arrived. -/
theorem Carries.receive {c : Channel} {pairs : List (MessageType × Bytes)}
    (carries : c.Carries pairs) : (c.receive = none ∧ (pairs = [] ∨ c.flying ≠ [])) ∨
      ∃ pair more rest, pairs = pair :: more ∧ c.receive = some (.ok pair, rest) ∧
        rest.Carries more := by
  obtain ⟨whole, short⟩ := carries
  cases pairs with
  | nil =>
      have nothing : c.arrived = [] := (List.append_eq_nil_iff.mp whole).1
      left
      rw [Channel.receive, nothing]
      exact ⟨rfl, Or.inl rfl⟩
  | cons pair more =>
      obtain ⟨fits, later⟩ := List.forall_mem_cons.mp short
      rw [unread, List.flatMap_cons] at whole
      have complete {rest : Bytes} (arrived : c.arrived = frame pair ++ rest)
          (after : rest ++ c.flying = more.flatMap frame) :
          ∃ pair' more' rest', pair :: more = pair' :: more' ∧
            c.receive = some (.ok pair', rest') ∧ rest'.Carries more' := by
        refine ⟨pair, more, { c with arrived := rest }, rfl, ?_, after, later⟩
        apply receive_of_decode
        rw [arrived]
        exact decode_frame fits rest
      -- What has arrived ends within the first frame, or behind it.
      rcases List.append_eq_append_iff.mp whole with ⟨rest, cut, after⟩ | ⟨rest, arrived, after⟩
      · by_cases ends : rest = []
        · right
          rw [ends, List.append_nil] at cut
          rw [ends, List.nil_append] at after
          exact complete (cut.symm.trans (List.append_nil _).symm) after
        · left
          refine ⟨receive_of_part fits cut ends, Or.inr ?_⟩
          rw [after]
          exact fun empty => ends (List.append_eq_nil_iff.mp empty).1
      · right
        exact complete arrived after.symm

end Channel

/-- The addresses that `sendAuthOK` reports for a node. -/
def resolve (addrFn : Option (Bytes → Except String (Bytes × Bytes × Bytes))) (nodeID : Bytes) :
    Except String (Bytes × Bytes × Bytes) :=
  match addrFn with
  | none => .ok ([], [], [])
  | some addrFn => addrFn nodeID

/-- What `AUTH_OK` tells the client. -/
def reported (addresses : Bytes × Bytes × Bytes) : AuthOK :=
  ⟨encodeRunes (Json.clean addresses.1), encodeRunes (Json.clean addresses.2.1),
    encodeRunes (Json.clean addresses.2.2), []⟩

section Identities

/-- Between two dashes there is a letter or a digit. -/
theorem length_le_of_apart {id : Bytes} (apart : id.IsChain (Apart dash)) :
    id.length ≤ 2 * (withoutDashes id).length + 1 := by
  induction size : id.length using Nat.strong_induction_on generalizing id with
  | _ n ih =>
  match id, apart, size with
  | [], _, size =>
      rw [← size]
      exact Nat.zero_le _
  | [_], _, size =>
      rw [← size]
      exact Nat.le_add_left _ _
  | first :: second :: rest, apart, size =>
      obtain ⟨pair, tail⟩ := List.isChain_cons_cons.mp apart
      have later : rest.length ≤ 2 * (withoutDashes rest).length + 1 :=
        ih rest.length (by rw [← size]; simp only [List.length_cons]; omega) tail.tail rfl
      have counted : (withoutDashes rest).length + 1 ≤
          (withoutDashes (first :: second :: rest)).length := by
        unfold withoutDashes
        by_cases isDash : first = dash
        · have other : second ≠ dash := fun same => pair ⟨isDash, same⟩
          simp [isDash, other]
        · have sub : (rest.filter (· ≠ dash)).length ≤
              ((second :: rest).filter (· ≠ dash)).length :=
            ((List.sublist_cons_self second rest).filter _).length_le
          simpa [isDash] using sub
      rw [← size]
      simp only [List.length_cons]
      omega

variable {ed : Ed25519} (who : Identity ed)

/-- A node ID is written to JSON as it is. -/
theorem Identity.plain : Json.isPlain who.nodeID = true := by
  have plain : ∀ byte : UInt8, (byte = dash ∨ isIDByte byte = true) → (byte < 128 ∧
      Json.escapeRune (some (Char.ofNat byte.toNat)) = [Char.ofNat byte.toNat]) := by
    intro byte
    refine forall_byte_lt (p := fun byte => (byte = dash ∨ isIDByte byte = true) →
      (byte < 128 ∧ Json.escapeRune (some (Char.ofNat byte.toNat)) = [Char.ofNat byte.toNat]))
      ?_ byte.toNat_lt
    decide +kernel
  rw [Json.isPlain, List.all_eq_true]
  intro byte member
  exact decide_eq_true (plain byte (byte_of_validateNodeID who.valid member))

/-- A node ID is short, whatever the key. -/
theorem Identity.length_nodeID : who.nodeID.length ≤ 105 := by
  obtain ⟨pattern, _, atMost⟩ := (validateNodeID_eq_ok_iff who.nodeID).mp who.valid
  have bound := length_le_of_apart ((nodeIDPattern_iff who.nodeID).mp pattern).2.2.2.1
  have limit : maxIDLen = 52 := rfl
  omega

/-- The `HELLO` of an identity is within the limit of a frame. -/
theorem Identity.hello_fits :
    (ClientMessage.hello who.nodeID who.pubKey).pair.2.length ≤ 16 * 1024 * 1024 := by
  have size := length_hello_le who.plain who.pubKey
  have id := who.length_nodeID
  have key := who.keySize
  omega

/-- The proof of an identity is within the limit of a frame. -/
theorem Identity.proof_fits (nonce : Bytes) :
    (who.proof nonce).pair.2.length ≤ 16 * 1024 * 1024 := by
  have size := length_auth_le who.plain (ed.sign who.signPriv (challengePayload nonce who.nodeID))
  have id := who.length_nodeID
  have signature := who.signatureSize (challengePayload nonce who.nodeID)
  unfold Identity.proof
  omega

end Identities

section Handling

variable {ed : Ed25519} (who : Identity ed) (errorText : Bytes → String) (env : Environment)

/-- What the client reports besides is only logged. -/
theorem handleMessage_report (cc : ClientConn) {m : ClientMessage} (report : isReport m = true) :
    handleMessage ed (jsonDecoders errorText) env cc m.pair.1 m.pair.2 = handleLogged cc none := by
  cases m with
  | hello _ _ => cases report
  | auth _ _ => cases report
  | natProbe natType publicAddr portSamples =>
      change handleLogged cc (((jsonDecoders errorText).natProbe (marshal _)).map _) = _
      rw [natProbe_marshal]
      rfl
  | roomJoin roomID password =>
      change handleLogged cc (((jsonDecoders errorText).roomJoin (marshal _)).map _) = _
      rw [roomJoin_marshal]
      rfl
  | keepalive timestamp => rfl

/-- A `HELLO` is answered with a challenge. -/
theorem handleMessage_hello (cc : ClientConn) {nonce : Nonce} (random : env.random = .ok nonce)
    (sends : env.sendError = none) :
    handleMessage ed (jsonDecoders errorText) env cc
        (ClientMessage.hello who.nodeID who.pubKey).pair.1
        (ClientMessage.hello who.nodeID who.pubKey).pair.2 =
      ⟨none, ⟨who.nodeID, who.pubKey, nonce.val⟩, [.challenge nonce.val], none⟩ := by
  have read := hello_marshal errorText who.nodeID who.pubKey
  rw [Json.encodeRunes_clean_of_plain who.plain] at read
  change handleHello (jsonDecoders errorText) env cc (marshal _) = _
  simp only [handleHello, read, who.valid, sendChallenge, random, sends, Option.map_none]

/-- The proof for the challenge is accepted. -/
theorem handleMessage_proof {nonce : Bytes} (challenged : nonce ≠ [])
    {addresses : Bytes × Bytes × Bytes} (resolved : resolve env.addrFn who.nodeID = .ok addresses)
    (sends : env.sendError = none) :
    handleMessage ed (jsonDecoders errorText) env ⟨who.nodeID, who.pubKey, nonce⟩
        (who.proof nonce).pair.1 (who.proof nonce).pair.2 =
      ⟨none, ⟨who.nodeID, who.pubKey, []⟩,
        [.authOK addresses.1 addresses.2.1 addresses.2.2], some who.nodeID⟩ := by
  have read := auth_marshal errorText who.nodeID
    (ed.sign who.signPriv (challengePayload nonce who.nodeID))
  rw [Json.encodeRunes_clean_of_plain who.plain] at read
  change handleAuth ed (jsonDecoders errorText) env _ (marshal _) = _
  have length : ¬ nonce.length = 0 := fun zero => challenged (List.length_eq_zero_iff.mp zero)
  have proved : verifyProofOfPossession ed ⟨who.nodeID, who.pubKey, nonce⟩
      ⟨who.nodeID, ed.sign who.signPriv (challengePayload nonce who.nodeID)⟩ =
        .ok ⟨who.nodeID, who.pubKey, []⟩ := by
    simp only [verifyProofOfPossession, length, who.keySize, who.verifies, ne_eq,
      not_true_eq_false, and_false, Bool.not_true, Bool.false_eq_true, ↓reduceIte]
  simp only [handleAuth, Identity.proof, ClientMessage.doc] at read ⊢
  simp only [read, proved]
  cases given : env.addrFn with
  | none =>
      rw [given] at resolved
      cases resolved
      simp only [sendAuthOK, given, sends, Option.map_none]
  | some addrFn =>
      rw [given] at resolved
      have answered : addrFn who.nodeID = .ok addresses := resolved
      simp only [sendAuthOK, given, answered, sends, Option.map_none]

end Handling

/-- How far the registration is: what the client waits for, what the server knows, and the
messages of the registration that are on their way. -/
inductive Stage {ed : Ed25519} (who : Identity ed) (addresses : Bytes × Bytes × Bytes) :
    Phase → ClientConn → List ClientMessage → List ServerMessage → Prop where
  | start : Stage who addresses .connected newClientConn [] []
  | greeting : Stage who addresses .greeted newClientConn [.hello who.nodeID who.pubKey] []
  | challenged (nonce : Nonce) :
      Stage who addresses .greeted ⟨who.nodeID, who.pubKey, nonce.val⟩ [] [.challenge nonce.val]
  | answering (nonce : Nonce) :
      Stage who addresses .answered ⟨who.nodeID, who.pubKey, nonce.val⟩ [who.proof nonce.val] []
  | accepted :
      Stage who addresses .answered ⟨who.nodeID, who.pubKey, []⟩ []
        [.authOK addresses.1 addresses.2.1 addresses.2.2]
  | registered :
      Stage who addresses (.registered (reported addresses)) ⟨who.nodeID, who.pubKey, []⟩ [] []

/-- The client never has two messages of the registration on their way. -/
theorem Stage.at_most_one {ed : Ed25519} {who : Identity ed} {addresses : Bytes × Bytes × Bytes}
    {phase : Phase} {server : ClientConn} {m : ClientMessage} {more : List ClientMessage}
    {answers : List ServerMessage} (stage : Stage who addresses phase server (m :: more) answers) :
    more = [] := by
  cases stage with
  | greeting => rfl
  | answering nonce => rfl

/-- A client that is registered has the addresses the server reported, and the server knows its
identity. -/
theorem Stage.of_registered {ed : Ed25519} {who : Identity ed} {addresses : Bytes × Bytes × Bytes}
    {given : AuthOK} {server : ClientConn} {pending : List ClientMessage}
    {answers : List ServerMessage}
    (stage : Stage who addresses (.registered given) server pending answers) :
    given = reported addresses ∧ server = ⟨who.nodeID, who.pubKey, []⟩ := by
  cases stage with
  | registered => exact ⟨rfl, rfl⟩

/-- No read has reached its deadline. -/
def Link.InTime (l : Link) : Prop :=
  l.serverWait < readDeadline ∧ l.clientWait < readDeadline

instance (l : Link) : Decidable l.InTime :=
  inferInstanceAs (Decidable (_ ∧ _))

/-- The connection is open, with these messages on their way. -/
structure Link.Talk {ed : Ed25519} (who : Identity ed) (addresses : Bytes × Bytes × Bytes)
    (l : Link) (asked : List ClientMessage) (answers : List ServerMessage) : Prop where
  isOpen : l.closed = false
  up : l.up.Carries (asked.map ClientMessage.pair)
  down : l.down.Carries (answers.map ServerMessage.pair)
  stage : Stage who addresses l.client l.server (asked.filter fun m => !isReport m) answers
  inTime : l.InTime

/-- The environment gives no errors, and the server has this resolver. -/
structure Environment.Works (addrFn : Option (Bytes → Except String (Bytes × Bytes × Bytes)))
    (env : Environment) : Prop where
  random : ∃ nonce, env.random = .ok nonce
  sends : env.sendError = none
  resolver : env.addrFn = addrFn

/-- A registration with a server whose resolver has addresses for the client. -/
structure Registration (ed : Ed25519) where
  who : Identity ed
  errorText : Bytes → String
  addrFn : Option (Bytes → Except String (Bytes × Bytes × Bytes))
  addresses : Bytes × Bytes × Bytes
  resolved : resolve addrFn who.nodeID = .ok addresses
  fits : (ServerMessage.authOK addresses.1 addresses.2.1 addresses.2.2).pair.2.length ≤
    16 * 1024 * 1024

namespace Registration

variable {ed : Ed25519} (r : Registration ed)

/-- The steps of the two ends, of the network and of time. -/
def Step (before : Link) (event : Event) (after : Link) : Prop :=
  before.next r.errorText r.who event = some after

/-- Nothing fails: the server works when it handles a message, the client reports nothing that is
longer than a body may be, and no read reaches its deadline. -/
def Smooth (l : Link) : Event → Prop
  | .serve env => env.Works r.addrFn
  | .report m => m.pair.2.length ≤ 16 * 1024 * 1024
  | .elapse duration => (l.elapse duration).InTime
  | _ => True

/-- The steps in which nothing fails. -/
abbrev SmoothStep : Link → Event → Link → Prop :=
  Guarded r.Step r.Smooth

variable {r} {l : Link} {asked : List ClientMessage} {answers : List ServerMessage}

/-- A message that the client sends is the last one on its way. -/
theorem carries_send {c : Channel} (up : c.Carries (asked.map ClientMessage.pair))
    {m : ClientMessage} (short : m.pair.2.length ≤ 16 * 1024 * 1024) :
    (c.write (frame m.pair)).Carries ((asked ++ [m]).map ClientMessage.pair) := by
  rw [List.map_append, List.map_singleton]
  exact up.write short

/-- A new connection is open with nothing on its way. -/
theorem talk_new : newLink.Talk r.who r.addresses [] [] :=
  ⟨rfl, Channel.carries_empty, Channel.carries_empty, .start, by decide⟩

/-- A message that is handled without an error is consumed, and its answers are written back. -/
theorem serve_of_receive (isOpen : l.closed = false) {env : Environment}
    {pair : MessageType × Bytes} {rest : Channel}
    (read : l.up.receive = some (.ok pair, rest)) {cc : ClientConn} {sent : List ServerMessage}
    {proved : Option Bytes}
    (handled : handleMessage ed (jsonDecoders r.errorText) env l.server pair.1 pair.2 =
      ⟨none, cc, sent, proved⟩) :
    l.serve ed r.errorText env = some ⟨cc, false, rest,
      l.down.write (sent.flatMap fun m => frame m.pair), l.client, 0, l.clientWait⟩ := by
  simp only [Link.serve, isOpen, Bool.false_eq_true, ↓reduceIte, read, Option.map_some, handled,
    Option.isSome_none]

/-- The server waits for the rest of a message, or handles the first one. -/
theorem serve_spec (talk : l.Talk r.who r.addresses asked answers) {env : Environment}
    (works : env.Works r.addrFn) :
    (l.serve ed r.errorText env = none ∧ (asked = [] ∨ l.up.flying ≠ [])) ∨
      ∃ m more after answers', asked = m :: more ∧ l.serve ed r.errorText env = some after ∧
        after.client = l.client ∧ after.Talk r.who r.addresses more answers' := by
  obtain ⟨nonce, random⟩ := works.random
  have resolved : resolve env.addrFn r.who.nodeID = .ok r.addresses := by
    rw [works.resolver]
    exact r.resolved
  rcases talk.up.receive with ⟨waits, why⟩ | ⟨pair, more, rest, messages, read, carries⟩
  · left
    refine ⟨?_, why.imp_left List.map_eq_nil_iff.mp⟩
    simp only [Link.serve, talk.isOpen, Bool.false_eq_true, ↓reduceIte, waits, Option.map_none]
  · right
    obtain ⟨m, later, rfl, rfl, rfl⟩ := List.map_eq_cons_iff.mp messages
    obtain ⟨isOpen, _, down, stage, inTime⟩ := talk
    have waits : 0 < readDeadline ∧ l.clientWait < readDeadline :=
      ⟨readDeadline_pos, inTime.2⟩
    by_cases report : isReport m = true
    · rw [List.filter_cons_of_neg (by rw [report]; decide)] at stage
      refine ⟨m, later, _, answers, rfl, serve_of_receive isOpen read
        (handleMessage_report r.errorText env l.server report), rfl, rfl, carries, ?_, stage,
        waits⟩
      simpa [Channel.write] using down
    · -- It is the only message of the registration on its way, and the stage says which one.
      rw [List.filter_cons_of_pos (by rw [Bool.not_eq_true] at report; rw [report]; rfl)] at stage
      have rest := stage.at_most_one
      rw [rest] at stage
      generalize phase : l.client = client at stage ⊢
      generalize known : l.server = server at stage
      cases stage with
      | greeting =>
          have handled := handleMessage_hello r.who r.errorText env l.server random works.sends
          refine ⟨_, later, _, [.challenge nonce.val], rfl, serve_of_receive isOpen read handled,
            phase, rfl, carries, ?_, ?_, waits⟩
          · have size := length_challenge_le nonce.val
            have length := nonce.property
            rw [List.flatMap_singleton]
            exact down.write (by omega)
          · simp only [phase, rest]
            exact .challenged nonce
      | answering nonce =>
          have given : nonce.val ≠ [] := by
            intro empty
            have length := nonce.property
            rw [empty] at length
            cases length
          have handled := handleMessage_proof r.who r.errorText env given resolved works.sends
          rw [← known] at handled
          refine ⟨_, later, _, [.authOK r.addresses.1 r.addresses.2.1 r.addresses.2.2], rfl,
            serve_of_receive isOpen read handled, phase, rfl, carries, ?_, ?_, waits⟩
          · rw [List.flatMap_singleton]
            exact down.write r.fits
          · simp only [phase, rest]
            exact .accepted

/-- The client waits for the rest of a message, or acts on the one it was waiting for. -/
theorem receive_spec (talk : l.Talk r.who r.addresses asked answers) :
    (l.next r.errorText r.who .receive = none ∧ (answers = [] ∨ l.down.flying ≠ [])) ∨
      ∃ after asked', l.next r.errorText r.who .receive = some after ∧
        after.Talk r.who r.addresses asked' [] ∧
        ((l.client = .greeted ∧ after.client = .answered) ∨
          (l.client = .answered ∧ after.client = .registered (reported r.addresses))) := by
  rcases talk.down.receive with ⟨waits, why⟩ | ⟨pair, more, rest, messages, read, carries⟩
  · left
    refine ⟨?_, why.imp_left List.map_eq_nil_iff.mp⟩
    simp only [Link.next, waits, Option.map_none]
  · right
    obtain ⟨a, later, rfl, rfl, rfl⟩ := List.map_eq_cons_iff.mp messages
    obtain ⟨isOpen, up, _, stage, inTime⟩ := talk
    have waits : l.serverWait < readDeadline ∧ 0 < readDeadline :=
      ⟨inTime.1, readDeadline_pos⟩
    -- An answer is on its way at two of the stages only.
    generalize others : asked.filter (fun m => !isReport m) = pending at stage
    generalize phase : l.client = client at stage ⊢
    generalize known : l.server = server at stage
    cases stage with
    | challenged nonce =>
        have acted : l.next r.errorText r.who .receive =
            some { { l with down := rest, clientWait := 0 }.send (r.who.proof nonce.val) with
              client := .answered } := by
          simp only [Link.next, read, Option.map_some, ServerMessage.pair, Link.act, phase,
            ServerMessage.msgType, challenge_marshal, ↓reduceIte]
        refine ⟨_, asked ++ [r.who.proof nonce.val], acted, ?_, Or.inl ⟨rfl, rfl⟩⟩
        refine ⟨isOpen, ?_, carries, ?_, waits⟩
        · exact carries_send up (r.who.proof_fits nonce.val)
        · have own : [r.who.proof nonce.val].filter (fun m => !isReport m) =
              [r.who.proof nonce.val] := rfl
          rw [List.filter_append, others, own]
          change Stage _ _ .answered l.server _ _
          rw [known]
          exact .answering nonce
    | accepted =>
        have acted : l.next r.errorText r.who .receive =
            some { l with
              client := .registered (reported r.addresses), down := rest, clientWait := 0 } := by
          simp only [Link.next, read, Option.map_some, ServerMessage.pair, Link.act, phase,
            ServerMessage.msgType, authOK_marshal, ↓reduceIte]
          rfl
        refine ⟨_, asked, acted, ⟨isOpen, up, carries, ?_, waits⟩, Or.inr ⟨rfl, rfl⟩⟩
        rw [others]
        change Stage _ _ _ l.server _ _
        rw [known]
        exact .registered

/-- A client that has just connected greets the server. -/
theorem hello_spec (talk : l.Talk r.who r.addresses asked answers)
    (connected : l.client = .connected) :
    ∃ after asked', l.next r.errorText r.who .hello = some after ∧
      after.client = .greeted ∧ after.Talk r.who r.addresses asked' answers := by
  obtain ⟨isOpen, up, down, stage, inTime⟩ := talk
  refine ⟨_, asked ++ [.hello r.who.nodeID r.who.pubKey], if_pos connected, rfl, isOpen, ?_, down,
    ?_, ⟨inTime.1, readDeadline_pos⟩⟩
  · exact carries_send up r.who.hello_fits
  · have own : [ClientMessage.hello r.who.nodeID r.who.pubKey].filter (fun m => !isReport m) =
        [.hello r.who.nodeID r.who.pubKey] := rfl
    rw [List.filter_append, own]
    change Stage _ _ .greeted l.server _ _
    rw [connected] at stage
    generalize l.server = server, asked.filter (fun m => !isReport m) = pending at stage ⊢
    cases stage with
    | start => exact .greeting

/-- Every smooth step keeps the connection open and the registration on its way. -/
theorem talk_step (talk : l.Talk r.who r.addresses asked answers) {event : Event} {after : Link}
    (step : r.SmoothStep l event after) :
    ∃ asked answers, after.Talk r.who r.addresses asked answers := by
  obtain ⟨smooth, next⟩ := step
  rw [Step] at next
  cases event with
  | hello =>
      have connected : l.client = .connected := by
        by_contra other
        rw [Link.next, if_neg other] at next
        cases next
      obtain ⟨_, asked', hello, _, talks⟩ := hello_spec talk connected
      cases hello.symm.trans next
      exact ⟨asked', answers, talks⟩
  | report m =>
      obtain ⟨isOpen, up, down, stage, inTime⟩ := talk
      rw [Link.next] at next
      split at next
      next isReported =>
        cases next
        refine ⟨asked ++ [m], answers, isOpen, ?_, down, ?_, inTime⟩
        · exact carries_send up smooth
        · rw [List.filter_append, List.filter_cons_of_neg (by rw [isReported]; decide),
            List.filter_nil, List.append_nil]
          exact stage
      · cases next
  | deliverUp count =>
      obtain ⟨isOpen, up, down, stage, inTime⟩ := talk
      cases next
      exact ⟨asked, answers, isOpen, up.deliver count, down, stage, inTime⟩
  | deliverDown count =>
      obtain ⟨isOpen, up, down, stage, inTime⟩ := talk
      cases next
      exact ⟨asked, answers, isOpen, up, down.deliver count, stage, inTime⟩
  | serve env =>
      rcases serve_spec talk smooth with ⟨waits, _⟩ | ⟨_, more, _, answers', _, served, _, talks⟩
      · cases waits.symm.trans next
      · cases served.symm.trans next
        exact ⟨more, answers', talks⟩
  | receive =>
      rcases receive_spec talk with ⟨waits, _⟩ | ⟨_, asked', received, talks, _⟩
      · cases waits.symm.trans next
      · cases received.symm.trans next
        exact ⟨asked', [], talks⟩
  | elapse duration =>
      cases next
      exact ⟨asked, answers, talk.isOpen, talk.up, talk.down, talk.stage, smooth⟩
  | serverTimeout =>
      rw [Link.next, if_neg fun late => absurd talk.inTime.1 (not_lt.mpr late.2)] at next
      cases next
  | clientTimeout =>
      rw [Link.next, if_neg fun late => absurd talk.inTime.2 (not_lt.mpr late.2)] at next
      cases next

/-- Along every run in which nothing fails the connection stays open, at a stage of the
registration. -/
theorem talk_of_reachable (reached : Reachable r.SmoothStep newLink l) :
    ∃ asked answers, l.Talk r.who r.addresses asked answers := by
  apply reached.invariant (fun l => ∃ asked answers, l.Talk r.who r.addresses asked answers)
  · exact ⟨[], [], talk_new⟩
  · intro before event after ⟨_, _, talk⟩ step
    exact talk_step talk step

variable {env : Environment}

/-- The client reports nothing more. -/
def Quiet (_ : Link) (event : Event) : Prop :=
  ∀ m, event ≠ .report m

/-- The server handles all that was sent. -/
theorem settles (talk : l.Talk r.who r.addresses asked answers) (works : env.Works r.addrFn) :
    ∃ after answers', Reachable (Guarded r.SmoothStep Quiet) l after ∧ after.client = l.client ∧
      after.Talk r.who r.addresses [] answers' := by
  induction asked generalizing l answers with
  | nil => exact ⟨l, answers, .refl l, rfl, talk⟩
  | cons m more ih =>
      -- All bytes arrive, so that the server need not wait.
      have arrives : r.SmoothStep l (.deliverUp l.up.flying.length)
          { l with up := l.up.deliver l.up.flying.length } := ⟨trivial, rfl⟩
      have landed : (l.up.deliver l.up.flying.length).flying = [] := List.drop_length
      have talk : ({ l with up := l.up.deliver l.up.flying.length } : Link).Talk r.who r.addresses
          (m :: more) answers :=
        ⟨talk.isOpen, talk.up.deliver _, talk.down, talk.stage, talk.inTime⟩
      rcases serve_spec talk works with ⟨_, why⟩ | ⟨_, _, middle, _, same, served, phase, talks⟩
      · rcases why with none | flying
        · cases none
        · exact absurd landed flying
      · cases same
        obtain ⟨after, answers', later, client, settled⟩ := ih talks
        refine ⟨after, answers', ?_, client.trans phase, settled⟩
        have handles : r.SmoothStep { l with up := l.up.deliver l.up.flying.length } (.serve env)
            middle := ⟨works, served⟩
        refine .trans (.tail (.tail (.refl l) ⟨?_, arrives⟩) ⟨?_, handles⟩) later
        · exact fun _ report => by cases report
        · exact fun _ report => by cases report

/-- The client acts on the answer of the server. -/
theorem receives (talk : l.Talk r.who r.addresses [] answers) (waiting : answers ≠ []) :
    ∃ after asked', Reachable (Guarded r.SmoothStep Quiet) l after ∧
      after.Talk r.who r.addresses asked' [] ∧
      ((l.client = .greeted ∧ after.client = .answered) ∨
        (l.client = .answered ∧ after.client = .registered (reported r.addresses))) := by
  have arrives : r.SmoothStep l (.deliverDown l.down.flying.length)
      { l with down := l.down.deliver l.down.flying.length } := ⟨trivial, rfl⟩
  have landed : (l.down.deliver l.down.flying.length).flying = [] := List.drop_length
  have talk : ({ l with down := l.down.deliver l.down.flying.length } : Link).Talk r.who
      r.addresses [] answers :=
    ⟨talk.isOpen, talk.up, talk.down.deliver _, talk.stage, talk.inTime⟩
  rcases receive_spec talk with ⟨_, why⟩ | ⟨after, asked', received, talks, phases⟩
  · rcases why with none | flying
    · exact absurd none waiting
    · exact absurd landed flying
  · have acts : r.SmoothStep { l with down := l.down.deliver l.down.flying.length } .receive
        after := ⟨trivial, received⟩
    refine ⟨after, asked', ?_, talks, phases⟩
    refine .tail (.tail (.refl l) ⟨?_, arrives⟩) ⟨?_, acts⟩
    · exact fun _ report => by cases report
    · exact fun _ report => by cases report

/-- The client ends up registered. -/
def Completes (r : Registration ed) (l : Link) : Prop :=
  ∃ after, Reachable (Guarded r.SmoothStep Quiet) l after ∧
    after.client = .registered (reported r.addresses)

/-- What can complete from a later state can complete from an earlier one. -/
theorem Completes.of_reachable {middle : Link}
    (reached : Reachable (Guarded r.SmoothStep Quiet) l middle)
    (completes : r.Completes middle) : r.Completes l := by
  obtain ⟨after, later, registered⟩ := completes
  exact ⟨after, reached.trans later, registered⟩

/-- With nothing left to handle, the server has answered a client that waits. -/
theorem answers_ne_nil (talk : l.Talk r.who r.addresses [] answers)
    (waits : l.client = .greeted ∨ l.client = .answered) : answers ≠ [] := by
  have stage := talk.stage
  rw [List.filter_nil] at stage
  generalize l.client = client, l.server = server at stage waits
  cases stage with
  | start => rcases waits with greeted | answered <;> contradiction
  | challenged nonce => exact List.cons_ne_nil _ _
  | accepted => exact List.cons_ne_nil _ _
  | registered => rcases waits with greeted | answered <;> contradiction

/-- A client that has sent its proof ends up registered. -/
theorem completes_answered (talk : l.Talk r.who r.addresses asked answers)
    (works : env.Works r.addrFn) (answered : l.client = .answered) : r.Completes l := by
  obtain ⟨middle, answers', settled, client, talk⟩ := settles talk works
  rw [answered] at client
  obtain ⟨after, _, received, _, phases⟩ :=
    receives talk (answers_ne_nil talk (Or.inr client))
  apply Completes.of_reachable (settled.trans received)
  rcases phases with ⟨greeted, _⟩ | ⟨_, registered⟩
  · cases client.symm.trans greeted
  · exact ⟨after, .refl after, registered⟩

/-- A client that has sent its `HELLO` ends up registered. -/
theorem completes_greeted (talk : l.Talk r.who r.addresses asked answers)
    (works : env.Works r.addrFn) (greeted : l.client = .greeted) : r.Completes l := by
  obtain ⟨middle, answers', settled, client, talk⟩ := settles talk works
  rw [greeted] at client
  obtain ⟨after, _, received, talks, phases⟩ :=
    receives talk (answers_ne_nil talk (Or.inl client))
  apply Completes.of_reachable (settled.trans received)
  rcases phases with ⟨_, answered⟩ | ⟨other, _⟩
  · exact completes_answered talks works answered
  · cases client.symm.trans other

/-- From every stage of the registration the client can still become registered. -/
theorem completes (talk : l.Talk r.who r.addresses asked answers) (works : env.Works r.addrFn) :
    r.Completes l := by
  have stage := talk.stage
  generalize phase : l.client = client at stage
  cases client with
  | connected =>
      obtain ⟨after, asked', hello, greeted, talks⟩ := hello_spec talk phase
      have greets : r.SmoothStep l .hello after := ⟨trivial, hello⟩
      apply Completes.of_reachable (.tail (.refl l) ⟨?_, greets⟩)
      · exact completes_greeted talks works greeted
      · exact fun _ report => by cases report
  | greeted => exact completes_greeted talk works phase
  | answered => exact completes_answered talk works phase
  | registered addresses =>
      rw [stage.of_registered.1] at phase
      exact ⟨l, .refl l, phase⟩
  | failed => cases stage

end Registration

/-- A client and a server for concrete runs: every signature is accepted. -/
def sampleRegistration : Registration ⟨fun _ _ => List.replicate 64 0, fun _ _ _ => true⟩ where
  who :=
    { nodeID := ascii "a3f9k2m8-7p1q-x4r6"
      pubKey := List.replicate 32 1
      signPriv := []
      valid := by decide
      keySize := rfl
      signatureSize := fun _ => rfl
      verifies := fun _ => rfl }
  errorText := fun _ => ""
  addrFn := some fun _ =>
    .ok (ascii "fd00:9bd8::7", ascii "240.0.0.7", ascii "240.0.0.0/24")
  addresses := (ascii "fd00:9bd8::7", ascii "240.0.0.7", ascii "240.0.0.0/24")
  resolved := rfl
  fits := by decide

/-- A server that has a nonce and whose writes succeed. -/
def sampleWorking : Environment :=
  ⟨.ok ⟨List.replicate 32 7, rfl⟩, sampleRegistration.addrFn, none⟩

theorem sampleWorking_works : sampleWorking.Works sampleRegistration.addrFn :=
  ⟨⟨_, rfl⟩, rfl, rfl⟩

/-- A link on which the client has waited for a minute and then sent a keepalive. -/
def hesitating : Link :=
  (newLink.elapse (60 * 10 ^ 9)).send (.keepalive 0)

/-- The state in which the client has waited for a minute is reached without a failure. -/
theorem hesitating_reached : Reachable sampleRegistration.SmoothStep newLink hesitating := by
  have inTime : (newLink.elapse (60 * 10 ^ 9)).InTime := by decide
  have short : (ClientMessage.keepalive 0).pair.2.length ≤ 16 * 1024 * 1024 := by decide
  have waits : sampleRegistration.SmoothStep newLink (.elapse (60 * 10 ^ 9))
      (newLink.elapse (60 * 10 ^ 9)) := ⟨inTime, rfl⟩
  have sends : sampleRegistration.SmoothStep (newLink.elapse (60 * 10 ^ 9))
      (.report (.keepalive 0)) hesitating := ⟨short, rfl⟩
  exact .tail (.tail (.refl newLink) waits) sends

/-- After a pause of 90 seconds the server closes the connection. -/
example : ((newLink.elapse readDeadline).next sampleRegistration.errorText sampleRegistration.who
    .serverTimeout).map Link.closed = some true := by decide

end P2pMesh.Bootstrap

import P2pMesh.Crypto.Certificate
import P2pMesh.Foundation.Transition
import P2pMesh.Protocol.Messages
import P2pMesh.Types.NodeID

/-! # The bootstrap server

`handleMessage` of `internal/bootstrap/server.go` and the message loop of `handleConn`
on one connection. What a message can do to the connection is said once
(`P2pMesh.Bootstrap.handleMessage_effect`): it changes nothing, it is a `HELLO` that
replaces the identity, or an `AUTH` whose proof of possession consumes the challenge.
-/

namespace P2pMesh.Bootstrap

open Foundation Protocol

/-- The fields of `clientConn` that messages change. -/
structure ClientConn where
  nodeID : Bytes
  pubKey : Bytes
  nonce : Bytes
deriving DecidableEq

/-- The connection as `handleConn` creates it. -/
def newClientConn : ClientConn :=
  ⟨[], [], []⟩

/-- The errors of `handleMessage`. -/
inductive HandleError where
  | decodeHello (cause : String)
  | rejectHello (cause : NodeIDError)
  | challengeNonce (cause : String)
  | sendChallenge (cause : String)
  | decodeAuth (cause : String)
  | authBeforeChallenge
  | publicKeyLength (length : Nat)
  | proofNodeID (given expected : Bytes)
  | invalidProof
  | deriveAddresses (cause : String)
  | send (cause : String)
  | decodeNATProbe (cause : String)
  | decodeRoomJoin (cause : String)
  | decodePunchReq (cause : String)
  | unknownType (msgType : MessageType)
deriving DecidableEq

/-- The text of an error, with the verbs of its arguments. -/
def HandleError.format : HandleError → String
  | .decodeHello _ => "decode hello: %w"
  | .rejectHello _ => "reject hello: %w"
  | .challengeNonce _ => "generate challenge nonce: %w"
  | .sendChallenge _ => "send challenge: %w"
  | .decodeAuth _ => "decode auth: %w"
  | .authBeforeChallenge => "auth received before challenge"
  | .publicKeyLength _ => "invalid public key length %d"
  | .proofNodeID _ _ => "proof node id %q does not match hello %q"
  | .invalidProof => "invalid proof of possession signature"
  | .deriveAddresses _ => "derive addresses: %w"
  | .send cause => cause
  | .decodeNATProbe _ => "decode nat_probe: %w"
  | .decodeRoomJoin _ => "decode room_join: %w"
  | .decodePunchReq _ => "decode punch_req: %w"
  | .unknownType _ => "unknown message type %d"

/-- A challenge nonce, `ChallengeNonceLen` bytes long. -/
abbrev Nonce := { bytes : Bytes // bytes.length = 32 }

/-- What the server is given while it handles a message: the answer of `rand.Read`,
the address resolver, and the error of writing to the connection. -/
structure Environment where
  random : Except String Nonce
  addrFn : Option (Bytes → Except String (Bytes × Bytes × Bytes))
  sendError : Option String

/-- What handling a message returns, leaves and hands to the writer, and the node ID
for which `verifyProofOfPossession` succeeded. -/
structure Handling where
  err : Option HandleError
  conn : ClientConn
  sent : List ServerMessage
  proved : Option Bytes

/-- `sendChallenge`. -/
def sendChallenge (env : Environment) (cc : ClientConn) : Handling :=
  match env.random with
  | .error cause => ⟨some (.challengeNonce cause), cc, [], none⟩
  | .ok nonce =>
      ⟨env.sendError.map .sendChallenge, { cc with nonce := nonce.val }, [.challenge nonce.val],
        none⟩

/-- `verifyProofOfPossession`, with the connection whose nonce is consumed. -/
def verifyProofOfPossession (ed : Ed25519) (cc : ClientConn) (auth : Auth) :
    Except HandleError ClientConn :=
  if cc.nonce.length = 0 then .error .authBeforeChallenge
  else if cc.pubKey.length ≠ 32 then .error (.publicKeyLength cc.pubKey.length)
  else if auth.nodeID ≠ [] ∧ auth.nodeID ≠ cc.nodeID then
    .error (.proofNodeID auth.nodeID cc.nodeID)
  else if !ed.verify cc.pubKey (challengePayload cc.nonce cc.nodeID) auth.signature then
    .error .invalidProof
  else .ok { cc with nonce := [] }

/-- `sendAuthOK` after the proof. -/
def sendAuthOK (env : Environment) (cc : ClientConn) : Handling :=
  match env.addrFn with
  | none => ⟨env.sendError.map .send, cc, [.authOK [] [] []], some cc.nodeID⟩
  | some addrFn =>
      match addrFn cc.nodeID with
      | .error cause => ⟨some (.deriveAddresses cause), cc, [], some cc.nodeID⟩
      | .ok (ipv6, ipv4, subnet) =>
          ⟨env.sendError.map .send, cc, [.authOK ipv6 ipv4 subnet], some cc.nodeID⟩

/-- A message that is only logged, and refused when it does not decode. -/
def handleLogged (cc : ClientConn) (err : Option HandleError) : Handling :=
  ⟨err, cc, [], none⟩

/-- `handleMessage` for a `HELLO`. -/
def handleHello (decode : Decoders) (env : Environment) (cc : ClientConn) (body : Bytes) :
    Handling :=
  match decode.hello body with
  | .error cause => handleLogged cc (some (.decodeHello cause))
  | .ok hello =>
      match validateNodeID hello.nodeID with
      | .error cause => handleLogged cc (some (.rejectHello cause))
      | .ok () => sendChallenge env { cc with nodeID := hello.nodeID, pubKey := hello.pubKey }

/-- `handleMessage` for an `AUTH`. -/
def handleAuth (ed : Ed25519) (decode : Decoders) (env : Environment) (cc : ClientConn)
    (body : Bytes) : Handling :=
  match decode.auth body with
  | .error cause => handleLogged cc (some (.decodeAuth cause))
  | .ok auth =>
      match verifyProofOfPossession ed cc auth with
      | .error err => handleLogged cc (some err)
      | .ok proven => sendAuthOK env proven

/-- `handleMessage`. -/
def handleMessage (ed : Ed25519) (decode : Decoders) (env : Environment) (cc : ClientConn)
    (msgType : MessageType) (body : Bytes) : Handling :=
  if msgType = msgHello then handleHello decode env cc body
  else if msgType = msgAuth then handleAuth ed decode env cc body
  else if msgType = msgKeepalive then handleLogged cc none
  else if msgType = msgNATProbe then
    handleLogged cc ((decode.natProbe body).map .decodeNATProbe)
  else if msgType = msgRoomJoin then
    handleLogged cc ((decode.roomJoin body).map .decodeRoomJoin)
  else if msgType = msgRoomLeave then handleLogged cc none
  else if msgType = msgPunchReq then
    handleLogged cc ((decode.punchReq body).map .decodePunchReq)
  else handleLogged cc (some (.unknownType msgType))

/-- The proof that an `AUTH` has to give for the identity of the connection. -/
structure Proves (ed : Ed25519) (cc : ClientConn) (auth : Auth) : Prop where
  challenged : cc.nonce ≠ []
  keySize : cc.pubKey.length = 32
  sameNode : auth.nodeID = [] ∨ auth.nodeID = cc.nodeID
  verifies : ed.verify cc.pubKey (challengePayload cc.nonce cc.nodeID) auth.signature = true

/-- What handling a message can do. -/
inductive Effect (ed : Ed25519) (decode : Decoders) (cc : ClientConn) (msgType : MessageType)
    (body : Bytes) : Handling → Prop where
  | nothing (err : Option HandleError)
      (refused : msgType = msgHello ∨ msgType = msgAuth → err ≠ none) :
      Effect ed decode cc msgType body ⟨err, cc, [], none⟩
  | challenge (hello : Hello) (nonce : Nonce) (err : Option HandleError)
      (type : msgType = msgHello) (decoded : decode.hello body = .ok hello)
      (valid : validateNodeID hello.nodeID = .ok ()) :
      Effect ed decode cc msgType body
        ⟨err, ⟨hello.nodeID, hello.pubKey, nonce.val⟩, [.challenge nonce.val], none⟩
  | noNonce (hello : Hello) (err : HandleError)
      (type : msgType = msgHello) (decoded : decode.hello body = .ok hello)
      (valid : validateNodeID hello.nodeID = .ok ()) :
      Effect ed decode cc msgType body
        ⟨some err, ⟨hello.nodeID, hello.pubKey, cc.nonce⟩, [], none⟩
  | noAddresses (auth : Auth) (err : HandleError)
      (type : msgType = msgAuth) (decoded : decode.auth body = .ok auth)
      (proves : Proves ed cc auth) :
      Effect ed decode cc msgType body
        ⟨some err, ⟨cc.nodeID, cc.pubKey, []⟩, [], some cc.nodeID⟩
  | authOK (auth : Auth) (err : Option HandleError) (ipv6 ipv4 subnet : Bytes)
      (type : msgType = msgAuth) (decoded : decode.auth body = .ok auth)
      (proves : Proves ed cc auth) :
      Effect ed decode cc msgType body
        ⟨err, ⟨cc.nodeID, cc.pubKey, []⟩, [.authOK ipv6 ipv4 subnet], some cc.nodeID⟩

/-- A proof is accepted only if it verifies; the nonce is then spent and the identity kept. -/
theorem verifyProofOfPossession_eq_ok {ed : Ed25519} {cc proven : ClientConn} {auth : Auth}
    (verified : verifyProofOfPossession ed cc auth = .ok proven) :
    Proves ed cc auth ∧ proven = ⟨cc.nodeID, cc.pubKey, []⟩ := by
  unfold verifyProofOfPossession at verified
  split at verified
  · cases verified
  next challenged =>
    split at verified
    · cases verified
    next keySize =>
      split at verified
      · cases verified
      next sameNode =>
        split at verified
        · cases verified
        next verifies =>
          cases verified
          refine ⟨⟨?_, of_not_not keySize, ?_, ?_⟩, rfl⟩
          · intro empty
            exact challenged (congrArg List.length empty)
          · by_cases unnamed : auth.nodeID = []
            · exact Or.inl unnamed
            · exact Or.inr (of_not_not fun differs => sameNode ⟨unnamed, differs⟩)
          · simpa only [Bool.not_eq_true', Bool.not_eq_false] using verifies

/-- A `HELLO` has one of the effects a message may have. -/
theorem handleHello_effect (ed : Ed25519) (decode : Decoders) (env : Environment)
    (cc : ClientConn) (body : Bytes) :
    Effect ed decode cc msgHello body (handleHello decode env cc body) := by
  unfold handleHello
  split
  · exact .nothing _ fun _ => nofun
  · next hello decoded =>
      split
      · exact .nothing _ fun _ => nofun
      · next valid =>
          unfold sendChallenge
          split
          · exact .noNonce hello _ rfl decoded valid
          · next nonce _ => exact .challenge hello nonce _ rfl decoded valid

/-- An `AUTH` has one of the effects a message may have. -/
theorem handleAuth_effect (ed : Ed25519) (decode : Decoders) (env : Environment)
    (cc : ClientConn) (body : Bytes) :
    Effect ed decode cc msgAuth body (handleAuth ed decode env cc body) := by
  unfold handleAuth
  split
  · exact .nothing _ fun _ => nofun
  · next auth decoded =>
      split
      · exact .nothing _ fun _ => nofun
      · next proven verified =>
          obtain ⟨proves, rfl⟩ := verifyProofOfPossession_eq_ok verified
          unfold sendAuthOK
          split
          · exact .authOK auth _ [] [] [] rfl decoded proves
          · split
            · exact .noAddresses auth _ rfl decoded proves
            · next ipv6 ipv4 subnet _ => exact .authOK auth _ ipv6 ipv4 subnet rfl decoded proves

/-- Every message has one of the effects of `Effect`, whatever its type. -/
theorem handleMessage_effect (ed : Ed25519) (decode : Decoders) (env : Environment)
    (cc : ClientConn) (msgType : MessageType) (body : Bytes) :
    Effect ed decode cc msgType body (handleMessage ed decode env cc msgType body) := by
  unfold handleMessage
  split
  · next isHello =>
      subst isHello
      exact handleHello_effect ed decode env cc body
  · next notHello =>
      split
      · next isAuth =>
          subst isAuth
          exact handleAuth_effect ed decode env cc body
      · next notAuth =>
          have other : ¬ (msgType = msgHello ∨ msgType = msgAuth) := not_or.mpr ⟨notHello, notAuth⟩
          split_ifs <;> exact .nothing _ fun wrong => absurd wrong other

end P2pMesh.Bootstrap

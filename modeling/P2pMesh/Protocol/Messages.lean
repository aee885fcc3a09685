import P2pMesh.Types.NodeID

/-! # Messages of the control plane

The message types of `internal/protocol/proto.go` that the bootstrap server receives
and sends, with the fields it reads and writes. `encoding/json` is a parameter of what
follows: an arbitrary decoder for each type of message. What a node signs determines its ID
(`P2pMesh.Protocol.challengePayload_injective`).
-/

namespace P2pMesh.Protocol

open Foundation

/-- `MessageType`. -/
abbrev MessageType := UInt32

/-- `MsgHello`. -/
def msgHello : MessageType := 1

/-- `MsgAuth`. -/
def msgAuth : MessageType := 3

/-- `MsgNATProbe`. -/
def msgNATProbe : MessageType := 5

/-- `MsgPunchReq`. -/
def msgPunchReq : MessageType := 7

/-- `MsgKeepalive`. -/
def msgKeepalive : MessageType := 9

/-- `MsgRoomJoin`. -/
def msgRoomJoin : MessageType := 12

/-- `MsgRoomLeave`. -/
def msgRoomLeave : MessageType := 13

/-- The fields of a `HELLO` that the server uses. -/
structure Hello where
  nodeID : Bytes
  pubKey : Bytes
deriving DecidableEq

/-- The fields of an `AUTH` that the server uses. -/
structure Auth where
  nodeID : Bytes
  signature : Bytes
deriving DecidableEq

/-- `json.Unmarshal` at the types of the messages. The server does nothing with the
fields of the last three, so only the error counts. -/
structure Decoders where
  hello : Bytes → Except String Hello
  auth : Bytes → Except String Auth
  natProbe : Bytes → Option String
  roomJoin : Bytes → Option String
  punchReq : Bytes → Option String

/-- The messages that the server sends. -/
inductive ServerMessage where
  | challenge (nonce : Bytes)
  | authOK (ipv6Addr ipv4Addr roomSubnet : Bytes)
deriving DecidableEq

/-- The nonce of a `CHALLENGE`. -/
def ServerMessage.nonce : ServerMessage → Option Bytes
  | .challenge nonce => some nonce
  | .authOK _ _ _ => none

/-- The message is an `AUTH_OK`. -/
def ServerMessage.isAuthOK : ServerMessage → Bool
  | .challenge _ => false
  | .authOK _ _ _ => true

/-- `ChallengePayload`. -/
def challengePayload (nonce nodeID : Bytes) : Bytes :=
  ascii "gop2pmesh/pop/v1:" ++ nonce ++ ascii ":" ++ nodeID

/-- The payload determines the nonce and the ID: a valid ID has no colon, so the ID begins
after the last colon of the payload, whatever bytes the nonce has. -/
theorem challengePayload_injective {nonce nonce' nodeID nodeID' : Bytes}
    (valid : validateNodeID nodeID = .ok ()) (valid' : validateNodeID nodeID' = .ok ())
    (same : challengePayload nonce nodeID = challengePayload nonce' nodeID') :
    nonce = nonce' ∧ nodeID = nodeID' := by
  have noColon {id : Bytes} (valid : validateNodeID id = .ok ()) : NetAddr.colon ∉ id := by
    intro member
    exact absurd (byte_of_validateNodeID valid member) (by decide)
  have payload (nonce id : Bytes) : challengePayload nonce id =
      (ascii "gop2pmesh/pop/v1:" ++ nonce) ++ NetAddr.colon :: id := by
    rw [challengePayload, List.append_assoc _ (ascii ":")]
    rfl
  rw [payload, payload] at same
  have parts := congrArg (List.splitOn NetAddr.colon) same
  rw [List.splitOn_append_cons_self, List.splitOn_append_cons_self,
    List.splitOn_eq_singleton (noColon valid), List.splitOn_eq_singleton (noColon valid')] at parts
  have sameID : nodeID = nodeID' := List.singleton_inj.mp (List.append_inj' parts rfl).2
  subst sameID
  exact ⟨List.append_cancel_left (List.append_cancel_right same), rfl⟩

/-- With nonces that contain the separator. -/
theorem challengePayload_injective_colons :
    challengePayload (ascii ":a") (ascii "a3f9k2m8-7p1q-x4r6") ≠
      challengePayload (ascii ":") (ascii "b3f9k2m8-7p1q-x4r6") ∧
    ascii ":" = ascii ":" ∧ ascii "a3f9k2m8-7p1q-x4r6" = ascii "a3f9k2m8-7p1q-x4r6" :=
  ⟨fun same => absurd (challengePayload_injective (by decide) (by decide) same).1 (by decide),
    challengePayload_injective (by decide) (by decide) rfl⟩

end P2pMesh.Protocol

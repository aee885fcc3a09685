import P2pMesh.Foundation.ByteStream
import P2pMesh.Foundation.Json
import P2pMesh.Protocol.Messages

/-! # Frames of the control plane

`Encode` and `Decode` of `internal/protocol/proto.go`. `json.Marshal` is a parameter, and a
nil payload is `none`. The writer is any state with a `Write`; a write without an error has
taken all of its bytes. What `Encode` wrote is read back, and nothing less than a whole
frame is, exactly when no body is longer than the 16 MiB that `Decode` accepts
(`P2pMesh.Protocol.lossless_iff`): `Encode` has no such limit, and writes the length of a
body modulo 2^32.
-/

namespace P2pMesh.Protocol

open Foundation

/-- An `io.Writer`. -/
structure Writer (ω : Type) where
  write : ω → Bytes → Option String × ω

/-- A writer's state and the bytes that its writes without an error have taken. -/
structure Output (ω : Type) where
  state : ω
  stream : Bytes

/-- A write of a chunk, which reaches the stream if it succeeds. -/
def Writer.put {ω : Type} (w : Writer ω) (out : Output ω) (chunk : Bytes) :
    Option String × Output ω :=
  match w.write out.state chunk with
  | (some cause, state) => (some cause, { out with state })
  | (none, state) => (none, ⟨state, out.stream ++ chunk⟩)

/-- The errors of `Encode`. -/
inductive EncodeError where
  | marshal (cause : String)
  | header (cause : String)
  | body (cause : String)
deriving DecidableEq, Repr

/-- The texts of the errors. -/
def EncodeError.text : EncodeError → String
  | .marshal cause => "marshal payload: " ++ cause
  | .header cause => "write header: " ++ cause
  | .body cause => "write body: " ++ cause

/-- The errors of `Decode`. -/
inductive DecodeError where
  | header (cause : String)
  | tooLarge (size : UInt32)
  | body (cause : String)
deriving DecidableEq, Repr

/-- The texts of the errors. -/
def DecodeError.text : DecodeError → String
  | .header cause => "read header: " ++ cause
  | .tooLarge size => "payload too large: " ++ toString size ++ " bytes"
  | .body cause => "read body: " ++ cause

/-- The arguments of a call of `Encode`. -/
structure Message (π : Type) where
  msgType : MessageType
  payload : Option π

/-- The eight bytes in front of a body. -/
def frameHeader (msgType : MessageType) (body : Bytes) : Bytes :=
  putUint32 msgType ++ putUint32 (UInt32.ofNat body.length)

section Encoding

variable {π ω : Type} (marshal : π → Except String Bytes) (w : Writer ω)

/-- The body of a message. -/
def Message.body (m : Message π) : Except String Bytes :=
  match m.payload with
  | none => .ok []
  | some payload => marshal payload

/-- `Encode`. -/
def encode (out : Output ω) (m : Message π) : Option EncodeError × Output ω :=
  match m.body marshal with
  | .error cause => (some (.marshal cause), out)
  | .ok body =>
      match w.put out (frameHeader m.msgType body) with
      | (some cause, out) => (some (.header cause), out)
      | (none, out) =>
          if 0 < body.length then
            match w.put out body with
            | (some cause, out) => (some (.body cause), out)
            | (none, out) => (none, out)
          else (none, out)

/-- `Encode` for one message after the other, up to the first error. -/
def encodeAll (out : Output ω) : List (Message π) → Option EncodeError × Output ω
  | [] => (none, out)
  | m :: messages =>
      match encode marshal w out m with
      | (some err, out) => (some err, out)
      | (none, out) => encodeAll out messages

/-- The type and the JSON body of a message that can be encoded. -/
def Message.pair (m : Message π) : MessageType × Bytes :=
  (m.msgType, (m.body marshal).toOption.getD [])

end Encoding

/-- The most that `Decode` accepts. -/
def maxBody : UInt32 := 16 * 1024 * 1024

/-- `Decode`, with the stream it leaves. -/
def decode (conn : Bytes) : Except DecodeError (MessageType × Bytes) × Bytes :=
  match readFull 8 conn with
  | (.error cause, rest) => (.error (.header cause), rest)
  | (.ok header, rest) =>
      let msgType := uint32 (header.take 4)
      let bodyLen := uint32 (header.drop 4)
      if maxBody < bodyLen then (.error (.tooLarge bodyLen), rest)
      else if 0 < bodyLen then
        match readFull bodyLen.toNat rest with
        | (.error cause, rest) => (.error (.body cause), rest)
        | (.ok body, rest) => (.ok (msgType, body), rest)
      else (.ok (msgType, []), rest)

/-- The frame of a type and a body. -/
def frame (pair : MessageType × Bytes) : Bytes :=
  frameHeader pair.1 pair.2 ++ pair.2

/-- Repeated reads return the messages and then fail at the end of the stream, and no
proper part of a frame that is not empty is read. -/
structure Lossless (pairs : List (MessageType × Bytes)) (stream : Bytes) : Prop where
  decoded : readMany decode (pairs.length + 1) stream =
    pairs.map .ok ++ [.error (.header "EOF")]
  truncated : ∀ pair ∈ pairs, ∀ part rest, frame pair = part ++ rest → part ≠ [] → rest ≠ [] →
    ∃ err, (decode part).1 = .error err

section Writing

variable {π ω : Type} {marshal : π → Except String Bytes} {w : Writer ω}

/-- A write that succeeds appends the chunk to the stream. -/
theorem Writer.stream_put {out after : Output ω} {chunk : Bytes}
    (taken : w.put out chunk = (none, after)) : after.stream = out.stream ++ chunk := by
  unfold Writer.put at taken
  split at taken
  · cases taken
  · cases taken
    rfl

/-- A message that is written without an error is written as its frame. -/
theorem stream_encode {out after : Output ω} {m : Message π}
    (written : encode marshal w out m = (none, after)) :
    after.stream = out.stream ++ frame (m.pair marshal) := by
  unfold encode at written
  split at written
  · cases written
  next body marshalled =>
  have sent : m.pair marshal = (m.msgType, body) := by
    simp only [Message.pair, marshalled, Except.toOption, Option.getD_some]
  rw [sent]
  split at written
  · cases written
  next headed =>
  have header := Writer.stream_put headed
  split at written
  · split at written
    · cases written
    next bodied =>
      cases written
      rw [Writer.stream_put bodied, header, List.append_assoc]
      rfl
  · next empty =>
      cases written
      have nothing : body = [] := List.length_eq_zero_iff.mp (by omega)
      rw [header, frame, nothing, List.append_nil]

/-- Messages that are all written make a stream of their frames. -/
theorem stream_encodeAll {out after : Output ω} {messages : List (Message π)}
    (written : encodeAll marshal w out messages = (none, after)) :
    after.stream = out.stream ++ (messages.map (Message.pair marshal)).flatMap frame := by
  induction messages generalizing out with
  | nil =>
      cases written
      rw [List.map_nil, List.flatMap_nil, List.append_nil]
  | cons m messages ih =>
      simp only [encodeAll] at written
      split at written
      · cases written
      next first =>
        rw [ih written, stream_encode first, List.map_cons, List.flatMap_cons, List.append_assoc]

end Writing

section Reading

/-- A frame starts with eight bytes of header. -/
@[simp] theorem length_frameHeader (msgType : MessageType) (body : Bytes) :
    (frameHeader msgType body).length = 8 := by
  rw [frameHeader, List.length_append, length_putUint32, length_putUint32]

/-- A complete header is read as the type and the length modulo 2^32. -/
theorem decode_header (msgType : MessageType) (body conn : Bytes) :
    decode (frameHeader msgType body ++ conn) =
      if maxBody < UInt32.ofNat body.length then
        (.error (.tooLarge (UInt32.ofNat body.length)), conn)
      else if 0 < UInt32.ofNat body.length then
        match readFull (UInt32.ofNat body.length).toNat conn with
        | (.error cause, rest) => (.error (.body cause), rest)
        | (.ok body, rest) => (.ok (msgType, body), rest)
      else (.ok (msgType, []), conn) := by
  have header : readFull 8 (frameHeader msgType body ++ conn) =
      (.ok (frameHeader msgType body), conn) := by
    rw [← length_frameHeader msgType body]
    exact readFull_append _ _
  have front : (frameHeader msgType body).take 4 = putUint32 msgType :=
    List.take_left' (length_putUint32 _)
  have back : (frameHeader msgType body).drop 4 = putUint32 (UInt32.ofNat body.length) :=
    List.drop_left' (length_putUint32 _)
  simp only [decode, header, front, back, uint32_putUint32]

/-- Bodies that are read are no longer than the limit. -/
theorem length_le_of_decode {conn : Bytes} {pair : MessageType × Bytes}
    (read : (decode conn).1 = .ok pair) : pair.2.length ≤ 16 * 1024 * 1024 := by
  unfold decode at read
  split at read
  · cases read
  dsimp only at read
  split at read
  · cases read
  next accepted =>
  split at read
  · split at read
    · cases read
    next found =>
      cases read
      unfold readFull at found
      split at found
      · cases found
        have bound := UInt32.le_iff_toNat_le.mp (UInt32.not_lt.mp accepted)
        rw [List.length_take]
        exact (Nat.min_le_left _ _).trans bound
      · cases found
  · cases read
    exact Nat.zero_le _

/-- The length of a body within the limit fits its field. -/
theorem toNat_length {body : Bytes} (short : body.length ≤ 16 * 1024 * 1024) :
    (UInt32.ofNat body.length).toNat = body.length :=
  UInt32.toNat_ofNat_of_lt' (short.trans_lt (by decide))

/-- A body within the limit is not refused by the reader. -/
theorem not_maxBody_lt {body : Bytes} (short : body.length ≤ 16 * 1024 * 1024) :
    ¬ maxBody < UInt32.ofNat body.length := by
  rw [UInt32.not_lt, UInt32.le_iff_toNat_le, toNat_length short]
  exact short

/-- A frame within the limit is read back, whatever follows it. -/
theorem decode_frame {pair : MessageType × Bytes} (short : pair.2.length ≤ 16 * 1024 * 1024)
    (rest : Bytes) : decode (frame pair ++ rest) = (.ok pair, rest) := by
  obtain ⟨msgType, body⟩ := pair
  have length := toNat_length short
  simp only [frame, List.append_assoc]
  rw [decode_header, if_neg (not_maxBody_lt short)]
  split
  · rw [length, readFull_append]
  · next empty =>
      rw [UInt32.not_lt, UInt32.le_iff_toNat_le, length] at empty
      have nothing : body = [] := List.length_eq_zero_iff.mp (Nat.le_zero.mp empty)
      rw [nothing, List.nil_append]

/-- From a frame whose length is accepted modulo 2^32, as many bytes are read as the
length says. -/
theorem decode_frame_wrapped {pair : MessageType × Bytes}
    (accepted : ¬ maxBody < UInt32.ofNat pair.2.length)
    (positive : 0 < UInt32.ofNat pair.2.length) :
    (decode (frame pair)).1 =
      .ok (pair.1, pair.2.take (UInt32.ofNat pair.2.length).toNat) := by
  have fewer : (UInt32.ofNat pair.2.length).toNat ≤ pair.2.length := by
    rw [UInt32.toNat_ofNat']
    exact Nat.mod_le _ _
  rw [frame, decode_header, if_neg accepted, if_pos positive, readFull, if_pos fewer]

/-- A proper part of a frame within the limit is not read. -/
theorem decode_part {pair : MessageType × Bytes} (short : pair.2.length ≤ 16 * 1024 * 1024)
    {part rest : Bytes} (split : frame pair = part ++ rest) (proper : rest ≠ []) :
    ∃ err, (decode part).1 = .error err := by
  obtain ⟨msgType, body⟩ := pair
  have length := toNat_length short
  by_cases header : part.length < 8
  · rw [decode, readFull_of_short header]
    exact ⟨_, rfl⟩
  · have whole : frameHeader msgType body <+: part := by
      refine List.prefix_of_prefix_length_le ⟨body, split⟩ ⟨rest, rfl⟩ ?_
      rw [length_frameHeader]
      omega
    obtain ⟨begun, rfl⟩ := whole
    rw [frame, List.append_assoc, List.append_cancel_left_eq] at split
    change body = begun ++ rest at split
    have positive := List.length_pos_iff.mpr proper
    have cut : begun.length < body.length := by
      rw [split, List.length_append]
      omega
    rw [decode_header, if_neg (not_maxBody_lt short), if_pos, length, readFull_of_short cut]
    · exact ⟨_, rfl⟩
    · rw [UInt32.lt_iff_toNat_lt, length]
      exact Nat.zero_lt_of_lt cut

/-- Frames are read back without loss exactly if no body is above the limit. -/
theorem lossless_flatMap_iff (pairs : List (MessageType × Bytes)) :
    Lossless pairs (pairs.flatMap frame) ↔ ∀ pair ∈ pairs, pair.2.length ≤ 16 * 1024 * 1024 := by
  constructor
  · intro lossless pair member
    have returned : .ok pair ∈ readMany decode (pairs.length + 1) (pairs.flatMap frame) := by
      rw [lossless.decoded]
      exact List.mem_append_left _ (List.mem_map_of_mem member)
    obtain ⟨_, read⟩ := exists_of_mem_readMany returned
    exact length_le_of_decode read
  · intro short
    refine ⟨?_, fun pair member part rest split _ => decode_part (short pair member) split⟩
    have read := readMany_flatMap (fun pair member => decode_frame (short pair member)) 1 []
    rw [List.append_nil] at read
    exact read

end Reading

/-- Messages that `Encode` writes without an error to one stream are read back exactly when
no body is longer than 16 MiB. -/
theorem lossless_iff {π ω : Type} {marshal : π → Except String Bytes} {w : Writer ω}
    {state : ω} {messages : List (Message π)} {after : Output ω}
    (written : encodeAll marshal w ⟨state, []⟩ messages = (none, after)) :
    Lossless (messages.map (Message.pair marshal)) after.stream ↔
      ∀ m ∈ messages, (m.pair marshal).2.length ≤ 16 * 1024 * 1024 := by
  rw [stream_encodeAll written, List.nil_append, lossless_flatMap_iff, List.forall_mem_map]

section Samples

/-- `json.Marshal` of a string. -/
def marshalString (text : Bytes) : Except String Bytes :=
  .ok (encodeRunes (Json.quote text))

/-- A writer that takes everything. -/
def buffer : Writer Unit :=
  ⟨fun state _ => (none, state)⟩

/-- A message whose payload is a string of letters. -/
def letters (count : Nat) : Message Bytes :=
  ⟨1, some (List.replicate count 0x61)⟩

/-- The letters are written between two quotes. -/
theorem length_letters (count : Nat) :
    ((letters count).pair marshalString).2.length = count + 2 := by
  have plain : Json.isPlain (List.replicate count 0x61) = true := by
    rw [Json.isPlain, List.all_replicate]
    split
    · rfl
    · decide
  have quotes : encodeRunes ['"'] = [0x22] := by decide
  have body : ((letters count).pair marshalString).2 =
      encodeRunes (Json.quote (List.replicate count 0x61)) := rfl
  rw [body, Json.quote_of_plain plain, ← List.singleton_append, encodeRunes, List.flatMap_append,
    List.flatMap_append, ← encodeRunes, ← encodeRunes, quotes,
    Json.encodeRunes_clean_of_plain plain]
  simp only [List.length_append, List.length_replicate, List.length_singleton]
  omega

/-- A message is always written to a buffer. -/
theorem encode_buffer (m : Message Bytes) :
    ∃ after, encodeAll marshalString buffer ⟨(), []⟩ [m] = (none, after) := by
  obtain ⟨msgType, payload⟩ := m
  cases payload with
  | none => exact ⟨_, rfl⟩
  | some text =>
      simp only [encodeAll, encode, Message.body, marshalString, Writer.put, buffer]
      split
      · next failed =>
          split at failed <;> cases failed
      · exact ⟨_, rfl⟩

/-- A message without a payload and one with a short string. -/
def shortMessages : List (Message Bytes) :=
  [⟨9, none⟩, letters 2]

/-- Short messages are read back as they were written. -/
theorem shortMessages_lossless :
    ∃ after, encodeAll marshalString buffer ⟨(), []⟩ shortMessages = (none, after) ∧
      Lossless (shortMessages.map (Message.pair marshalString)) after.stream := by
  have written : encodeAll marshalString buffer ⟨(), []⟩ shortMessages = (none, _) := rfl
  refine ⟨_, written, (lossless_iff written).mpr ?_⟩
  decide

/-- A string that is too long for `Decode` is encoded without an error, and from a string
of 2^32 letters `Decode` returns two bytes without an error. -/
theorem letters_not_lossless :
    (∃ after, encodeAll marshalString buffer ⟨(), []⟩ [letters (2 ^ 24)] = (none, after) ∧
      ¬ Lossless ([letters (2 ^ 24)].map (Message.pair marshalString)) after.stream) ∧
    ∃ after, encodeAll marshalString buffer ⟨(), []⟩ [letters (2 ^ 32)] = (none, after) ∧
      ∃ body, (decode after.stream).1 = .ok (1, body) ∧ body.length = 2 := by
  constructor
  · obtain ⟨after, written⟩ := encode_buffer (letters (2 ^ 24))
    refine ⟨after, written, ?_⟩
    rw [stream_encodeAll written, List.nil_append, lossless_flatMap_iff]
    intro short
    have bound := short _ List.mem_cons_self
    rw [length_letters] at bound
    omega
  · obtain ⟨after, written⟩ := encode_buffer (letters (2 ^ 32))
    refine ⟨after, written, ?_⟩
    have wrapped : UInt32.ofNat ((letters (2 ^ 32)).pair marshalString).2.length = 2 := by
      rw [length_letters]
      decide
    rw [stream_encodeAll written, List.nil_append, List.map_singleton, List.flatMap_singleton,
      decode_frame_wrapped (by rw [wrapped]; decide) (by rw [wrapped]; decide), wrapped]
    refine ⟨_, rfl, ?_⟩
    rw [List.length_take, length_letters]
    rfl

end Samples

end P2pMesh.Protocol

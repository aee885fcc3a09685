import P2pMesh.Tunnel.Datagrams
import P2pMesh.Tunnel.Duplex
import P2pMesh.Tunnel.Forgery

/-! # A sequence of packets over a byte stream

One end writes packets, the other reads them from the stream in between, in any
interleaving. The frames arrive in order, and the sequence number of each is above those
before it until the counter has gone through all of its 64 bits. A packet is returned as it
was written exactly when its number passes the replay window or it is empty
(`P2pMesh.Transfer.returned_iff_passes`).
-/

namespace P2pMesh

open Foundation

/-- `Open` undoes `Seal`, and `Seal` adds the overhead, for nonces of twelve bytes. -/
structure AEAD.Inverts (aead : AEAD) : Prop where
  open_seal : ∀ nonce plaintext data, nonce.length = 12 →
    aead.openWith nonce (aead.sealWith nonce plaintext data) data = .ok plaintext
  length_seal : ∀ nonce plaintext data, nonce.length = 12 →
    (aead.sealWith nonce plaintext data).length = plaintext.length + aead.overhead

/-- The packet that a caller of `Read` finds in its buffer. -/
def ReadReturn.packet (r : ReadReturn) : Option Bytes :=
  if r.err = none then some (r.buffer.take r.n) else none

/-- The two ends, the bytes on the way between them, the packets that were written and
what the `Read` calls returned. -/
structure Transfer where
  sender : Tunnel
  wire : Bytes
  receiver : Tunnel
  written : List Bytes
  returned : List ReadReturn

/-- Two new tunnels with nothing between them. -/
def newTransfer (aead : AEAD) (transport : Side → Transport) (mtu : Int64) : Transfer where
  sender := newTunnel aead (transport .left) mtu
  wire := []
  receiver := newTunnel aead (transport .right) mtu
  written := []
  returned := []

/-- A write of the sender, or a read into a buffer. -/
inductive TransferLabel where
  | write (payload : Bytes)
  | read (buffer : Bytes)

/-- A `Write` of a packet whose frame has a length field for it, or the return of a `Read`
into a buffer that has room for every packet. No slice of Go has `2 ^ 62` bytes. -/
inductive TransferStep : Transfer → TransferLabel → Transfer → Prop where
  | write {t : Transfer} (payload : Bytes) :
      payload.length ≤ t.sender.mtu → payload.length + t.sender.aead.overhead ≤ 65535 →
      TransferStep t (.write payload)
        { t with
          sender := (t.sender.write payload none).2
          wire := t.wire ++ (t.sender.write payload none).1.sent
          written := t.written ++ [payload] }
  | read {t : Transfer} (buffer : Bytes) :
      t.receiver.mtu ≤ buffer.length → buffer.length < 2 ^ 62 → t.receiver.Readable t.wire →
      TransferStep t (.read buffer)
        { t with
          receiver := (t.receiver.read t.wire buffer).2.1
          wire := (t.receiver.read t.wire buffer).2.2
          returned := t.returned ++ [(t.receiver.read t.wire buffer).1] }

/-- The sequence number of the packet at a place of the sequence. -/
def seqAt (place : Nat) : UInt64 :=
  UInt64.ofNat (place + 1)

/-- The packet at the place has a number that the replay window lets through: the counter
has not wrapped around, or the number is far behind the highest one. -/
def Passes (place : Nat) : Prop :=
  place + 1 < 2 ^ 64 ∨ (place + 1) % 2 ^ 64 + 1024 < 2 ^ 64

instance (place : Nat) : Decidable (Passes place) :=
  inferInstanceAs (Decidable (_ ∨ _))

/-- The bytes that the `Write` of the packet at a place sends. -/
def sentFrame (aead : AEAD) (place : Nat) (payload : Bytes) : Bytes :=
  let ciphertext := aead.sealWith (nonceOf (seqAt place)) payload (putUint64 (seqAt place))
  putUint64 (seqAt place) ++ putUint16 (UInt16.ofNat ciphertext.length) ++ ciphertext

/-- The frames of consecutive packets. -/
def sentFrames (aead : AEAD) : Nat → List Bytes → Bytes
  | _, [] => []
  | place, payload :: rest => sentFrame aead place payload ++ sentFrames aead (place + 1) rest

/-- One more packet is sent after the others, under the next number. -/
theorem sentFrames_concat (aead : AEAD) (place : Nat) (payloads : List Bytes) (payload : Bytes) :
    sentFrames aead place (payloads ++ [payload]) =
      sentFrames aead place payloads ++ sentFrame aead (place + payloads.length) payload := by
  induction payloads generalizing place with
  | nil => simp only [List.nil_append, sentFrames, List.append_nil, List.length_nil, Nat.add_zero]
  | cons first rest ih =>
      have next : place + 1 + rest.length = place + (first :: rest).length := by
        rw [List.length_cons]
        omega
      rw [List.cons_append, sentFrames, sentFrames, ih, next, List.append_assoc]

/-- The highest of the first sequence numbers is their count, until the counter wraps around. -/
theorem highest_seqAt (count : Nat) :
    highest ((List.range count).map seqAt) = min count (2 ^ 64 - 1) := by
  induction count with
  | zero => rfl
  | succ count ih =>
      rw [List.range_succ, List.map_append, List.map_singleton, highest_concat, ih, seqAt,
        UInt64.toNat_ofNat']
      omega

/-- The window after the numbers of all earlier packets. -/
theorem allow_seqAt_iff (place : Nat) :
    (((newReplayWindow 1024).afterAll ((List.range place).map seqAt)).allow
      (seqAt place)).1 = true ↔ Passes place := by
  rw [ReplayWindow.allow_afterAll_iff, Ahead, FarBehind, highest_seqAt, seqAt,
    UInt64.toNat_ofNat', Passes]
  change _ ∨ _ + 1024 ≤ _ ↔ _
  omega

theorem ofNat_succ (place : Nat) : UInt64.ofNat place + 1 = seqAt place := by
  rw [seqAt, UInt64.ofNat_add]
  rfl

/-- A buffer that is large enough holds the whole packet. -/
theorem take_copyInto {destination source : Bytes} (room : source.length ≤ destination.length) :
    (copyInto destination source).take source.length = source := by
  rw [copyInto, List.take_of_length_le room]
  exact List.take_left

namespace Tunnel

/-- A `Write` sends the frame of its place. -/
theorem write_sentFrame {t : Tunnel} (isOpen : t.closed = false) {payload : Bytes}
    (short : payload.length ≤ t.mtu) {place : Nat} (numbered : t.sendSeq = UInt64.ofNat place) :
    (t.write payload none).1.sent = sentFrame t.aead place payload ∧
      (t.write payload none).2 = { t with sendSeq := UInt64.ofNat (place + 1) } := by
  have number : t.sendSeq + 1 = seqAt place := by
    rw [numbered, ofNat_succ]
  simp only [write, isOpen, Bool.false_eq_true, ↓reduceIte, Nat.not_lt.mpr short, number, sentFrame,
    true_and]
  rfl

/-- The packet of a complete ciphertext that opens: an empty one when the window drops the
number. -/
theorem packet_readCiphertext {t : Tunnel} {seq : UInt64} {ciphertext payload buffer : Bytes}
    (opened : t.aead.openWith (nonceOf seq) ciphertext (putUint64 seq) = .ok payload)
    (room : payload.length ≤ buffer.length) :
    (t.readCiphertext seq ciphertext.length ciphertext buffer).1.packet =
      some (if (t.recvWindow.allow seq).1 then payload else []) := by
  have whole := readFull_append ciphertext []
  rw [List.append_nil] at whole
  unfold readCiphertext
  cases (t.recvWindow.allow seq).1 with
  | true => simp only [↓reduceIte, whole, opened, ReadReturn.packet, take_copyInto room]
  | false => simp only [Bool.false_eq_true, ↓reduceIte, ReadReturn.packet, List.take_zero]

/-- A `Read` consumes the frame of a packet and returns the packet, or an empty one when
the window drops the number. -/
theorem read_sentFrame {t : Tunnel} (isOpen : t.closed = false) (inverts : t.aead.Inverts)
    {payload buffer : Bytes} (short : payload.length ≤ t.mtu)
    (fits : payload.length + t.aead.overhead ≤ 65535) (room : t.mtu ≤ buffer.length)
    (bounded : buffer.length < 2 ^ 62) (place : Nat) (rest : Bytes) :
    (t.read (sentFrame t.aead place payload ++ rest) buffer).2 =
        ({ t with recvWindow := (t.recvWindow.allow (seqAt place)).2 }, rest) ∧
      (t.read (sentFrame t.aead place payload ++ rest) buffer).1.packet =
        some (if (t.recvWindow.allow (seqAt place)).1 then payload else []) := by
  have size := inverts.length_seal (nonceOf (seqAt place)) payload (putUint64 (seqAt place))
    (length_nonceOf _)
  have opened := inverts.open_seal (nonceOf (seqAt place)) payload (putUint64 (seqAt place))
    (length_nonceOf _)
  let frame : Frame := ⟨seqAt place,
    t.aead.sealWith (nonceOf (seqAt place)) payload (putUint64 (seqAt place)), by omega⟩
  have inLimit : frame.ciphertext.length ≤ t.limit := by
    change ((t.aead.sealWith _ _ _).length : Int) ≤ t.limit
    rw [t.limit_of_fits (by omega), size]
    omega
  have answered := t.read_encode frame rest buffer
  have left := t.read_encode_rest isOpen frame inLimit rest buffer
  simp only [receive, isOpen, Bool.false_eq_true, ↓reduceIte, Int.not_lt.mpr inLimit,
    Prod.mk.injEq] at answered
  change (t.read (frame.encode ++ rest) buffer).2 = _ ∧
    (t.read (frame.encode ++ rest) buffer).1.packet = _
  rw [answered.1]
  refine ⟨Prod.ext ?_ left, packet_readCiphertext opened (short.trans room)⟩
  rw [answered.2, isOpen]

end Tunnel

/-- What holds of a transfer after any number of writes and reads. -/
structure Transfer.Sound (aead : AEAD) (t : Transfer) : Prop where
  sender : t.sender.aead = aead ∧ t.sender.closed = false
  numbered : t.sender.sendSeq = UInt64.ofNat t.written.length
  receiver : t.receiver.aead = aead ∧ t.receiver.closed = false ∧ t.receiver.mtu = t.sender.mtu
  window : t.receiver.recvWindow =
    (newReplayWindow 1024).afterAll ((List.range t.returned.length).map seqAt)
  wire : t.wire = sentFrames aead t.returned.length (t.written.drop t.returned.length)
  count : t.returned.length ≤ t.written.length
  fits : ∀ payload ∈ t.written,
    payload.length ≤ t.sender.mtu ∧ payload.length + aead.overhead ≤ 65535
  packets : ∀ (place : Nat) r, t.returned[place]? = some r → ∃ payload,
    t.written[place]? = some payload ∧ r.packet = some (if Passes place then payload else [])

/-- A frame that was sent is read at once. -/
theorem readable_sentFrame {t : Tunnel} (inverts : t.aead.Inverts) {payload : Bytes}
    (fits : payload.length + t.aead.overhead ≤ 65535) (place : Nat) (rest : Bytes) :
    t.Readable (sentFrame t.aead place payload ++ rest) := by
  apply Tunnel.Readable.append
  right
  have size := inverts.length_seal (nonceOf (seqAt place)) payload (putUint64 (seqAt place))
    (length_nonceOf _)
  have field : ((sentFrame t.aead place payload).drop 8).take 2 = putUint16 (UInt16.ofNat
      (t.aead.sealWith (nonceOf (seqAt place)) payload (putUint64 (seqAt place))).length) := by
    rw [sentFrame, List.append_assoc, List.drop_left' (length_putUint64 _)]
    exact List.take_left' (length_putUint16 _)
  have length : (sentFrame t.aead place payload).length =
      10 + (payload.length + t.aead.overhead) := by
    rw [sentFrame, List.length_append, List.length_append, length_putUint64, length_putUint16, size]
  rw [field, uint16_putUint16, UInt16.toNat_ofNat', size, length]
  omega

namespace Transfer

/-- A new transfer is sound. -/
theorem sound_newTransfer (aead : AEAD) (transport : Side → Transport) (mtu : Int64) :
    (newTransfer aead transport mtu).Sound aead := by
  refine ⟨⟨rfl, rfl⟩, rfl, ⟨rfl, rfl, rfl⟩, rfl, rfl, Nat.le_refl _, ?_, ?_⟩
  · exact fun payload member => absurd member List.not_mem_nil
  · intro place r found
    cases found

/-- The frame of the next packet to be read is at the front of the stream. -/
theorem Sound.outstanding {aead : AEAD} {t : Transfer} (sound : t.Sound aead)
    (waits : t.returned.length < t.written.length) :
    ∃ payload rest, t.written[t.returned.length]? = some payload ∧ payload ∈ t.written ∧
      t.wire = sentFrame aead t.returned.length payload ++ rest ∧
      rest = sentFrames aead (t.returned.length + 1) (t.written.drop (t.returned.length + 1)) := by
  have found : t.written[t.returned.length]? = some t.written[t.returned.length] :=
    List.getElem?_eq_getElem waits
  refine ⟨_, _, found, List.mem_of_getElem? found, ?_, rfl⟩
  rw [sound.wire, List.drop_eq_getElem_cons waits, sentFrames]

/-- A `Read` returns as long as packets are outstanding, and then only. -/
theorem Sound.readable_iff {aead : AEAD} (inverts : aead.Inverts) {t : Transfer}
    (sound : t.Sound aead) :
    t.receiver.Readable t.wire ↔ t.returned.length < t.written.length := by
  obtain ⟨sameAEAD, isOpen, _⟩ := sound.receiver
  constructor
  · intro readable
    by_contra nothing
    have empty : t.wire = [] := by
      rw [sound.wire, List.drop_eq_nil_of_le (Nat.not_lt.mp nothing), sentFrames]
    rw [empty] at readable
    rcases readable with closed | ⟨header, _⟩
    · rw [isOpen] at closed
      cases closed
    · cases header
  · intro waits
    obtain ⟨payload, rest, _, member, wire, _⟩ := sound.outstanding waits
    rw [wire, ← sameAEAD]
    apply readable_sentFrame
    · rw [sameAEAD]
      exact inverts
    · rw [sameAEAD]
      exact (sound.fits payload member).2

/-- A write or a read keeps the transfer sound. -/
theorem Sound.step {aead : AEAD} (inverts : aead.Inverts) {t after : Transfer}
    {label : TransferLabel} (sound : t.Sound aead) (taken : TransferStep t label after) :
    after.Sound aead := by
  obtain ⟨senderAEAD, senderOpen⟩ := sound.sender
  obtain ⟨receiverAEAD, receiverOpen, sameMTU⟩ := sound.receiver
  cases taken with
  | write payload short fits =>
      obtain ⟨sent, next⟩ := Tunnel.write_sentFrame senderOpen short sound.numbered
      rw [sent, next]
      -- The frames on the wire are those behind the packets that were returned.
      have behind : t.returned.length + (t.written.length - t.returned.length) =
          t.written.length := Nat.add_sub_cancel' sound.count
      refine ⟨⟨senderAEAD, senderOpen⟩, ?_, ⟨receiverAEAD, receiverOpen, sameMTU⟩, sound.window,
        ?_, ?_, ?_, ?_⟩
      · rw [List.length_append, List.length_singleton]
      · rw [List.drop_append_of_le_length sound.count, sentFrames_concat, List.length_drop,
          behind, ← sound.wire, senderAEAD]
      · exact sound.count.trans (by rw [List.length_append]; exact Nat.le_add_right _ _)
      · intro other member
        rcases List.mem_append.mp member with old | new
        · exact sound.fits other old
        · rw [List.mem_singleton.mp new, ← senderAEAD]
          exact ⟨short, fits⟩
      · intro place r found
        obtain ⟨earlier, written, packet⟩ := sound.packets place r found
        have inRange := (List.getElem?_eq_some_iff.mp written).1
        exact ⟨earlier, List.getElem?_append_left inRange ▸ written, packet⟩
  | read buffer room bounded readable =>
      have waits := (sound.readable_iff inverts).mp readable
      obtain ⟨payload, rest, found, member, wire, left⟩ := sound.outstanding waits
      obtain ⟨short, fits⟩ := sound.fits payload member
      -- The oldest frame on the wire is consumed, whether the window lets it through or not.
      have consumed := Tunnel.read_sentFrame receiverOpen (receiverAEAD.symm ▸ inverts)
        (sameMTU.symm ▸ short) (receiverAEAD.symm ▸ fits) room bounded t.returned.length rest
      rw [receiverAEAD, ← wire, sound.window] at consumed
      obtain ⟨next, packet⟩ := consumed
      simp only [allow_seqAt_iff] at packet
      have length : (t.returned ++ [(t.receiver.read t.wire buffer).1]).length =
          t.returned.length + 1 := List.length_append
      rw [next]
      refine ⟨⟨senderAEAD, senderOpen⟩, sound.numbered, ⟨rfl, receiverOpen, sameMTU⟩,
        ?_, ?_, ?_, sound.fits, ?_⟩
      · rw [length, List.range_succ, List.map_append, List.map_singleton,
          ReplayWindow.afterAll_concat]
      · rw [length, left]
      · rw [length]
        exact waits
      · intro place r added
        rw [List.getElem?_append] at added
        by_cases earlier : place < t.returned.length
        · rw [if_pos earlier] at added
          exact sound.packets place r added
        · rw [if_neg earlier, List.getElem?_singleton, Option.ite_none_right_eq_some] at added
          have last : place = t.returned.length := by omega
          rw [last, ← Option.some.inj added.2]
          exact ⟨payload, found, packet⟩

/-- What the caller of the `Read` at a place finds, next to what was written there. -/
theorem Sound.packet_at {aead : AEAD} {t : Transfer} (sound : t.Sound aead) {place : Nat}
    (earlier : place < t.returned.length) :
    ∃ payload, t.written[place]? = some payload ∧
      ((t.written.take t.returned.length).map some)[place]? = some (some payload) ∧
      (t.returned.map ReadReturn.packet)[place]? =
        some (some (if Passes place then payload else [])) := by
  have found : t.returned[place]? = some t.returned[place] := List.getElem?_eq_getElem earlier
  obtain ⟨payload, written, packet⟩ := sound.packets place _ found
  refine ⟨payload, written, ?_, ?_⟩
  · rw [List.getElem?_map, List.getElem?_take_of_lt earlier, written, Option.map_some]
  · rw [List.getElem?_map, found, Option.map_some, packet]

/-- The packets come back in order exactly if every number passes the window or its packet is
empty. -/
theorem Sound.returned_iff {aead : AEAD} {t : Transfer} (sound : t.Sound aead) :
    t.returned.map ReadReturn.packet = (t.written.take t.returned.length).map some ↔
      ∀ place payload, place < t.returned.length → t.written[place]? = some payload →
        Passes place ∨ payload = [] := by
  constructor
  · intro same place payload earlier written
    obtain ⟨_, found, expected, actual⟩ := sound.packet_at earlier
    cases Option.some.inj (written.symm.trans found)
    by_cases passes : Passes place
    · exact .inl passes
    · rw [same, expected, if_neg passes] at actual
      exact .inr (Option.some.inj (Option.some.inj actual))
  · intro unaltered
    apply List.ext_getElem?
    intro place
    by_cases earlier : place < t.returned.length
    · obtain ⟨payload, written, expected, actual⟩ := sound.packet_at earlier
      rw [expected, actual]
      rcases unaltered place payload earlier written with passes | empty
      · rw [if_pos passes]
      · rw [empty, ite_self]
    · rw [List.getElem?_eq_none, List.getElem?_eq_none]
      · rw [List.length_map, List.length_take]
        omega
      · rw [List.length_map]
        omega

/-- Every transfer is sound. -/
theorem sound_of_reachable {aead : AEAD} (inverts : aead.Inverts) {transport : Side → Transport}
    {mtu : Int64} {t : Transfer}
    (reached : Reachable TransferStep (newTransfer aead transport mtu) t) : t.Sound aead :=
  reached.invariant (Sound aead) (sound_newTransfer aead transport mtu)
    fun _ _ _ sound taken => sound.step inverts taken

/-- Every sequence of packets that may be written can be written and read to its end. -/
theorem exists_drained {aead : AEAD} (inverts : aead.Inverts) (transport : Side → Transport)
    (mtu : Int64) (buffered : (newTransfer aead transport mtu).sender.mtu < 2 ^ 62)
    (payloads : List Bytes) (short : ∀ payload ∈ payloads,
      payload.length ≤ (newTransfer aead transport mtu).sender.mtu ∧
        payload.length + aead.overhead ≤ 65535) :
    ∃ t, Reachable TransferStep (newTransfer aead transport mtu) t ∧ t.written = payloads ∧
      t.returned.length = payloads.length ∧
      t.sender.mtu = (newTransfer aead transport mtu).sender.mtu := by
  induction payloads using List.reverseRecOn with
  | nil => exact ⟨_, .refl _, rfl, rfl, rfl⟩
  | append_singleton payloads payload ih =>
      obtain ⟨t, reached, written, returned, sameMTU⟩ := ih fun other member =>
        short other (List.mem_append_left _ member)
      obtain ⟨fitsMTU, fits⟩ := short payload (List.mem_append_right _ (List.mem_singleton_self _))
      have sound := sound_of_reachable inverts reached
      rw [← sameMTU] at fitsMTU
      rw [← sound.sender.1] at fits
      have further := reached.tail (.write payload fitsMTU fits)
      have waits : t.returned.length < (t.written ++ [payload]).length := by
        rw [returned, written, List.length_append]
        exact Nat.lt_succ_self _
      have readable := ((sound_of_reachable inverts further).readable_iff inverts).mpr waits
      refine ⟨_, further.tail (.read (List.replicate t.receiver.mtu 0) ?_ ?_ readable), ?_, ?_, ?_⟩
      · exact Nat.le_of_eq List.length_replicate.symm
      · rw [List.length_replicate, sound.receiver.2.2, sameMTU]
        exact buffered
      · rw [written]
      · rw [List.length_append, List.length_append, returned]
        rfl
      · rw [← sameMTU, (Tunnel.write_sentFrame sound.sender.2 fitsMTU sound.numbered).2]

/-- Packets are returned one for one and in order, and a `Read` waits only when all of them
have been returned. Each is returned as it was written exactly when its number passes the
window or it is empty. -/
theorem returned_iff_passes {aead : AEAD} (inverts : aead.Inverts) {transport : Side → Transport}
    {mtu : Int64} {t : Transfer}
    (reached : Reachable TransferStep (newTransfer aead transport mtu) t) :
    t.returned.length ≤ t.written.length ∧
      (t.receiver.Readable t.wire ↔ t.returned.length < t.written.length) ∧
      (t.returned.map ReadReturn.packet = (t.written.take t.returned.length).map some ↔
        ∀ place payload, place < t.returned.length → t.written[place]? = some payload →
          Passes place ∨ payload = []) := by
  have sound := sound_of_reachable inverts reached
  exact ⟨sound.count, sound.readable_iff inverts, sound.returned_iff⟩

end Transfer

/-- A lawful AEAD opens what it sealed. -/
theorem AEAD.Lawful.inverts {aead : AEAD} (lawful : aead.Lawful) : aead.Inverts :=
  ⟨lawful.open_seal, lawful.length_seal⟩

/-- After the counter has wrapped around, the first of the last 1024 numbers is dropped as
seen: of that many packets of one byte, not all are returned as they were written. -/
theorem wrappedCounter_loses_packet :
    ∃ t, Reachable TransferStep (newTransfer nonceTagAEAD (fun _ => .kcp) 1280) t ∧
      t.written = List.replicate (2 ^ 65 - 1024) [0] ∧ t.returned.length = t.written.length ∧
      t.returned.map ReadReturn.packet ≠ t.written.map some := by
  have inverts := nonceTagAEAD_lawful.inverts
  obtain ⟨t, reached, written, returned, _⟩ := Transfer.exists_drained inverts (fun _ => .kcp) 1280
    (by decide) (List.replicate (2 ^ 65 - 1024) [0]) fun payload member => by
      rw [List.eq_of_mem_replicate member]
      exact ⟨by decide, by decide⟩
  rw [← written] at returned
  refine ⟨t, reached, written, returned, ?_⟩
  intro same
  have sound := Transfer.sound_of_reachable inverts reached
  have count : t.returned.length = 2 ^ 65 - 1024 := by
    rw [returned, written, List.length_replicate]
  have all : t.written.take t.returned.length = t.written :=
    List.take_of_length_le (Nat.le_of_eq returned.symm)
  rcases sound.returned_iff.mp (all.symm ▸ same) (2 ^ 65 - 1025) [0] (by omega)
    (by rw [written, List.getElem?_replicate, if_pos (by omega)]) with passes | empty
  · rw [Passes] at passes
    omega
  · cases empty

/-- Two packets are returned as they were written. -/
theorem twoPackets_returned :
    ∃ t, Reachable TransferStep (newTransfer nonceTagAEAD (fun _ => .kcp) 1280) t ∧
      t.written = [[1], [2, 3]] ∧
      t.returned.map ReadReturn.packet = [some [1], some [2, 3]] := by
  have inverts := nonceTagAEAD_lawful.inverts
  obtain ⟨t, reached, written, returned, _⟩ := Transfer.exists_drained inverts (fun _ => .kcp) 1280
    (by decide) [[1], [2, 3]] (by decide)
  refine ⟨t, reached, written, ?_⟩
  obtain ⟨_, _, unaltered⟩ := Transfer.returned_iff_passes inverts reached
  rw [written, returned] at unaltered
  refine unaltered.mpr fun place _ earlier _ => .inl (.inl ?_)
  rw [List.length_cons, List.length_singleton] at earlier
  omega

end P2pMesh

import P2pMesh.Tunnel.Basic

/-! # Tunnels over UDP

`TransportSelect`, and `Read` on a connection whose reads consume one datagram each and
discard what does not fit. A `Write` sends its header and its ciphertext in one
datagram, and a `Read` asks for the header first, so the ciphertext is discarded with
the rest of the datagram: a payload arrives exactly when it is sealed to nothing
(`P2pMesh.delivers_iff_sealed_empty`).
-/

namespace P2pMesh

open Foundation

/-- The types of connection that `TransportSelect` tells apart. -/
inductive ConnType where
  | udp
  | tcp
  | other
deriving DecidableEq, Repr

/-- The errors of selecting a transport. -/
inductive SelectError where
  | nilConn
  | nilAEAD
  | noReliableTransport
deriving DecidableEq, Repr

/-- The texts of the errors. -/
def SelectError.text : SelectError → String
  | .nilConn => "nil connection"
  | .nilAEAD => "nil AEAD cipher (handshake not completed)"
  | .noReliableTransport =>
      "KCP not yet available and allow_unreliable_fallback is false; " ++
        "refusing to silently degrade (I6)"

/-- `TransportSelect`. -/
def transportSelect (conn : Option ConnType) (aead : Option AEAD) (mtu : Int64)
    (allowUnreliableFallback : Bool) : Except SelectError Tunnel :=
  match conn, aead with
  | none, _ => .error .nilConn
  | _, none => .error .nilAEAD
  | some .udp, some aead =>
      if !allowUnreliableFallback then .error .noReliableTransport
      else .ok (newTunnel aead .udp mtu)
  | some .tcp, some aead => .ok (newTunnel aead .tcp mtu)
  | some .other, some aead => .ok (newTunnel aead .udp mtu)

/-- `io.ReadFull` on a UDP connection with the datagrams that have arrived; `none` when
it waits for another one. -/
def readFullDatagrams : Nat → List Bytes → Option (Bytes × List Bytes)
  | 0, arrived => some ([], arrived)
  | _ + 1, [] => none
  | size + 1, datagram :: later =>
      (readFullDatagrams (size + 1 - datagram.length) later).map
        fun (bytes, rest) => (datagram.take (size + 1) ++ bytes, rest)

namespace Tunnel

/-- `Read` once the ciphertext has been read, or drained: the answer of the replay
window and decryption. -/
def receiveCiphertext (t : Tunnel) (seq : UInt64) (cipherBuf p : Bytes) : ReadReturn :=
  if (t.recvWindow.allow seq).1 then
    match t.aead.openWith (nonceOf seq) cipherBuf (putUint64 seq) with
    | .error cause => ⟨0, some (.decrypt cause), p, none⟩
    | .ok plaintext =>
        ⟨plaintext.length, none, copyInto p plaintext, some ⟨seq, cipherBuf, plaintext⟩⟩
  else ⟨0, none, p, none⟩

/-- `Tunnel.Read` on a UDP connection, with the datagrams it leaves; `none` when it
waits for another datagram. -/
def readDatagrams (t : Tunnel) (arrived : List Bytes) (p : Bytes) :
    Option (ReadReturn × Tunnel × List Bytes) :=
  if t.closed then some (⟨0, some .closedPipe, p, none⟩, t, arrived)
  else
    match readFullDatagrams 10 arrived with
    | none => none
    | some (hdr, rest) =>
        let seq := uint64 (hdr.take 8)
        let clen := (uint16 (hdr.drop 8)).toNat
        if t.limit < clen then
          some (⟨0, some (.ciphertextTooLong clen t.limit), p, none⟩, t, rest)
        else
          (readFullDatagrams clen rest).map fun (cipherBuf, rest) =>
            (t.receiveCiphertext seq cipherBuf p,
              { t with recvWindow := (t.recvWindow.allow seq).2 }, rest)

/-- The two tunnels have the same AEAD, transport and MTU; their counters and windows
may differ. -/
structure SameSetup (t other : Tunnel) : Prop where
  aead : t.aead = other.aead
  transport : t.transport = other.transport
  mtu : t.mtu = other.mtu

/-- The payload arrives when the datagram that was written for it is read: the next
`Read` returns its length, no error, and the payload at the front of the buffer. -/
def Delivers (sender peer : Tunnel) (payload p : Bytes) : Prop :=
  ∃ r next rest, peer.readDatagrams [(sender.write payload none).1.sent] p =
    some (r, next, rest) ∧ r.err = none ∧ r.n = payload.length ∧ r.buffer.take r.n = payload

end Tunnel

/-- What is documented of an AEAD with nonces of twelve bytes: it opens what it sealed,
adds its overhead, and refuses ciphertexts shorter than that. The overhead is far below
what the length field of a frame holds. -/
structure AEAD.Lawful (aead : AEAD) : Prop where
  open_seal : ∀ nonce plaintext data, nonce.length = 12 →
    aead.openWith nonce (aead.sealWith nonce plaintext data) data = .ok plaintext
  length_seal : ∀ nonce plaintext data, nonce.length = 12 →
    (aead.sealWith nonce plaintext data).length = plaintext.length + aead.overhead
  open_short : ∀ nonce ciphertext data, nonce.length = 12 → ciphertext.length < aead.overhead →
    ∃ cause, aead.openWith nonce ciphertext data = .error cause
  overhead_lt : aead.overhead < 65536

/-- Without an overhead the empty ciphertext opens to the empty packet. -/
theorem AEAD.Lawful.open_nil {aead : AEAD} (lawful : aead.Lawful) {nonce : Bytes}
    (size : nonce.length = 12) (data : Bytes) (bare : aead.overhead = 0) :
    aead.openWith nonce [] data = .ok [] := by
  have sealed : aead.sealWith nonce [] data = [] := by
    apply List.eq_nil_of_length_eq_zero
    rw [lawful.length_seal nonce [] data size, bare]
    rfl
  have opened := lawful.open_seal nonce [] data size
  rwa [sealed] at opened

/-- A lawful AEAD opens the empty ciphertext to the empty plaintext or not at all. -/
theorem AEAD.Lawful.eq_nil_of_open_nil {aead : AEAD} (lawful : aead.Lawful) {nonce : Bytes}
    (size : nonce.length = 12) {data plaintext : Bytes}
    (opened : aead.openWith nonce [] data = .ok plaintext) : plaintext = [] := by
  by_cases bare : aead.overhead = 0
  · rw [lawful.open_nil size data bare] at opened
    exact (Except.ok.inj opened).symm
  · obtain ⟨cause, refused⟩ := lawful.open_short nonce [] data size (Nat.pos_of_ne_zero bare)
    rw [refused] at opened
    cases opened

/-- A read that a datagram satisfies discards the rest of it. -/
theorem readFullDatagrams_cons {size : Nat} (positive : 0 < size) {datagram : Bytes}
    (enough : size ≤ datagram.length) (later : List Bytes) :
    readFullDatagrams size (datagram :: later) = some (datagram.take size, later) := by
  obtain ⟨size, rfl⟩ : ∃ pred, size = pred + 1 := ⟨size - 1, by omega⟩
  have satisfied : size + 1 - datagram.length = 0 := by omega
  rw [readFullDatagrams, satisfied]
  simp only [readFullDatagrams, Option.map_some, List.append_nil]

theorem readFullDatagrams_nil (size : Nat) :
    readFullDatagrams size [] = if size = 0 then some ([], []) else none := by
  cases size <;> rfl

namespace Tunnel

/-- A `Read` that finds one datagram gets its header and nothing of its ciphertext. -/
theorem readDatagrams_singleton (t : Tunnel) (isOpen : t.closed = false) (seq : UInt64)
    (clen : UInt16) (ciphertext p : Bytes) :
    t.readDatagrams [putUint64 seq ++ putUint16 clen ++ ciphertext] p =
      if t.limit < clen.toNat then
        some (⟨0, some (.ciphertextTooLong clen.toNat t.limit), p, none⟩, t, [])
      else if clen.toNat = 0 then
        some (t.receiveCiphertext seq [] p,
          { t with recvWindow := (t.recvWindow.allow seq).2 }, [])
      else none := by
  have header : (putUint64 seq ++ putUint16 clen).length = 10 := by
    rw [List.length_append, length_putUint64, length_putUint16]
  have enough : 10 ≤ (putUint64 seq ++ putUint16 clen ++ ciphertext).length := by
    rw [List.length_append, header]
    omega
  have number : (putUint64 seq ++ putUint16 clen).take 8 = putUint64 seq :=
    List.take_left' (length_putUint64 seq)
  have field : (putUint64 seq ++ putUint16 clen).drop 8 = putUint16 clen :=
    List.drop_left' (length_putUint64 seq)
  unfold readDatagrams
  rw [readFullDatagrams_cons (by decide) enough, List.take_left' header]
  simp only [isOpen, Bool.false_eq_true, ↓reduceIte, number, field, uint64_putUint64,
    uint16_putUint16, readFullDatagrams_nil]
  by_cases long : t.limit < clen.toNat
  · simp only [long, ↓reduceIte]
  · by_cases none : clen.toNat = 0
    · simp only [none, ↓reduceIte, Option.map_some]
    · simp only [long, none, ↓reduceIte, Option.map_none]

/-- Without ciphertext a `Read` returns no bytes, and no error when the AEAD has no
overhead. -/
theorem receiveCiphertext_nil {t : Tunnel} (lawful : t.aead.Lawful) (seq : UInt64) (p : Bytes) :
    (t.receiveCiphertext seq [] p).n = 0 ∧
      (t.aead.overhead = 0 → (t.receiveCiphertext seq [] p).err = none) := by
  unfold receiveCiphertext
  split
  · split
    · next cause refused =>
        refine ⟨rfl, fun bare => ?_⟩
        rw [lawful.open_nil (length_nonceOf seq) _ bare] at refused
        cases refused
    · next plaintext opened =>
        rw [lawful.eq_nil_of_open_nil (length_nonceOf seq) opened]
        exact ⟨rfl, fun _ => rfl⟩
  · exact ⟨rfl, fun _ => rfl⟩

/-- Nothing is delivered to a closed tunnel. -/
theorem not_delivers_of_closed {sender peer : Tunnel} (isClosed : peer.closed = true)
    (payload p : Bytes) : ¬ sender.Delivers peer payload p := by
  rintro ⟨r, next, rest, returned, noError, _⟩
  simp only [readDatagrams, isClosed, ↓reduceIte, Option.some.injEq, Prod.mk.injEq] at returned
  rw [← returned.1] at noError
  cases noError

/-- A `Read` of the datagram of a payload that was sealed to `clen` bytes. -/
theorem delivers_open_iff {sender peer : Tunnel} (lawful : peer.aead.Lawful)
    (isOpen : peer.closed = false) {payload ciphertext : Bytes} {seq : UInt64} {clen : UInt16}
    (sent : (sender.write payload none).1.sent = putUint64 seq ++ putUint16 clen ++ ciphertext)
    (p : Bytes) :
    sender.Delivers peer payload p ↔ payload = [] ∧ clen.toNat = 0 ∧ 0 ≤ peer.limit ∧
      (peer.receiveCiphertext seq [] p).err = none := by
  obtain ⟨count, _⟩ := receiveCiphertext_nil lawful seq p
  unfold Delivers
  rw [sent, peer.readDatagrams_singleton isOpen]
  constructor
  · rintro ⟨r, next, rest, returned, noError, same, _⟩
    split at returned
    · cases returned
      cases noError
    · next inLimit =>
        split at returned
        · next zero =>
            cases returned
            rw [count] at same
            rw [zero] at inLimit
            exact ⟨List.eq_nil_of_length_eq_zero same.symm, zero, Int.not_lt.mp inLimit, noError⟩
        · cases returned
  · rintro ⟨empty, zero, inLimit, noError⟩
    simp only [zero, Int.natCast_zero, Int.not_lt.mpr inLimit, ↓reduceIte]
    refine ⟨_, _, _, rfl, noError, ?_, ?_⟩
    · rw [count, empty]
      rfl
    · rw [count, empty, List.take_zero]

end Tunnel

/-- What `TransportSelect` returns was built by `NewTunnel`. -/
theorem transportSelect_newTunnel {conn : ConnType} {aead : AEAD} {mtu : Int64}
    {allowUnreliableFallback : Bool} {built : Tunnel}
    (selected : transportSelect (some conn) (some aead) mtu allowUnreliableFallback = .ok built) :
    ∃ transport, built = newTunnel aead transport mtu := by
  cases conn with
  | udp =>
      simp only [transportSelect] at selected
      split at selected
      · cases selected
      · cases selected
        exact ⟨_, rfl⟩
  | tcp =>
      cases selected
      exact ⟨_, rfl⟩
  | other =>
      cases selected
      exact ⟨_, rfl⟩

/-- A payload that `Write` accepts arrives with its datagram exactly when it is empty
and the AEAD adds nothing to it, and the peer is open: whatever the sequence number, the
replay window of the peer and its buffer are. -/
theorem delivers_iff_sealed_empty {aead : AEAD} (lawful : aead.Lawful) {mtu : Int64}
    {allowUnreliableFallback : Bool} {built sender peer : Tunnel}
    (selected : transportSelect (some .udp) (some aead) mtu allowUnreliableFallback = .ok built)
    (senderSetup : sender.SameSetup built) (peerSetup : peer.SameSetup built) {payload : Bytes}
    (accepted : (sender.write payload none).1.err = none) (p : Bytes) :
    sender.Delivers peer payload p ↔
      payload = [] ∧ aead.overhead = 0 ∧ peer.closed = false := by
  obtain ⟨transport, rfl⟩ := transportSelect_newTunnel selected
  have sealer : sender.aead = aead := senderSetup.aead
  have opener : peer.aead = aead := peerSetup.aead
  have peerLawful : peer.aead.Lawful := opener.symm ▸ lawful
  cases isClosed : peer.closed with
  | true =>
      refine iff_of_false (Tunnel.not_delivers_of_closed isClosed payload p) ?_
      rintro ⟨_, _, isOpen⟩
      cases isOpen
  | false =>
      obtain ⟨seq, sent⟩ := Tunnel.write_sent accepted
      rw [Tunnel.delivers_open_iff peerLawful isClosed sent, sealer,
        lawful.length_seal _ _ _ (length_nonceOf seq), UInt16.toNat_ofNat']
      have bound := lawful.overhead_lt
      constructor
      · rintro ⟨empty, zero, _⟩
        rw [empty, List.length_nil, Nat.zero_add] at zero
        exact ⟨empty, by omega, rfl⟩
      · rintro ⟨empty, bare, _⟩
        have fits : peer.mtu + peer.aead.overhead < 2 ^ 63 := by
          rw [opener, bare, peerSetup.mtu]
          exact mtu_newTunnel_lt aead transport mtu
        refine ⟨empty, ?_, ?_, (Tunnel.receiveCiphertext_nil peerLawful seq p).2 (opener ▸ bare)⟩
        · rw [empty, bare]
          rfl
        · rw [peer.limit_of_fits fits]
          omega

/-- The sample scheme is a lawful AEAD. -/
theorem nonceTagAEAD_lawful : nonceTagAEAD.Lawful where
  open_seal nonce plaintext data size := by
    have tag : (nonce ++ [0, 0, 0, 0]).length = 16 := by
      rw [List.length_append, size]
      rfl
    have front : (plaintext ++ (nonce ++ [0, 0, 0, 0])).length - 16 = plaintext.length := by
      rw [List.length_append, tag]
      omega
    simp only [nonceTagAEAD, front, List.drop_left, List.take_left, ↓reduceIte]
  length_seal nonce plaintext data size := by
    simp only [nonceTagAEAD, List.length_append, size]
    rfl
  open_short nonce ciphertext data size short := by
    refine ⟨"cipher: message authentication failed", ?_⟩
    have other : ¬ ciphertext.drop (ciphertext.length - 16) = nonce ++ [0, 0, 0, 0] := by
      intro same
      have lengths := congrArg List.length same
      rw [List.length_drop, List.length_append, size] at lengths
      simp only [nonceTagAEAD] at short
      simp only [List.length_cons, List.length_nil] at lengths
      omega
    simp only [nonceTagAEAD, other, ↓reduceIte]
  overhead_lt := by decide

/-- One byte sent over a fresh pair of tunnels: the peer waits for another datagram. -/
theorem oneByte_not_delivered :
    ∃ t, transportSelect (some .udp) (some nonceTagAEAD) 1280 true = .ok t ∧
      (t.write [1] none).1.err = none ∧
      ¬ t.Delivers t [1] (List.replicate 1280 0) := by
  refine ⟨newTunnel nonceTagAEAD .udp 1280, rfl, rfl, ?_⟩
  intro ⟨r, next, rest, returned, _⟩
  cases returned

/-- An empty packet over UDP is written and not delivered. -/
theorem emptyPacket_not_delivered :
    ¬ (newTunnel nonceTagAEAD .udp 1280).Delivers (newTunnel nonceTagAEAD .udp 1280) []
      (List.replicate 1280 0) := by
  have selected : transportSelect (some .udp) (some nonceTagAEAD) 1280 true =
      .ok (newTunnel nonceTagAEAD .udp 1280) := rfl
  rw [delivers_iff_sealed_empty nonceTagAEAD_lawful selected ⟨rfl, rfl, rfl⟩ ⟨rfl, rfl, rfl⟩ rfl]
  intro ⟨_, bare, _⟩
  cases bare

end P2pMesh

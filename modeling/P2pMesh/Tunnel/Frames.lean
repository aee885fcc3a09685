import P2pMesh.Config.Client
import P2pMesh.Tunnel.Forgery
import P2pMesh.Tunnel.Mtu

/-! # Frames and the bytes of the stream

A `Read` that finds a length above its limit returns with the ciphertext still in the stream, so
the calls of `Read` keep to the frames of a stream exactly when no frame is over-long
(`P2pMesh.Tunnel.aligned_iff`). A `Write` states the length of its ciphertext in two bytes, and no
configuration bounds the MTU from above: what it writes is a frame exactly when the payload
and the tag have fewer than 65536 bytes (`P2pMesh.Tunnel.honest_iff`).
-/

namespace P2pMesh

open Foundation

namespace Tunnel

/-! ### Reading -/

/-- The tunnel and the stream that `Read` calls into the given buffers leave. -/
def afterReads (t : Tunnel) (conn : Bytes) (buffers : List Bytes) : Tunnel × Bytes :=
  buffers.foldl (fun s p => (s.1.read s.2 p).2) (t, conn)

/-- Each call of `Read` consumes the next frame of the stream. -/
def Aligned (t : Tunnel) (frames : List Frame) : Prop :=
  ∀ buffers : List Bytes, buffers.length ≤ frames.length →
    (t.afterReads (frames.flatMap Frame.encode) buffers).2 =
      (frames.drop buffers.length).flatMap Frame.encode

/-- The first `Read` goes first. -/
theorem afterReads_cons (t : Tunnel) (conn p : Bytes) (buffers : List Bytes) :
    t.afterReads conn (p :: buffers) =
      (t.read conn p).2.1.afterReads (t.read conn p).2.2 buffers :=
  rfl

/-- A frame over the limit is left behind its header. -/
theorem read_encode_long (t : Tunnel) (isOpen : t.closed = false) (frame : Frame)
    (long : t.limit < frame.ciphertext.length) (rest p : Bytes) :
    (t.read (frame.encode ++ rest) p).2.2 = frame.ciphertext ++ rest := by
  have step := t.read_header isOpen frame.seq (UInt16.ofNat frame.ciphertext.length)
    (frame.ciphertext ++ rest) p
  rw [UInt16.toNat_ofNat_of_lt' frame.fits, ← List.append_assoc, if_pos long] at step
  rw [Frame.encode, step]

/-- The frame leaves nothing in the stream: its ciphertext is read, or has no bytes. -/
def Consumes (t : Tunnel) (frame : Frame) : Prop :=
  frame.ciphertext = [] ∨ frame.ciphertext.length ≤ t.limit

/-- A `Read` of a frame leaves what follows it exactly when it consumes the frame. -/
theorem read_encode_rest_iff (t : Tunnel) (isOpen : t.closed = false) (frame : Frame)
    (rest p : Bytes) :
    (t.read (frame.encode ++ rest) p).2.2 = rest ↔ t.Consumes frame := by
  by_cases short : frame.ciphertext.length ≤ t.limit
  · exact iff_of_true (t.read_encode_rest isOpen frame short rest p) (.inr short)
  · rw [t.read_encode_long isOpen frame (Int.not_le.mp short), List.append_left_eq_self, Consumes,
      or_iff_left short]

/-- Whatever its verdict, a `Read` of a frame leaves a tunnel that depends on the buffer in
nothing, with the same limit, and open if it was. -/
theorem read_encode_tunnel (t : Tunnel) (isOpen : t.closed = false) (frame : Frame) :
    ∃ next : Tunnel, next.closed = false ∧ next.limit = t.limit ∧
      ∀ rest p, (t.read (frame.encode ++ rest) p).2.1 = next := by
  have state (rest p : Bytes) := congrArg Prod.snd (t.read_encode frame rest p)
  by_cases long : t.limit < frame.ciphertext.length
  · refine ⟨t, isOpen, rfl, fun rest p => ?_⟩
    simpa only [receive, isOpen, Bool.false_eq_true, ↓reduceIte, long] using state rest p
  · refine ⟨{ t with recvWindow := (t.recvWindow.allow frame.seq).2 }, isOpen, rfl,
      fun rest p => ?_⟩
    simpa only [receive, isOpen, Bool.false_eq_true, ↓reduceIte, long] using state rest p

/-- If the reads stay aligned, the first frame leaves nothing in the stream. -/
theorem Aligned.head {t : Tunnel} (isOpen : t.closed = false) {frame : Frame} {rest : List Frame}
    (aligned : t.Aligned (frame :: rest)) : t.Consumes frame := by
  have first := aligned [[]] (Nat.succ_le_succ (Nat.zero_le _))
  rw [afterReads_cons, List.flatMap_cons, List.length_singleton, List.drop_one] at first
  exact (t.read_encode_rest_iff isOpen frame _ []).mp first

/-- After a frame that is consumed, the reads go on with the frames behind it. -/
theorem aligned_cons (t : Tunnel) (isOpen : t.closed = false) {frame : Frame}
    (consumes : t.Consumes frame) (rest : List Frame) :
    ∃ next : Tunnel, next.closed = false ∧ next.limit = t.limit ∧
      (t.Aligned (frame :: rest) ↔ next.Aligned rest) := by
  obtain ⟨next, stillOpen, sameLimit, leaves⟩ := t.read_encode_tunnel isOpen frame
  have step (p : Bytes) (buffers : List Bytes) :
      t.afterReads ((frame :: rest).flatMap Frame.encode) (p :: buffers) =
        next.afterReads (rest.flatMap Frame.encode) buffers := by
    rw [afterReads_cons, List.flatMap_cons, leaves,
      (t.read_encode_rest_iff isOpen frame _ p).mpr consumes]
  refine ⟨next, stillOpen, sameLimit, fun aligned buffers within => ?_,
    fun aligned buffers within => ?_⟩
  · have whole := aligned ([] :: buffers) (Nat.succ_le_succ within)
    rwa [step] at whole
  · cases buffers with
    | nil => rfl
    | cons p buffers =>
        rw [step]
        exact aligned buffers (Nat.le_of_succ_le_succ within)

/-- An empty stream is always aligned. -/
theorem aligned_nil (t : Tunnel) : t.Aligned [] := by
  intro buffers within
  rw [List.length_eq_zero_iff.mp (Nat.le_zero.mp within)]
  rfl

/-- On an open tunnel the reads stay aligned exactly if no frame leaves anything in the stream. -/
theorem aligned_iff_of_open (t : Tunnel) (isOpen : t.closed = false) (frames : List Frame) :
    t.Aligned frames ↔ ∀ frame ∈ frames, t.Consumes frame := by
  induction frames generalizing t with
  | nil => exact iff_of_true t.aligned_nil nofun
  | cons frame rest ih =>
      rw [List.forall_mem_cons]
      by_cases consumes : t.Consumes frame
      · obtain ⟨next, stillOpen, sameLimit, same⟩ := t.aligned_cons isOpen consumes rest
        rw [same, ih next stillOpen, and_iff_right consumes]
        simp only [Consumes, sameLimit]
      · exact iff_of_false (fun aligned => consumes (aligned.head isOpen)) fun both =>
          consumes both.1

/-- A closed tunnel reads nothing. -/
theorem not_aligned_of_closed {t : Tunnel} (isClosed : t.closed = true) (frame : Frame)
    (rest : List Frame) : ¬ t.Aligned (frame :: rest) := by
  intro aligned
  have first := aligned [[]] (Nat.succ_le_succ (Nat.zero_le _))
  rw [afterReads_cons, read, if_pos isClosed, List.flatMap_cons, List.length_singleton,
    List.drop_one] at first
  have empty := congrArg List.length (List.append_left_eq_self.mp first)
  simp only [Frame.encode, List.length_append, length_putUint64, List.length_nil] at empty
  omega

/-- The calls of `Read` keep to the frames of a stream exactly when the tunnel is open and no
frame with a ciphertext is longer than the limit, or the stream is empty. -/
theorem aligned_iff (t : Tunnel) (frames : List Frame) :
    t.Aligned frames ↔ frames = [] ∨
      (t.closed = false ∧ ∀ frame ∈ frames,
        frame.ciphertext = [] ∨ frame.ciphertext.length ≤ t.limit) := by
  cases isClosed : t.closed with
  | false =>
      refine (t.aligned_iff_of_open isClosed frames).trans
        ⟨fun consumed => .inr ⟨rfl, consumed⟩, ?_⟩
      rintro (rfl | ⟨_, consumed⟩)
      · nofun
      · exact consumed
  | true =>
      cases frames with
      | nil => exact iff_of_true t.aligned_nil (.inl rfl)
      | cons frame rest =>
          refine iff_of_false (not_aligned_of_closed isClosed frame rest) ?_
          rintro (empty | ⟨isOpen, _⟩)
          · cases empty
          · cases isOpen

/-- An over-long frame for an MTU of one byte. -/
def overlongFrame : Frame :=
  ⟨1, List.replicate 18 0, by decide⟩

/-- Its eighteen bytes are read as the header of the next frame. -/
theorem overlongFrame_misaligned :
    ¬ Aligned (newTunnel nonceTagAEAD .tcp 1) [overlongFrame, genuineFrame 2] := by
  intro aligned
  rcases aligned.head rfl with empty | short
  · cases empty
  · exact absurd short (by decide)

/-- Frames that are replayed, or fail to open, are consumed. -/
theorem genuineFrames_aligned :
    Aligned (newTunnel nonceTagAEAD .tcp 1280) [genuineFrame 1, genuineFrame 1, forgedFrame 2] :=
  (aligned_iff _ _).mpr (.inr ⟨rfl, by decide⟩)

end Tunnel

/-! ### Writing -/

/-- A `Write` fails and writes nothing, or what it writes is one frame. -/
def WriteReturn.Honest (r : WriteReturn) : Prop :=
  (r.err ≠ none ∧ r.sent = []) ∨ ∃ frame : Frame, r.sent = frame.encode

/-- Bytes behind their length are a frame when two bytes can hold the length. -/
theorem exists_encode_iff (seq : UInt64) (ciphertext : Bytes) :
    (∃ frame : Frame, putUint64 seq ++ putUint16 (UInt16.ofNat ciphertext.length) ++ ciphertext =
      frame.encode) ↔ ciphertext.length < 65536 := by
  constructor
  · rintro ⟨frame, same⟩
    have headers : (putUint64 seq ++ putUint16 (UInt16.ofNat ciphertext.length)).length =
        (putUint64 frame.seq ++ putUint16 (UInt16.ofNat frame.ciphertext.length)).length := by
      simp only [List.length_append, length_putUint64, length_putUint16]
    rw [(List.append_inj same headers).2]
    exact frame.fits
  · intro fits
    exact ⟨⟨seq, ciphertext, fits⟩, rfl⟩

namespace Tunnel

/-- With an overhead of sixteen bytes a `Write` is honest exactly if it refuses the packet or its
length fits the field. -/
theorem honest_write_iff {t : Tunnel}
    (sized : ∀ nonce plaintext data, nonce.length = 12 →
      (t.aead.sealWith nonce plaintext data).length = plaintext.length + 16)
    (payload : Bytes) (connErr : Option String) :
    (t.write payload connErr).1.Honest ↔
      t.closed = true ∨ t.mtu < payload.length ∨ payload.length < 65520 := by
  by_cases isClosed : t.closed = true
  · rw [write, if_pos isClosed]
    exact iff_of_true (.inl ⟨Option.some_ne_none _, rfl⟩) (.inl isClosed)
  by_cases long : t.mtu < payload.length
  · rw [write, if_neg isClosed, if_pos long]
    exact iff_of_true (.inl ⟨Option.some_ne_none _, rfl⟩) (.inr (.inl long))
  obtain ⟨seq, sent⟩ := sent_of_accepted (Bool.eq_false_iff.mpr isClosed) (not_lt.mp long) connErr
  have written : (t.write payload connErr).1.sent ≠ [] := by
    rw [sent]
    exact List.ne_nil_of_length_pos (by simp)
  rw [WriteReturn.Honest, or_iff_right fun failed => written failed.2, sent, exists_encode_iff,
    sized _ _ _ (length_nonceOf seq), or_iff_right isClosed, or_iff_right long]
  omega

/-- On a tunnel with a configured MTU, and for an AEAD that adds sixteen bytes, what a `Write`
hands to the connection is nothing or one frame exactly when the tunnel is closed, or the payload
exceeds the MTU, or it has fewer than 65520 bytes. -/
theorem honest_iff {mtu : Int64} (configured : ConfiguredMTU mtu) {t : Tunnel}
    (sized : ∀ nonce plaintext data, nonce.length = 12 →
      (t.aead.sealWith nonce plaintext data).length = plaintext.length + 16)
    (built : t.mtu = (newTunnel t.aead t.transport mtu).mtu) (payload : Bytes)
    (connErr : Option String) :
    (t.write payload connErr).1.Honest ↔
      t.closed = true ∨ mtu.toInt < payload.length ∨ payload.length < 65520 := by
  have large := (configuredMTU_iff mtu).mp configured
  have isConfigured : (t.mtu : Int) = mtu.toInt := by
    rw [built]
    exact mtu_newTunnel _ _ (by omega)
  rw [honest_write_iff sized, ← isConfigured, Int.ofNat_lt]

/-- The smallest MTU and payload for which the length field is wrong. -/
theorem jumboPacket_dishonest :
    ConfiguredMTU 65520 ∧ ¬ ((newTunnel nonceTagAEAD .tcp 65520).write
      (List.replicate 65520 0) none).1.Honest := by
  refine ⟨(configuredMTU_iff _).mpr (by decide), ?_⟩
  rw [honest_write_iff nonceTagAEAD_sized, List.length_replicate]
  decide

/-- With the default MTU a packet goes out as a frame. -/
theorem defaultMTU_honest :
    ConfiguredMTU defaultClientConfig.tunnelMTU ∧
      ((newTunnel nonceTagAEAD .tcp defaultClientConfig.tunnelMTU).write
        [1, 2, 3] none).1.Honest := by
  have configured : ConfiguredMTU defaultClientConfig.tunnelMTU :=
    (configuredMTU_iff _).mpr (by decide)
  exact ⟨configured,
    (honest_iff configured nonceTagAEAD_sized rfl _ _).mpr (.inr (.inr (by decide)))⟩

end Tunnel

end P2pMesh

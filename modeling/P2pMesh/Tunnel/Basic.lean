import P2pMesh.Foundation.ByteStream
import P2pMesh.Foundation.Int64Arith
import P2pMesh.Tunnel.ReplayWindow

/-! # Tunnels over a byte stream

`Tunnel` of `internal/tunnel/tunnel.go`. The connection is the string of bytes
that `Read` has still to consume, and a `Write` returns the bytes it hands to the
connection. Two returns carry what no caller sees: the nonce a `Write` passes to
`Seal`, and the frame whose plaintext a `Read` hands out, which tells a dropped
frame from a delivered empty one.
-/

namespace P2pMesh

open Foundation

/-- The methods of `cipher.AEAD` that a tunnel calls. -/
structure AEAD where
  sealWith (nonce plaintext additionalData : Bytes) : Bytes
  openWith (nonce ciphertext additionalData : Bytes) : Except String Bytes
  overhead : Nat

/-- `Transport`. -/
inductive Transport where
  | kcp
  | udp
  | tcp
deriving DecidableEq, Repr

/-- The texts of the transports. -/
def Transport.text : Transport → String
  | .kcp => "kcp"
  | .udp => "raw_udp"
  | .tcp => "tcp"

/-- The errors of `Read`, `Write` and `Close`. -/
inductive TunnelError where
  | closedPipe
  | readHeader (cause : String)
  | ciphertextTooLong (clen : Nat) (limit : Int)
  | readCiphertext (cause : String)
  | decrypt (cause : String)
  | packetTooLong (size mtu : Nat)
  | write (cause : String)
deriving DecidableEq, Repr

/-- The texts of the errors. -/
def TunnelError.text : TunnelError → String
  | .closedPipe => "io: read/write on closed pipe"
  | .readHeader cause => "read header: " ++ cause
  | .ciphertextTooLong clen limit =>
      "ciphertext length " ++ toString clen ++ " exceeds max " ++ toString limit
  | .readCiphertext cause => "read ciphertext: " ++ cause
  | .decrypt cause => "decrypt: " ++ cause
  | .packetTooLong size mtu =>
      "packet " ++ toString size ++ " bytes exceeds MTU " ++ toString mtu
  | .write cause => "write: " ++ cause

/-- `Tunnel`, without its connection and its mutex. The MTU is an `int` of Go that is not
negative. -/
structure Tunnel where
  aead : AEAD
  transport : Transport
  mtu : Nat
  closed : Bool
  sendSeq : UInt64
  recvWindow : ReplayWindow

/-- `NewTunnel`. -/
def newTunnel (aead : AEAD) (transport : Transport) (mtu : Int64) : Tunnel where
  aead := aead
  transport := transport
  mtu := if mtu ≤ 0 then 1280 else mtu.toNatClampNeg
  closed := false
  sendSeq := 0
  recvWindow := newReplayWindow 1024

/-- The nonce derived from a sequence number: eight big-endian bytes, four zero bytes. -/
def nonceOf (seq : UInt64) : Bytes :=
  putUint64 seq ++ [0, 0, 0, 0]

/-- `copy`: the destination after as many bytes as fit were overwritten. -/
def copyInto (destination source : Bytes) : Bytes :=
  source.take destination.length ++ destination.drop source.length

/-- A frame whose plaintext a `Read` returned. -/
structure Delivery where
  seq : UInt64
  ciphertext : Bytes
  plaintext : Bytes
deriving DecidableEq, Repr

/-- What a `Read` returns, with the contents of its buffer. -/
structure ReadReturn where
  n : Nat
  err : Option TunnelError
  buffer : Bytes
  delivered : Option Delivery
deriving DecidableEq, Repr

/-- What a `Write` returns, with the bytes given to the connection and the nonce
given to `Seal`. -/
structure WriteReturn where
  n : Nat
  err : Option TunnelError
  sent : Bytes
  sealed : Option Bytes
deriving DecidableEq, Repr

namespace Tunnel

/-- The longest ciphertext `Read` accepts: a sum of two `int` values, which wraps around to a
negative number for an MTU at the top of the type. -/
def limit (t : Tunnel) : Int :=
  (Int64.ofNat t.mtu + Int64.ofNat t.aead.overhead).toInt

/-- The part of `Read` after the length check: replay protection, the ciphertext,
decryption. -/
def readCiphertext (t : Tunnel) (seq : UInt64) (clen : Nat) (conn p : Bytes) :
    ReadReturn × Tunnel × Bytes :=
  let next := { t with recvWindow := (t.recvWindow.allow seq).2 }
  if (t.recvWindow.allow seq).1 then
    match readFull clen conn with
    | (.error cause, rest) => (⟨0, some (.readCiphertext cause), p, none⟩, next, rest)
    | (.ok cipherBuf, rest) =>
        match t.aead.openWith (nonceOf seq) cipherBuf (putUint64 seq) with
        | .error cause => (⟨0, some (.decrypt cause), p, none⟩, next, rest)
        | .ok plaintext =>
            (⟨plaintext.length, none, copyInto p plaintext, some ⟨seq, cipherBuf, plaintext⟩⟩,
              next, rest)
  else (⟨0, none, p, none⟩, next, (readFull clen conn).2)

/-- `Tunnel.Read` into the buffer `p`, with the tunnel and the stream it leaves. -/
def read (t : Tunnel) (conn p : Bytes) : ReadReturn × Tunnel × Bytes :=
  if t.closed then (⟨0, some .closedPipe, p, none⟩, t, conn)
  else
    match readFull 10 conn with
    | (.error cause, rest) => (⟨0, some (.readHeader cause), p, none⟩, t, rest)
    | (.ok hdr, rest) =>
        let clen := (uint16 (hdr.drop 8)).toNat
        if t.limit < clen then (⟨0, some (.ciphertextTooLong clen t.limit), p, none⟩, t, rest)
        else t.readCiphertext (uint64 (hdr.take 8)) clen rest p

/-- `Tunnel.Write`, where `connErr` is the error of the connection's own write. -/
def write (t : Tunnel) (p : Bytes) (connErr : Option String) : WriteReturn × Tunnel :=
  if t.closed then (⟨0, some .closedPipe, [], none⟩, t)
  else if t.mtu < p.length then (⟨0, some (.packetTooLong p.length t.mtu), [], none⟩, t)
  else
    let seq := t.sendSeq + 1
    let ciphertext := t.aead.sealWith (nonceOf seq) p (putUint64 seq)
    let buf := putUint64 seq ++ putUint16 (UInt16.ofNat ciphertext.length) ++ ciphertext
    match connErr with
    | some cause => (⟨0, some (.write cause), buf, some (nonceOf seq)⟩, { t with sendSeq := seq })
    | none => (⟨p.length, none, buf, some (nonceOf seq)⟩, { t with sendSeq := seq })

/-- `Tunnel.Close`; the connection is closed by the caller's environment. -/
def close (t : Tunnel) : Tunnel :=
  { t with closed := true }

end Tunnel

/-- A keyless AEAD for concrete runs: its tag is the nonce padded to sixteen bytes. -/
def nonceTagAEAD : AEAD where
  sealWith nonce plaintext _ := plaintext ++ (nonce ++ [0, 0, 0, 0])
  openWith nonce ciphertext _ :=
    if ciphertext.drop (ciphertext.length - 16) = nonce ++ [0, 0, 0, 0] then
      .ok (ciphertext.take (ciphertext.length - 16))
    else .error "cipher: message authentication failed"
  overhead := 16

/-- A frame on the wire: the length of its ciphertext fits the two-byte field. -/
structure Frame where
  seq : UInt64
  ciphertext : Bytes
  fits : ciphertext.length < 65536
deriving DecidableEq

/-- The wire format `[seq(8)][clen(2)][ciphertext(clen)]`. -/
def Frame.encode (frame : Frame) : Bytes :=
  putUint64 frame.seq ++ putUint16 (UInt16.ofNat frame.ciphertext.length) ++ frame.ciphertext

/-- Different sequence numbers have different nonces. -/
theorem nonceOf_injective : Function.Injective nonceOf := by
  intro first second same
  exact putUint64_injective (List.append_cancel_right same)

/-- A nonce has twelve bytes. -/
theorem length_nonceOf (seq : UInt64) : (nonceOf seq).length = 12 := by
  rw [nonceOf, List.length_append, length_putUint64]
  rfl

/-- A positive MTU is kept by `NewTunnel`. -/
theorem mtu_newTunnel (aead : AEAD) (transport : Transport) {mtu : Int64}
    (positive : 0 < mtu.toInt) : ((newTunnel aead transport mtu).mtu : Int) = mtu.toInt := by
  have notDefault : ¬ mtu ≤ 0 := by
    rw [Int64.le_iff_toInt_le, Int64.toInt_zero]
    omega
  simp only [newTunnel, notDefault, ↓reduceIte, Int64.toNatClampNeg]
  omega

/-- The MTU of a new tunnel is an `int`. -/
theorem mtu_newTunnel_lt (aead : AEAD) (transport : Transport) (mtu : Int64) :
    (newTunnel aead transport mtu).mtu < 2 ^ 63 := by
  have bound := mtu.toInt_lt
  simp only [newTunnel, Int64.toNatClampNeg]
  split <;> omega

namespace Tunnel

/-- The limit is the sum of the MTU and the overhead when that is an `int`. -/
theorem limit_of_fits (t : Tunnel) (fits : t.mtu + t.aead.overhead < 2 ^ 63) :
    t.limit = t.mtu + t.aead.overhead := by
  have mtu : (Int64.ofNat t.mtu).toInt = t.mtu := Int64.toInt_ofNat_of_lt (by omega)
  have overhead : (Int64.ofNat t.aead.overhead).toInt = t.aead.overhead :=
    Int64.toInt_ofNat_of_lt (by omega)
  rw [limit, toInt_add_of_fits (by omega) (by omega), mtu, overhead]

/-- A complete header is read as the sequence number and the length it encodes. -/
theorem read_header (t : Tunnel) (isOpen : t.closed = false) (seq : UInt64) (clen : UInt16)
    (conn p : Bytes) :
    t.read (putUint64 seq ++ putUint16 clen ++ conn) p =
      if t.limit < clen.toNat then
        (⟨0, some (.ciphertextTooLong clen.toNat t.limit), p, none⟩, t, conn)
      else t.readCiphertext seq clen.toNat conn p := by
  have ten : (putUint64 seq ++ putUint16 clen).length = 10 := by
    rw [List.length_append, length_putUint64, length_putUint16]
  have header : readFull 10 (putUint64 seq ++ putUint16 clen ++ conn) =
      (.ok (putUint64 seq ++ putUint16 clen), conn) := by
    rw [← ten]
    exact readFull_append _ _
  have front : (putUint64 seq ++ putUint16 clen).take 8 = putUint64 seq :=
    List.take_left' (length_putUint64 seq)
  have back : (putUint64 seq ++ putUint16 clen).drop 8 = putUint16 clen :=
    List.drop_left' (length_putUint64 seq)
  simp only [read, isOpen, Bool.false_eq_true, ↓reduceIte, header, front, back, uint64_putUint64,
    uint16_putUint16]

/-- `Write` accepts what fits the MTU, unless the tunnel is closed. -/
theorem write_accepted_iff (t : Tunnel) (payload : Bytes) :
    (t.write payload none).1.err = none ↔ t.closed = false ∧ payload.length ≤ t.mtu := by
  unfold write
  cases isClosed : t.closed with
  | true => simp only [↓reduceIte, reduceCtorEq, Bool.true_eq_false, false_and]
  | false =>
      by_cases long : t.mtu < payload.length
      · simp only [Bool.false_eq_true, ↓reduceIte, long, reduceCtorEq, Nat.not_le.mpr long,
          and_false]
      · simp only [Bool.false_eq_true, ↓reduceIte, long, Nat.not_lt.mp long, and_self]

/-- What an open tunnel hands to the connection for a packet within the MTU. -/
theorem sent_of_accepted {t : Tunnel} (isOpen : t.closed = false) {payload : Bytes}
    (short : payload.length ≤ t.mtu) (connErr : Option String) :
    ∃ seq, (t.write payload connErr).1.sent =
      putUint64 seq ++ putUint16 (UInt16.ofNat
        (t.aead.sealWith (nonceOf seq) payload (putUint64 seq)).length) ++
        t.aead.sealWith (nonceOf seq) payload (putUint64 seq) := by
  refine ⟨t.sendSeq + 1, ?_⟩
  simp only [write, isOpen, Nat.not_lt.mpr short, Bool.false_eq_true, ↓reduceIte]
  cases connErr <;> rfl

/-- What an accepted `Write` sends. -/
theorem write_sent {t : Tunnel} {payload : Bytes} (accepted : (t.write payload none).1.err = none) :
    ∃ seq, (t.write payload none).1.sent =
      putUint64 seq ++ putUint16 (UInt16.ofNat
        (t.aead.sealWith (nonceOf seq) payload (putUint64 seq)).length) ++
        t.aead.sealWith (nonceOf seq) payload (putUint64 seq) := by
  obtain ⟨isOpen, short⟩ := (t.write_accepted_iff payload).mp accepted
  exact sent_of_accepted isOpen short none

/-- Every stream of ten bytes or more starts with a header. -/
theorem exists_header (conn : Bytes) (enough : 10 ≤ conn.length) :
    ∃ seq clen, conn = putUint64 seq ++ putUint16 clen ++ conn.drop 10 := by
  have eight : (conn.take 8).length = 8 := by
    rw [List.length_take]
    omega
  have two : ((conn.drop 8).take 2).length = 2 := by
    rw [List.length_take, List.length_drop]
    omega
  refine ⟨uint64 (conn.take 8), uint16 ((conn.drop 8).take 2), ?_⟩
  rw [putUint64_uint64 _ eight, putUint16_uint16 _ two, List.append_assoc,
    ← List.drop_drop (i := 2) (j := 8), List.take_append_drop, List.take_append_drop]

end Tunnel

end P2pMesh

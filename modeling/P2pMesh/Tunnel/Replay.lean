import P2pMesh.Tunnel.Basic

/-! # Replays through a tunnel

The reads of a tunnel consume its stream independently of the replay window, so
the numbers offered to the window are a function of the stream
(`P2pMesh.offers`), and what the reads deliver is what the window admits and the
AEAD opens (`P2pMesh.Tunnel.deliveries_eq`). A frame is delivered twice exactly
when it is offered again from far behind the highest number so far.
-/

namespace P2pMesh

open Foundation

namespace Tunnel

/-- Consecutive `Read` calls into a buffer `p`, each with the tunnel it leaves. -/
def readMany (p : Bytes) : Nat → Tunnel → Bytes → List (ReadReturn × Tunnel)
  | 0, _, _ => []
  | reads + 1, t, conn =>
      ((t.read conn p).1, (t.read conn p).2.1) ::
        readMany p reads (t.read conn p).2.1 (t.read conn p).2.2

/-- The frames whose plaintexts consecutive `Read` calls return. -/
def deliveries (p : Bytes) (reads : Nat) (t : Tunnel) (conn : Bytes) : List Delivery :=
  (readMany p reads t conn).filterMap fun entry => entry.1.delivered

end Tunnel

/-- A frame header offered to the replay window; `body` is missing when the stream
ends before the ciphertext does. -/
structure Offer where
  seq : UInt64
  body : Option Bytes
deriving DecidableEq, Repr

/-- The headers that consecutive reads of a stream offer to the replay window. -/
def offers (limit : Int) : Nat → Bytes → List Offer
  | 0, _ => []
  | reads + 1, conn =>
      if conn.length < 10 then []
      else
        let clen := (uint16 ((conn.drop 8).take 2)).toNat
        let rest := conn.drop 10
        -- An over-long frame is refused after its header, with its ciphertext left unread.
        if limit < clen then offers limit reads rest
        else
          ⟨uint64 (conn.take 8), if clen ≤ rest.length then some (rest.take clen) else none⟩ ::
            offers limit reads (rest.drop clen)

/-- What the AEAD makes of an offered frame. -/
def Offer.opened (aead : AEAD) (offer : Offer) : Option Delivery :=
  match offer.body with
  | none => none
  | some ciphertext =>
      match aead.openWith (nonceOf offer.seq) ciphertext (putUint64 offer.seq) with
      | .error _ => none
      | .ok plaintext => some ⟨offer.seq, ciphertext, plaintext⟩

theorem offers_short (limit : Int) (reads : Nat) {conn : Bytes} (short : conn.length < 10) :
    offers limit reads conn = [] := by
  cases reads with
  | zero => rfl
  | succ reads => rw [offers, if_pos short]

/-- A header is offered to the window, unless its length is above the limit. -/
theorem offers_header (limit : Int) (reads : Nat) (seq : UInt64) (clen : UInt16) (conn : Bytes) :
    offers limit (reads + 1) (putUint64 seq ++ putUint16 clen ++ conn) =
      if limit < clen.toNat then offers limit reads conn
      else
        ⟨seq, if clen.toNat ≤ conn.length then some (conn.take clen.toNat) else none⟩ ::
          offers limit reads (conn.drop clen.toNat) := by
  have ten : (putUint64 seq ++ putUint16 clen).length = 10 := by
    rw [List.length_append, length_putUint64, length_putUint16]
  have enough : ¬ (putUint64 seq ++ putUint16 clen ++ conn).length < 10 := by
    rw [List.length_append, ten]
    omega
  have front : (putUint64 seq ++ putUint16 clen ++ conn).take 8 = putUint64 seq := by
    rw [List.append_assoc]
    exact List.take_left' (length_putUint64 seq)
  have middle : ((putUint64 seq ++ putUint16 clen ++ conn).drop 8).take 2 = putUint16 clen := by
    rw [List.append_assoc, List.drop_left' (length_putUint64 seq)]
    exact List.take_left' (length_putUint16 clen)
  have back : (putUint64 seq ++ putUint16 clen ++ conn).drop 10 = conn :=
    List.drop_left' ten
  simp only [offers, enough, ↓reduceIte, front, middle, back, uint64_putUint64, uint16_putUint16]

/-- The sequence number and the ciphertext of a delivered frame. -/
def Delivery.frame (delivery : Delivery) : UInt64 × Bytes :=
  (delivery.seq, delivery.ciphertext)

/-- An opened offer is recovered from the frame it delivers. -/
theorem Offer.eq_of_opened {aead : AEAD} {offer : Offer} {frame : UInt64 × Bytes}
    (opens : (offer.opened aead).map Delivery.frame = some frame) :
    offer = ⟨frame.1, some frame.2⟩ := by
  rcases offer with ⟨seq, body⟩
  cases body with
  | none => simp only [opened, Option.map_none, reduceCtorEq] at opens
  | some ciphertext =>
      simp only [opened] at opens
      split at opens
      · simp only [Option.map_none, reduceCtorEq] at opens
      · cases opens
        rfl

private theorem nodup_filterMap_iff {α β : Type*} {f : α → Option β}
    (recovers : ∀ a a' b, f a = some b → f a' = some b → a = a') (entries : List α) :
    (entries.filterMap f).Nodup ↔ (entries.filter fun entry => (f entry).isSome).Nodup := by
  have images : (entries.filter fun entry => (f entry).isSome).map f =
      (entries.filterMap f).map some := by
    induction entries with
    | nil => rfl
    | cons entry rest ih =>
        cases value : f entry with
        | none => simpa only [List.filter_cons, List.filterMap_cons, value, Option.isSome_none,
            Bool.false_eq_true, ↓reduceIte] using ih
        | some image => simp only [List.filter_cons, List.filterMap_cons, value,
            Option.isSome_some, ↓reduceIte, List.map_cons, ih]
  constructor
  · intro distinct
    apply List.Nodup.of_map f
    rw [images]
    exact distinct.map (Option.some_injective _)
  · intro distinct
    refine List.Nodup.of_map some ?_
    rw [← images]
    refine distinct.map_on ?_
    intro first firstMem second secondMem same
    obtain ⟨image, value⟩ := Option.isSome_iff_exists.mp (List.mem_filter.mp firstMem).2
    exact recovers first second image value (same ▸ value)

namespace Tunnel

/-- After the length check `Read` consumes the ciphertext and updates the window,
whatever it answers. -/
theorem readCiphertext_state (t : Tunnel) (seq : UInt64) (clen : Nat) (conn p : Bytes) :
    (t.readCiphertext seq clen conn p).2 =
      ({ t with recvWindow := (t.recvWindow.allow seq).2 }, conn.drop clen) := by
  have drained : (readFull clen conn).2 = conn.drop clen := by
    by_cases enough : clen ≤ conn.length
    · rw [readFull, if_pos enough]
    · rw [readFull, if_neg enough, List.drop_eq_nil_of_le (by omega)]
  rw [readCiphertext]
  split
  · split
    · next rest result => rw [← drained, result]
    · next cipherBuf rest result =>
        split <;> rw [← drained, result]
  · rw [drained]

/-- `Read` delivers what the window admits and the AEAD opens. -/
theorem readCiphertext_delivered (t : Tunnel) (seq : UInt64) (clen : Nat) (conn p : Bytes) :
    (t.readCiphertext seq clen conn p).1.delivered =
      if (t.recvWindow.allow seq).1 then
        Offer.opened t.aead
          ⟨seq, if clen ≤ conn.length then some (conn.take clen) else none⟩
      else none := by
  rw [readCiphertext]
  by_cases allowed : (t.recvWindow.allow seq).1
  · simp only [allowed, ↓reduceIte]
    by_cases enough : clen ≤ conn.length
    · simp only [readFull, enough, ↓reduceIte, Offer.opened]
      cases t.aead.openWith (nonceOf seq) (conn.take clen) (putUint64 seq) with
      | error cause => rfl
      | ok plaintext => rfl
    · simp only [readFull, enough, ↓reduceIte, Offer.opened]
  · simp only [allowed, Bool.false_eq_true, ↓reduceIte]

/-- The deliveries of consecutive reads are the admitted offers that open. -/
theorem deliveries_eq (p : Bytes) (reads : Nat) (t : Tunnel) (isOpen : t.closed = false)
    (conn : Bytes) :
    t.deliveries p reads conn =
      (t.recvWindow.admitted Offer.seq (offers t.limit reads conn)).filterMap
        (Offer.opened t.aead) := by
  induction reads generalizing t conn with
  | zero => rfl
  | succ reads ih =>
      by_cases short : conn.length < 10
      · have stopped : t.read conn p = (⟨0, some (.readHeader
            (if conn = [] then "EOF" else "unexpected EOF")), p, none⟩, t, []) := by
          simp only [read, isOpen, Bool.false_eq_true, ↓reduceIte, readFull_of_short short]
        have rest := ih t isOpen []
        rw [offers_short _ _ (by decide)] at rest
        rw [offers_short _ _ short]
        rw [deliveries, readMany, List.filterMap_cons, stopped]
        exact rest
      · obtain ⟨seq, clen, split⟩ := exists_header conn (Nat.not_lt.mp short)
        rw [split, offers_header, deliveries, readMany, List.filterMap_cons,
          read_header t isOpen]
        by_cases long : t.limit < clen.toNat
        · simp only [long, ↓reduceIte]
          exact ih t isOpen _
        · simp only [long, ↓reduceIte, readCiphertext_delivered, readCiphertext_state]
          have rest := ih { t with recvWindow := (t.recvWindow.allow seq).2 } isOpen
            ((conn.drop 10).drop clen.toNat)
          by_cases allowed : (t.recvWindow.allow seq).1
          · simp only [ReplayWindow.admitted, allowed, ↓reduceIte, List.filterMap_cons]
            cases Offer.opened t.aead ⟨seq, if clen.toNat ≤ (conn.drop 10).length then
                some ((conn.drop 10).take clen.toNat) else none⟩ with
            | none => exact rest
            | some delivery => exact congrArg (List.cons delivery) rest
          · simp only [ReplayWindow.admitted, allowed, Bool.false_eq_true, ↓reduceIte]
            exact rest

/-- A tunnel delivers no frame twice exactly when no frame that opens is offered
again from far behind. -/
theorem nodup_deliveries_iff (aead : AEAD) (transport : Transport) (mtu : Int64) (p : Bytes)
    (reads : Nat) (conn : Bytes) :
    (((newTunnel aead transport mtu).deliveries p reads conn).map Delivery.frame).Nodup ↔
      ¬ FarRepeat 1024 Offer.seq (fun offer => (offer.opened aead).isSome)
        (offers (newTunnel aead transport mtu).limit reads conn) := by
  have recovers : ∀ first second frame,
      (Offer.opened aead first).map Delivery.frame = some frame →
      (Offer.opened aead second).map Delivery.frame = some frame → first = second := by
    intro first second frame fromFirst fromSecond
    rw [Offer.eq_of_opened fromFirst, Offer.eq_of_opened fromSecond]
  rw [deliveries_eq p reads (newTunnel aead transport mtu) rfl conn, List.map_filterMap]
  refine (nodup_filterMap_iff recovers _).trans ?_
  simp only [Option.isSome_map]
  exact ReplayWindow.nodup_admitted_iff Offer.seq 1024 (fun offer => (offer.opened aead).isSome)
    (offers (newTunnel aead transport mtu).limit reads conn)

end Tunnel

/-- Each number is accepted at most once, and each frame delivered at most once,
exactly when none is offered again from at least a window size below the highest
number so far, after an offer ahead of the window or equally far behind it. -/
theorem accepted_once_iff_not_farRepeat (size : Int) (seqs : List UInt64) (aead : AEAD)
    (transport : Transport) (mtu : Int64) (p : Bytes) (reads : Nat) (conn : Bytes) :
    (((newReplayWindow size).admitted id seqs).Nodup ↔
      ¬ FarRepeat (newReplayWindow size).size id (fun _ => true) seqs) ∧
    ((((newTunnel aead transport mtu).deliveries p reads conn).map Delivery.frame).Nodup ↔
      ¬ FarRepeat 1024 Offer.seq (fun offer => (offer.opened aead).isSome)
        (offers (newTunnel aead transport mtu).limit reads conn)) := by
  refine ⟨?_, Tunnel.nodup_deliveries_iff aead transport mtu p reads conn⟩
  have once := ReplayWindow.nodup_admitted_iff id size (fun _ => true) seqs
  rwa [List.filter_true] at once

/-- The stream of the sealed empty packets numbered `1`, `1025` and `1` again. -/
def lateReplay : Bytes :=
  [1, 1025, 1].flatMap fun seq =>
    putUint64 seq ++ putUint16 16 ++ nonceTagAEAD.sealWith (nonceOf seq) [] (putUint64 seq)

/-- A frame that falls out of the window is delivered a second time. -/
theorem lateReplay_delivered_twice :
    ¬ ((newReplayWindow 1024).admitted id [1, 1025, 1]).Nodup ∧
      ¬ (((newTunnel nonceTagAEAD .udp 1280).deliveries [] 3 lateReplay).map
        Delivery.frame).Nodup := by
  decide

end P2pMesh

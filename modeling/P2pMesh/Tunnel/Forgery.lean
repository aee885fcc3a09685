import P2pMesh.Tunnel.Replay

/-! # Frames that fail authentication

`Read` updates the replay window before it opens the frame, and leaves the
ciphertext of an over-long frame in the stream. A frame that fails
authentication therefore changes what later frames meet, unless the bit that the
window would record for it is already set. In the streams where this holds of
every such frame that a genuine one follows, deleting these frames changes
nothing for the rest (`P2pMesh.Tunnel.unaffected_of_forgeriesSettled`).
-/

namespace P2pMesh

open Foundation

/-- The AEAD opens the frame. -/
def Frame.opens (aead : AEAD) (frame : Frame) : Bool :=
  (aead.openWith (nonceOf frame.seq) frame.ciphertext (putUint64 frame.seq)).isOk

namespace ReplayWindow

/-- The number is not above the window, and the bit that `allow` sets for it, the
lowest one when it is far behind, is set already. -/
def Settled (w : ReplayWindow) (seq : UInt64) : Prop :=
  seq.toNat ≤ w.last.toNat ∧
    w.marked (if w.last.toNat < seq.toNat + w.size then w.last.toNat - seq.toNat else 0) = true

instance (w : ReplayWindow) (seq : UInt64) : Decidable (w.Settled seq) :=
  inferInstanceAs (Decidable (_ ∧ _))

private theorem or_one_of_and_one {word : UInt64} (odd : (word &&& 1 != 0) = true) :
    word ||| 1 = word := by
  have lowest : word.toNat.testBit 0 = true := by
    by_contra clear
    have zero : word &&& 1 = 0 := by
      apply UInt64.toNat_inj.mp
      rw [UInt64.toNat_and]
      change word.toNat &&& 1 = 0
      rw [Nat.and_one_is_mod]
      simpa only [Nat.testBit_zero, decide_eq_true_eq, Nat.mod_two_not_eq_one] using clear
    simp only [zero, bne_self_eq_false, Bool.false_eq_true] at odd
  apply UInt64.toNat_inj.mp
  rw [UInt64.toNat_or]
  change word.toNat ||| 1 = word.toNat
  apply Nat.eq_of_testBit_eq
  intro index
  rw [Nat.testBit_or]
  cases index with
  | zero => rw [lowest, Bool.true_or]
  | succ index => rw [Nat.testBit_succ 1, Nat.div_eq_of_lt Nat.one_lt_two, Nat.zero_testBit,
      Bool.or_false]

/-- Setting the lowest bit again leaves the window as it was. -/
theorem mark_zero_of_marked (w : ReplayWindow) (set : w.marked 0 = true) : w.mark 0 = w := by
  have word : w.bitmap.getD 0 0 ||| 1 = w.bitmap.getD 0 0 := or_one_of_and_one set
  have same : w.bitmap.set 0 (w.bitmap.getD 0 0) = w.bitmap := by
    cases w.bitmap with
    | nil => rfl
    | cons head rest => rfl
  rcases w with ⟨bitmap, size, last, size_pos, bitmap_length⟩
  simp only [mark, Nat.zero_div, Nat.zero_mod, ReplayWindow.mk.injEq, and_true] at word same ⊢
  exact (congrArg (bitmap.set 0) word).trans same

/-- A settled number leaves the window unchanged. -/
theorem allow_of_settled (w : ReplayWindow) {seq : UInt64} (settled : w.Settled seq) :
    (w.allow seq).2 = w := by
  obtain ⟨behind, set⟩ := settled
  rcases w.allow_cases seq with ⟨_, inside, result⟩ | ⟨ahead, _⟩ | ⟨far, result⟩
  · rw [if_pos inside] at set
    rw [result, if_pos set]
  · omega
  · rw [if_neg (Nat.not_lt.mpr far)] at set
    rw [result]
    exact w.mark_zero_of_marked set

end ReplayWindow

namespace Tunnel

/-- What `Read` makes of a frame, whatever follows it in the stream. -/
def receive (t : Tunnel) (frame : Frame) (p : Bytes) : ReadReturn × Tunnel :=
  if t.closed then (⟨0, some .closedPipe, p, none⟩, t)
  else if t.limit < frame.ciphertext.length then
    (⟨0, some (.ciphertextTooLong frame.ciphertext.length t.limit), p, none⟩, t)
  else
    ((t.readCiphertext frame.seq frame.ciphertext.length frame.ciphertext p).1,
      { t with recvWindow := (t.recvWindow.allow frame.seq).2 })

/-- The length of a frame fits its field. -/
private theorem encode_length (frame : Frame) :
    (UInt16.ofNat frame.ciphertext.length).toNat = frame.ciphertext.length := by
  rw [UInt16.toNat_ofNat']
  exact Nat.mod_eq_of_lt frame.fits

/-- What follows a frame makes no difference for its `Read`. -/
private theorem readCiphertext_append (t : Tunnel) (frame : Frame) (rest p : Bytes) :
    (t.readCiphertext frame.seq frame.ciphertext.length (frame.ciphertext ++ rest) p).1 =
      (t.readCiphertext frame.seq frame.ciphertext.length frame.ciphertext p).1 := by
  have alone : readFull frame.ciphertext.length frame.ciphertext = (.ok frame.ciphertext, []) := by
    have whole := readFull_append frame.ciphertext []
    rwa [List.append_nil] at whole
  rw [readCiphertext, readCiphertext, readFull_append, alone]
  split
  · dsimp only
    split <;> rfl
  · rfl

/-- A frame is answered the same whatever follows it in the stream. -/
theorem read_encode (t : Tunnel) (frame : Frame) (rest p : Bytes) :
    ((t.read (frame.encode ++ rest) p).1, (t.read (frame.encode ++ rest) p).2.1) =
      t.receive frame p := by
  cases isClosed : t.closed with
  | true => simp only [read, receive, isClosed, ↓reduceIte]
  | false =>
      have step := t.read_header isClosed frame.seq (UInt16.ofNat frame.ciphertext.length)
        (frame.ciphertext ++ rest) p
      rw [encode_length, ← List.append_assoc] at step
      rw [Frame.encode, step, receive]
      by_cases long : t.limit < frame.ciphertext.length
      · simp only [isClosed, Bool.false_eq_true, ↓reduceIte, long]
      · simp only [isClosed, Bool.false_eq_true, ↓reduceIte, long, readCiphertext_append,
          readCiphertext_state]

/-- Reading a frame within the limit consumes exactly that frame. -/
theorem read_encode_rest (t : Tunnel) (isOpen : t.closed = false) (frame : Frame)
    (short : frame.ciphertext.length ≤ t.limit) (rest p : Bytes) :
    (t.read (frame.encode ++ rest) p).2.2 = rest := by
  have step := t.read_header isOpen frame.seq (UInt16.ofNat frame.ciphertext.length)
    (frame.ciphertext ++ rest) p
  rw [encode_length, ← List.append_assoc, if_neg (Int.not_lt.mpr short)] at step
  rw [Frame.encode, step, readCiphertext_state]
  exact List.drop_left

/-- What a caller sees of one `Read`, with the replay-window state after it. -/
def observe (entry : ReadReturn × Tunnel) : ReadReturn × UInt64 × List UInt64 :=
  (entry.1, entry.2.recvWindow.last, entry.2.recvWindow.bitmap)

/-- The reads of a stream of frames, one for each frame. -/
def frameReads (p : Bytes) (t : Tunnel) (frames : List Frame) :
    List (Frame × ReadReturn × UInt64 × List UInt64) :=
  frames.zip ((readMany p frames.length t (frames.flatMap Frame.encode)).map observe)

/-- Deleting the frames that fail to open from a stream changes neither the answer
to any other frame nor the replay-window state after it. -/
def Unaffected (p : Bytes) (t : Tunnel) (frames : List Frame) : Prop :=
  (frameReads p t frames).filter (fun entry => entry.1.opens t.aead) =
    frameReads p t (frames.filter (Frame.opens t.aead))

instance (p : Bytes) (t : Tunnel) (frames : List Frame) : Decidable (Unaffected p t frames) :=
  inferInstanceAs (Decidable (_ = _))

/-- As long as a frame that opens follows, no frame is over the limit, and a frame that
fails to open is settled in the window it meets. -/
def ForgeriesSettled : Tunnel → List Frame → Prop
  | _, [] => True
  | t, frame :: rest =>
      (∀ later ∈ rest, later.opens t.aead = false) ∨
      (frame.ciphertext.length ≤ t.limit ∧
        (frame.opens t.aead = false → t.recvWindow.Settled frame.seq) ∧
        ForgeriesSettled { t with recvWindow := (t.recvWindow.allow frame.seq).2 } rest)

/-- The condition is decided frame by frame. -/
def decidableForgeriesSettled : (t : Tunnel) → (frames : List Frame) →
    Decidable (ForgeriesSettled t frames)
  | _, [] => .isTrue trivial
  | _, _ :: rest =>
      @instDecidableOr _ _ inferInstance
        (@instDecidableAnd _ _ inferInstance
          (@instDecidableAnd _ _ inferInstance (decidableForgeriesSettled _ rest)))

instance (t : Tunnel) (frames : List Frame) : Decidable (ForgeriesSettled t frames) :=
  decidableForgeriesSettled t frames

/-- An open tunnel reads the first frame and goes on with its window. -/
theorem frameReads_cons (p : Bytes) (t : Tunnel) (isOpen : t.closed = false) (frame : Frame)
    (short : frame.ciphertext.length ≤ t.limit) (rest : List Frame) :
    frameReads p t (frame :: rest) =
      (frame, observe (t.receive frame p)) ::
        frameReads p { t with recvWindow := (t.recvWindow.allow frame.seq).2 } rest := by
  have answer := t.read_encode frame (rest.flatMap Frame.encode) p
  have next : (t.read (frame.encode ++ rest.flatMap Frame.encode) p).2.1 =
      { t with recvWindow := (t.recvWindow.allow frame.seq).2 } := by
    have state := congrArg Prod.snd answer
    simpa only [receive, isOpen, Bool.false_eq_true, ↓reduceIte, Int.not_lt.mpr short] using state
  rw [frameReads, List.flatMap_cons, List.length_cons, readMany, List.map_cons,
    List.zip_cons_cons, answer, t.read_encode_rest isOpen frame short, next]
  rfl

private theorem filter_zip_eq_nil {β : Type*} (aead : AEAD) {frames : List Frame}
    (forged : ∀ frame ∈ frames, frame.opens aead = false) (answers : List β) :
    (frames.zip answers).filter (fun entry => entry.1.opens aead) = [] := by
  apply List.filter_eq_nil_iff.mpr
  rintro ⟨frame, answer⟩ member
  simp only [forged frame (List.of_mem_zip member).1, Bool.false_eq_true, not_false_eq_true]

/-- The first answer is that to the first frame. -/
private theorem frameReads_head (p : Bytes) (t : Tunnel) (frame : Frame) (rest : List Frame) :
    ∃ answers, frameReads p t (frame :: rest) =
      (frame, observe (t.receive frame p)) :: rest.zip answers := by
  have answer := t.read_encode frame (rest.flatMap Frame.encode) p
  rw [frameReads, List.flatMap_cons, List.length_cons, readMany, List.map_cons,
    List.zip_cons_cons, answer]
  exact ⟨_, rfl⟩

/-- When no frame after the first one opens, only the answer to the first counts. -/
theorem unaffected_of_forged_rest (p : Bytes) (t : Tunnel) (frame : Frame) (rest : List Frame)
    (forged : ∀ later ∈ rest, later.opens t.aead = false) : Unaffected p t (frame :: rest) := by
  have none : rest.filter (Frame.opens t.aead) = [] :=
    List.filter_eq_nil_iff.mpr fun later member => by
      simp only [forged later member, Bool.false_eq_true, not_false_eq_true]
  obtain ⟨answers, whole⟩ := frameReads_head p t frame rest
  obtain ⟨_, alone⟩ := frameReads_head p t frame []
  rw [Unaffected, whole, List.filter_cons, filter_zip_eq_nil t.aead forged, List.filter_cons, none]
  by_cases genuine : frame.opens t.aead
  · simp only [genuine, ↓reduceIte, alone, List.zip_nil_left]
  · simp only [genuine, Bool.false_eq_true, ↓reduceIte]
    rfl

/-- Every `Read` on a closed tunnel fails at once. -/
theorem readMany_closed (p : Bytes) (reads : Nat) (t : Tunnel) (isClosed : t.closed = true)
    (conn : Bytes) :
    readMany p reads t conn = List.replicate reads (⟨0, some .closedPipe, p, none⟩, t) := by
  induction reads with
  | zero => rfl
  | succ reads ih =>
      have refused : t.read conn p = (⟨0, some .closedPipe, p, none⟩, t, conn) := by
        simp only [read, isClosed, ↓reduceIte]
      rw [readMany, refused, ih, List.replicate_succ]

/-- A closed tunnel refuses every `Read` alike. -/
theorem unaffected_of_closed (p : Bytes) (t : Tunnel) (isClosed : t.closed = true)
    (frames : List Frame) : Unaffected p t frames := by
  have refused : ∀ list : List Frame, frameReads p t list =
      list.map fun frame => (frame, observe (⟨0, some .closedPipe, p, none⟩, t)) := by
    intro list
    rw [frameReads, readMany_closed p _ t isClosed, List.map_replicate]
    induction list with
    | nil => rfl
    | cons frame rest ih =>
        rw [List.length_cons, List.replicate_succ, List.zip_cons_cons, ih, List.map_cons]
  rw [Unaffected, refused, refused, List.filter_map]
  rfl

/-- On an open tunnel, by induction on the stream: a settled forgery leaves the window as it
was, so the rest is read as if it had not been there. -/
theorem unaffected_of_open (p : Bytes) (t : Tunnel) (isOpen : t.closed = false)
    (frames : List Frame) (settled : ForgeriesSettled t frames) : Unaffected p t frames := by
  induction frames generalizing t with
  | nil => rfl
  | cons frame rest ih =>
      rcases settled with forged | ⟨short, harmless, later⟩
      · exact unaffected_of_forged_rest p t frame rest forged
      · have tail := ih { t with recvWindow := (t.recvWindow.allow frame.seq).2 } isOpen later
        rw [Unaffected, frameReads_cons p t isOpen frame short, List.filter_cons,
          List.filter_cons]
        by_cases genuine : frame.opens t.aead
        · simp only [genuine, ↓reduceIte]
          rw [frameReads_cons p t isOpen frame short]
          exact congrArg (List.cons _) tail
        · simp only [genuine, Bool.false_eq_true, ↓reduceIte]
          have same : { t with recvWindow := (t.recvWindow.allow frame.seq).2 } = t := by
            rw [t.recvWindow.allow_of_settled (harmless (by simpa using genuine))]
          rw [same] at tail ⊢
          exact tail

/-- On a closed tunnel, and in a stream whose forgeries are settled, deleting the frames that
fail to open changes neither the answer to any other frame nor the window state after it. -/
theorem unaffected_of_forgeriesSettled (p : Bytes) (t : Tunnel) (frames : List Frame)
    (settled : t.closed = true ∨ ForgeriesSettled t frames) : Unaffected p t frames := by
  cases isClosed : t.closed with
  | true => exact unaffected_of_closed p t isClosed frames
  | false =>
      rw [isClosed] at settled
      exact unaffected_of_open p t isClosed frames (settled.resolve_left Bool.false_ne_true)

/-- The genuine empty packet numbered `seq`. -/
def genuineFrame (seq : UInt64) : Frame :=
  ⟨seq, nonceTagAEAD.sealWith (nonceOf seq) [] (putUint64 seq), by
    simp only [nonceTagAEAD, nonceOf, List.nil_append, List.length_append, length_putUint64]
    decide⟩

/-- A frame numbered `seq` with an empty ciphertext, which fails to open. -/
def forgedFrame (seq : UInt64) : Frame :=
  ⟨seq, [], by decide⟩

/-- A forged frame with a higher number makes the window drop a genuine one. -/
theorem forgedFrame_drops_genuine :
    ¬ Unaffected [] (newTunnel nonceTagAEAD .udp 1280) [forgedFrame 5, genuineFrame 1] := by
  decide

/-- A forgery that repeats the number of a frame already read is harmless. -/
theorem unaffected_by_repeated_number :
    Unaffected [] (newTunnel nonceTagAEAD .udp 1280)
      [genuineFrame 1, forgedFrame 1, genuineFrame 2] :=
  unaffected_of_forgeriesSettled _ _ _ (.inr (by decide))

end Tunnel

end P2pMesh

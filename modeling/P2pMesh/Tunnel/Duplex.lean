import P2pMesh.Foundation.Transition
import P2pMesh.Tunnel.Nonces

/-! # Reading and writing at both ends

Two endpoints over a reliable connection, each with one goroutine that calls
`Read` and one that calls `Write` or `Close`. Every call holds the mutex of its
endpoint to its end: a `Read` while it waits for bytes, a `Write` while the
connection takes the bytes of its frame. The connection buffers a number of bytes
in each direction, none in the case of `net.Pipe`, and takes a byte when it has
room for it or when a `Read` at the other end is waiting for one. When both ends
wait in `Read` at once no packet can ever be sent
(`P2pMesh.Duplex.deadlock_of_waiting`), and when both ends are inside a `Write`
whose frame the buffers have no room for, neither is ever read
(`P2pMesh.Duplex.deadlock_of_pressed`). The ends make progress as long as neither
comes about.
-/

namespace P2pMesh

open Foundation

/-- The goroutines of an endpoint, as holders of its mutex. -/
inductive Role where
  | reader
  | writer
deriving DecidableEq, Repr

/-- Where the reading goroutine is. -/
inductive ReaderPc where
  | idle
  | locking
  | reading
deriving DecidableEq, Repr

/-- The calls of the writing goroutine. -/
inductive Call where
  | write (p : Bytes)
  | close
deriving DecidableEq, Repr

/-- Where the writing goroutine is; `sending` is inside the `Write` of the connection. -/
inductive WriterPc where
  | idle
  | locking (call : Call)
  | running (call : Call)
  | sending
deriving DecidableEq, Repr

/-- The goroutine is inside a call, behind the mutex. -/
def WriterPc.inside : WriterPc → Bool
  | .idle => false
  | .locking _ => false
  | .running _ => true
  | .sending => true

/-- A tunnel with its mutex, its two goroutines, the bytes in flight towards it and the bytes
of its own frame that the connection has not taken. -/
structure Endpoint where
  tunnel : Tunnel
  mu : Option Role
  reader : ReaderPc
  writer : WriterPc
  inbox : Bytes
  outbox : Bytes

/-- The two ends of a connection. -/
abbrev Duplex := Side → Endpoint

/-- New tunnels at both ends of a connection, before any call. -/
def newDuplex (aead : AEAD) (transport : Side → Transport) (mtu : Side → Int64) : Duplex :=
  fun side => ⟨newPair aead transport mtu side, none, .idle, .idle, [], []⟩

/-- The end across. -/
def Side.other : Side → Side
  | .left => .right
  | .right => .left

/-- `Read` of this stream returns without waiting for further bytes. -/
def Tunnel.Readable (t : Tunnel) (conn : Bytes) : Prop :=
  t.closed = true ∨ (10 ≤ conn.length ∧
    (t.limit < (uint16 ((conn.drop 8).take 2)).toNat ∨
      10 + (uint16 ((conn.drop 8).take 2)).toNat ≤ conn.length))

instance (t : Tunnel) (conn : Bytes) : Decidable (t.Readable conn) :=
  inferInstanceAs (Decidable (_ ∨ _ ∧ (_ ∨ _)))

namespace Duplex

/-- A `Read` at this end returns: its frame is in flight, or the stream has ended. -/
def CanReturn (d : Duplex) (side : Side) : Prop :=
  (d side).tunnel.Readable (d side).inbox ∨ (d side.other).tunnel.closed = true

instance (d : Duplex) (side : Side) : Decidable (d.CanReturn side) :=
  inferInstanceAs (Decidable (_ ∨ _))

/-- The reading goroutine holds the mutex and waits for bytes. -/
def Waiting (d : Duplex) (side : Side) : Prop :=
  (d side).reader = .reading ∧ ¬ d.CanReturn side

instance (d : Duplex) (side : Side) : Decidable (d.Waiting side) :=
  inferInstanceAs (Decidable (_ ∧ _))

/-- The connection takes another byte from this end: its buffer has room, or the other end
waits for bytes. -/
def HasRoom (capacity : Side → Nat) (d : Duplex) (side : Side) : Prop :=
  (d side.other).inbox.length < capacity side.other ∨ d.Waiting side.other

/-- The endpoint after `Write` has sealed its packet, or has refused it. -/
def afterEncrypt (d : Duplex) (side : Side) (p : Bytes) : Duplex :=
  let result := (d side).tunnel.write p none
  Function.update d side
    (if result.1.err = none then
      { d side with tunnel := result.2, writer := .sending, outbox := result.1.sent }
    else { d side with tunnel := result.2, mu := none, writer := .idle })

/-- The endpoints after the connection has taken a byte. -/
def afterSend (d : Duplex) (side : Side) (byte : UInt8) (rest : Bytes) : Duplex :=
  Function.update (Function.update d side { d side with outbox := rest }) side.other
    { d side.other with inbox := (d side.other).inbox ++ [byte] }

/-- The endpoint after a finished `Read`. -/
def afterRead (d : Duplex) (side : Side) : Duplex :=
  Function.update d side
    { d side with
      tunnel := ((d side).tunnel.read (d side).inbox []).2.1
      inbox := ((d side).tunnel.read (d side).inbox []).2.2
      mu := none
      reader := .idle }

end Duplex

/-- The atomic steps of the goroutines at the two ends. -/
inductive DuplexLabel where
  | callRead (side : Side)
  | lockRead (side : Side)
  | returnRead (side : Side)
  | call (side : Side) (call : Call)
  | lockWrite (side : Side)
  | encrypt (side : Side) (p : Bytes)
  | send (side : Side)
  | returnWrite (side : Side)
deriving DecidableEq, Repr

/-- The atomic steps of the four goroutines over a connection that buffers `capacity` bytes
towards each end. The `Write` of the connection returns when all bytes are taken, or with an
error when the other end is closed. -/
inductive DuplexStep (capacity : Side → Nat) : Duplex → DuplexLabel → Duplex → Prop where
  | callRead {d : Duplex} (side : Side) :
      (d side).reader = .idle →
      DuplexStep capacity d (.callRead side)
        (Function.update d side { d side with reader := .locking })
  | lockRead {d : Duplex} (side : Side) :
      (d side).reader = .locking → (d side).mu = none →
      DuplexStep capacity d (.lockRead side)
        (Function.update d side { d side with reader := .reading, mu := some .reader })
  | returnRead {d : Duplex} (side : Side) :
      (d side).reader = .reading → d.CanReturn side →
      DuplexStep capacity d (.returnRead side) (d.afterRead side)
  | call {d : Duplex} (side : Side) (call : Call) :
      (d side).writer = .idle →
      DuplexStep capacity d (.call side call)
        (Function.update d side { d side with writer := .locking call })
  | lockWrite {d : Duplex} (side : Side) (call : Call) :
      (d side).writer = .locking call → (d side).mu = none →
      DuplexStep capacity d (.lockWrite side)
        (Function.update d side { d side with writer := .running call, mu := some .writer })
  | encrypt {d : Duplex} (side : Side) (p : Bytes) :
      (d side).writer = .running (.write p) →
      DuplexStep capacity d (.encrypt side p) (d.afterEncrypt side p)
  | send {d : Duplex} (side : Side) (byte : UInt8) (rest : Bytes) :
      (d side).writer = .sending → (d side).outbox = byte :: rest → d.HasRoom capacity side →
      DuplexStep capacity d (.send side) (d.afterSend side byte rest)
  | returnWrite {d : Duplex} (side : Side) :
      (d side).writer = .sending →
      (d side).outbox = [] ∨ (d side.other).tunnel.closed = true →
      DuplexStep capacity d (.returnWrite side)
        (Function.update d side { d side with mu := none, writer := .idle })
  | returnClose {d : Duplex} (side : Side) :
      (d side).writer = .running .close →
      DuplexStep capacity d (.returnWrite side)
        (Function.update d side
          { d side with tunnel := (d side).tunnel.close, mu := none, writer := .idle })

namespace Duplex

/-- The reading goroutine has a call pending and cannot proceed with it. -/
def ReaderBlocked (d : Duplex) (side : Side) : Prop :=
  match (d side).reader with
  | .idle => False
  | .locking => (d side).mu ≠ none
  | .reading => ¬ d.CanReturn side

/-- The connection takes no byte of a frame that is not sent to its end. -/
def Stuck (capacity : Side → Nat) (d : Duplex) (side : Side) : Prop :=
  (d side).outbox ≠ [] ∧ (d side.other).tunnel.closed = false ∧ ¬ d.HasRoom capacity side

/-- The writing goroutine has a call pending and cannot proceed with it. -/
def WriterBlocked (capacity : Side → Nat) (d : Duplex) (side : Side) : Prop :=
  match (d side).writer with
  | .idle => False
  | .locking _ => (d side).mu ≠ none
  | .running _ => False
  | .sending => d.Stuck capacity side

/-- All four goroutines are blocked; both ends have a `Write` or `Close` pending. -/
def Deadlocked (capacity : Side → Nat) (d : Duplex) : Prop :=
  ∀ side, d.ReaderBlocked side ∧ d.WriterBlocked capacity side

/-- The end is inside a `Write` with more bytes left than the connection has room for. -/
def Pressed (capacity : Side → Nat) (d : Duplex) (side : Side) : Prop :=
  (d side).writer = .sending ∧ (d side).outbox ≠ [] ∧ (d side.other).tunnel.closed = false ∧
    capacity side.other < (d side.other).inbox.length + (d side).outbox.length

instance (capacity : Side → Nat) (d : Duplex) (side : Side) :
    Decidable (d.Pressed capacity side) :=
  inferInstanceAs (Decidable (_ ∧ _ ∧ _ ∧ _))

/-- The frame of the packet is accepted and has more bytes than the connection has room for. -/
def Overfills (capacity : Side → Nat) (d : Duplex) (side : Side) (p : Bytes) : Prop :=
  ((d side).tunnel.write p none).1.err = none ∧ (d side.other).tunnel.closed = false ∧
    capacity side.other <
      (d side.other).inbox.length + ((d side).tunnel.write p none).1.sent.length

instance (capacity : Side → Nat) (d : Duplex) (side : Side) (p : Bytes) :
    Decidable (d.Overfills capacity side p) :=
  inferInstanceAs (Decidable (_ ∧ _ ∧ _))

/-- A `Read` may take the mutex when its frame is in flight, or when the other end is not
waiting in a `Read`; a `Write` may start to send when the connection has room for its frame,
or when the other end is not inside a `Write` that it has no room for. -/
def Unhindered (capacity : Side → Nat) (d : Duplex) : DuplexLabel → Prop
  | .lockRead side => d.CanReturn side ∨ ¬ d.Waiting side.other
  | .encrypt side p => ¬ d.Overfills capacity side p ∨ ¬ d.Pressed capacity side.other
  | _ => True

end Duplex

@[simp] theorem Side.other_ne (side : Side) : side.other ≠ side := by
  cases side <;> decide

@[simp] theorem Side.other_other (side : Side) : side.other.other = side := by
  cases side <;> rfl

theorem Side.eq_or_eq_other (side here : Side) : side = here ∨ side = here.other := by
  cases side <;> cases here <;> decide

/-- A readable stream stays readable when bytes arrive. -/
theorem Tunnel.Readable.append {t : Tunnel} {conn : Bytes} (readable : t.Readable conn)
    (more : Bytes) : t.Readable (conn ++ more) := by
  rcases readable with isClosed | ⟨header, body⟩
  · exact Or.inl isClosed
  · right
    have same : ((conn ++ more).drop 8).take 2 = (conn.drop 8).take 2 := by
      rw [List.drop_append_of_le_length (by omega), List.take_append_of_le_length]
      rw [List.length_drop]
      omega
    rw [same, List.length_append]
    refine ⟨by omega, body.imp id fun _ => by omega⟩

namespace Duplex

variable {capacity : Side → Nat}

/-- The mutex of an endpoint records which of its goroutines is inside a call. -/
def Guards (d : Duplex) : Prop :=
  ∀ side,
    ((d side).mu = some .reader ↔ (d side).reader = .reading) ∧
    ((d side).mu = some .writer ↔ (d side).writer.inside = true)

/-- At most one end waits in a `Read`. -/
def OneWaits (d : Duplex) : Prop :=
  ¬ ∀ side, d.Waiting side

/-- At most one end is inside a `Write` that the connection has no room for. -/
def OnePressed (capacity : Side → Nat) (d : Duplex) : Prop :=
  ¬ ∀ side, d.Pressed capacity side

/-- An end whose mutex is not with its reader is not in a `Read`. -/
theorem Guards.not_reading {d : Duplex} (guards : d.Guards) {side : Side}
    (elsewhere : (d side).mu ≠ some .reader) : (d side).reader ≠ .reading :=
  fun reading => elsewhere ((guards side).1.mpr reading)

/-- An end whose mutex is not with its writer is not in a `Write`. -/
theorem Guards.not_inside {d : Duplex} (guards : d.Guards) {side : Side}
    (elsewhere : (d side).mu ≠ some .writer) : (d side).writer.inside = false :=
  Bool.eq_false_iff.mpr fun inside => elsewhere ((guards side).2.mpr inside)

/-- A writer inside a call keeps the reader out. -/
theorem Guards.held {d : Duplex} (guards : d.Guards) {side : Side}
    (inside : (d side).writer.inside = true) :
    (d side).mu = some .writer ∧ (d side).reader ≠ .reading := by
  have held := (guards side).2.mpr inside
  exact ⟨held, guards.not_reading (by simp [held])⟩

/-- A change of one end that keeps its mutex in step keeps both in step. -/
theorem guards_update {d : Duplex} (guards : d.Guards) {side : Side} {endpoint : Endpoint}
    (read : endpoint.mu = some .reader ↔ endpoint.reader = .reading)
    (write : endpoint.mu = some .writer ↔ endpoint.writer.inside = true) :
    Guards (Function.update d side endpoint) := by
  intro here
  by_cases same : here = side
  · subst same
    rw [Function.update_self]
    exact ⟨read, write⟩
  · rw [Function.update_of_ne same]
    exact guards here

/-- Bytes that arrive and a tunnel that closes only help a `Read` to return. -/
theorem CanReturn.mono {d after : Duplex} {side : Side} (returns : d.CanReturn side)
    (limit : (after side).tunnel.limit = (d side).tunnel.limit)
    (closed : ∀ here, (d here).tunnel.closed = true → (after here).tunnel.closed = true)
    (arrived : ∃ more, (after side).inbox = (d side).inbox ++ more) :
    after.CanReturn side := by
  obtain ⟨more, grown⟩ := arrived
  rcases returns with readable | ended
  · left
    rw [grown]
    rcases readable.append more with isClosed | complete
    · exact Or.inl (closed side isClosed)
    · right
      rw [limit]
      exact complete
  · exact Or.inr (closed side.other ended)

end Duplex

/-- An accepted `Write` has bytes to send. -/
theorem Tunnel.sent_ne_nil {t : Tunnel} {p : Bytes} (accepted : (t.write p none).1.err = none) :
    (t.write p none).1.sent ≠ [] := by
  obtain ⟨seq, sent⟩ := write_sent accepted
  rw [sent]
  exact List.ne_nil_of_length_pos (by simp)

/-- A `Write` changes neither the limit of a tunnel nor whether it is closed. -/
theorem Tunnel.write_frame (t : Tunnel) (p : Bytes) (connErr : Option String) :
    (t.write p connErr).2.limit = t.limit ∧ (t.write p connErr).2.closed = t.closed := by
  unfold write
  split
  · exact ⟨rfl, rfl⟩
  · split
    · exact ⟨rfl, rfl⟩
    · cases connErr <;> exact ⟨rfl, rfl⟩

namespace Duplex

variable {capacity : Side → Nat}

/-- What both ends can see of an endpoint: what a `Read` waits for depends on nothing else. -/
theorem canReturn_update (d : Duplex) (side here : Side) {endpoint : Endpoint}
    (limit : endpoint.tunnel.limit = (d side).tunnel.limit)
    (closed : endpoint.tunnel.closed = (d side).tunnel.closed)
    (inbox : endpoint.inbox = (d side).inbox) :
    CanReturn (Function.update d side endpoint) here ↔ d.CanReturn here := by
  have tunnels (there : Side) :
      (Function.update d side endpoint there).tunnel.limit = (d there).tunnel.limit ∧
        (Function.update d side endpoint there).tunnel.closed = (d there).tunnel.closed ∧
        (Function.update d side endpoint there).inbox = (d there).inbox := by
    by_cases same : there = side
    · rw [same, Function.update_self]
      exact ⟨limit, closed, inbox⟩
    · rw [Function.update_of_ne same]
      exact ⟨rfl, rfl, rfl⟩
  simp only [CanReturn, Tunnel.Readable, tunnels]

/-- Closing the tunnel of an end keeps a `Read` that can return able to. -/
theorem CanReturn.close {d : Duplex} {here : Side} (returns : d.CanReturn here) (side : Side)
    {endpoint : Endpoint} (tunnel : endpoint.tunnel = (d side).tunnel.close)
    (inbox : endpoint.inbox = (d side).inbox) :
    CanReturn (Function.update d side endpoint) here := by
  refine returns.mono ?_ ?_ ⟨[], ?_⟩
  · by_cases same : here = side
    · rw [same, Function.update_self, tunnel]
      rfl
    · rw [Function.update_of_ne same]
  · intro there isClosed
    by_cases same : there = side
    · rw [same, Function.update_self, tunnel]
      rfl
    · rw [Function.update_of_ne same]
      exact isClosed
  · by_cases same : here = side
    · rw [same, Function.update_self, inbox, List.append_nil]
    · rw [Function.update_of_ne same, List.append_nil]

/-- Two ends that were not both waiting are not both waiting after a step that keeps
their reading goroutines and lets neither of them wait longer. -/
theorem OneWaits.keep {d after : Duplex} (one : d.OneWaits)
    (readers : ∀ here, (after here).reader = (d here).reader)
    (returns : ∀ here, d.CanReturn here → after.CanReturn here) : after.OneWaits := by
  intro both
  apply one
  intro here
  obtain ⟨reading, waits⟩ := both here
  exact ⟨(readers here).symm.trans reading, fun able => waits (returns here able)⟩

/-- A change that leaves the reader of its end leaves both readers. -/
theorem reader_update (d : Duplex) (side here : Side) {endpoint : Endpoint}
    (kept : endpoint.reader = (d side).reader) :
    (Function.update d side endpoint here).reader = (d here).reader := by
  by_cases same : here = side
  · rw [same, Function.update_self, kept]
  · rw [Function.update_of_ne same]

/-- If one end is not in a `Read`, not both wait. -/
theorem oneWaits_update (d : Duplex) (side : Side) {endpoint : Endpoint}
    (notReading : endpoint.reader ≠ .reading) : OneWaits (Function.update d side endpoint) := by
  intro both
  have reading := (both side).1
  rw [Function.update_self] at reading
  exact notReading reading

/-- If one end is not sending, not both are pressed. -/
theorem onePressed_update (d : Duplex) (side : Side) {endpoint : Endpoint}
    (notSending : endpoint.writer ≠ .sending) :
    OnePressed capacity (Function.update d side endpoint) := by
  intro both
  have sending := (both side).1
  rw [Function.update_self] at sending
  exact notSending sending

/-- An end is pressed by the frame it sends and the bytes on the way, and by nothing else. -/
theorem Pressed.of_same {d after : Duplex} {side : Side} (pressed : after.Pressed capacity side)
    (writer : (after side).writer = (d side).writer)
    (outbox : (after side).outbox = (d side).outbox)
    (closed : (after side.other).tunnel.closed = (d side.other).tunnel.closed)
    (inbox : (after side.other).inbox = (d side.other).inbox) :
    d.Pressed capacity side := by
  unfold Pressed at pressed ⊢
  rwa [writer, outbox, closed, inbox] at pressed

/-- A step of a reading goroutine presses no end. -/
theorem pressed_of_update {d : Duplex} {side here : Side} {endpoint : Endpoint}
    (writer : endpoint.writer = (d side).writer) (outbox : endpoint.outbox = (d side).outbox)
    (closed : endpoint.tunnel.closed = (d side).tunnel.closed)
    (inbox : endpoint.inbox = (d side).inbox)
    (pressed : Pressed capacity (Function.update d side endpoint) here) :
    d.Pressed capacity here := by
  rcases Side.eq_or_eq_other here side with rfl | rfl
  · refine pressed.of_same ?_ ?_ ?_ ?_
    · rw [Function.update_self, writer]
    · rw [Function.update_self, outbox]
    · rw [Function.update_of_ne (Side.other_ne _)]
    · rw [Function.update_of_ne (Side.other_ne _)]
  · refine pressed.of_same ?_ ?_ ?_ ?_
    · rw [Function.update_of_ne (Side.other_ne _)]
    · rw [Function.update_of_ne (Side.other_ne _)]
    · rw [Side.other_other, Function.update_self, closed]
    · rw [Side.other_other, Function.update_self, inbox]

/-! ### A sealed packet -/

section AfterEncrypt

variable (d : Duplex) (side : Side) (p : Bytes)

/-- What a sealed or refused packet leaves alone at its end. -/
theorem afterEncrypt_side :
    (d.afterEncrypt side p side).reader = (d side).reader ∧
      (d.afterEncrypt side p side).inbox = (d side).inbox ∧
      (d.afterEncrypt side p side).tunnel.limit = (d side).tunnel.limit ∧
      (d.afterEncrypt side p side).tunnel.closed = (d side).tunnel.closed := by
  obtain ⟨limit, closed⟩ := (d side).tunnel.write_frame p none
  rw [afterEncrypt, Function.update_self]
  split
  · exact ⟨rfl, rfl, limit, closed⟩
  · exact ⟨rfl, rfl, limit, closed⟩

theorem afterEncrypt_other : d.afterEncrypt side p side.other = d side.other :=
  Function.update_of_ne (Side.other_ne side) _ _

/-- Sealing a packet changes nothing for the `Read`s of either end. -/
theorem canReturn_afterEncrypt (here : Side) :
    (d.afterEncrypt side p).CanReturn here ↔ d.CanReturn here := by
  obtain ⟨_, inbox, limit, closed⟩ := d.afterEncrypt_side side p
  rw [afterEncrypt, Function.update_self] at inbox limit closed
  exact canReturn_update d side here limit closed inbox

/-- Sealing a packet keeps the mutexes in step, also when the packet is refused. -/
theorem guards_afterEncrypt (guards : d.Guards) (running : (d side).writer = .running (.write p)) :
    (d.afterEncrypt side p).Guards := by
  obtain ⟨held, notReading⟩ := guards.held (by rw [running]; rfl : (d side).writer.inside = true)
  refine guards_update guards ?_ ?_
  · split <;> simp [held, notReading]
  · split <;> simp [held, WriterPc.inside]

/-- A packet that presses its end overfills the connection. -/
theorem overfills_of_pressed :
    (d.afterEncrypt side p).Pressed capacity side → d.Overfills capacity side p := by
  intro pressed
  unfold Pressed at pressed
  rw [afterEncrypt_other, afterEncrypt, Function.update_self] at pressed
  split at pressed
  · next accepted => exact ⟨accepted, pressed.2.2⟩
  · cases pressed.1

/-- Sealing a packet at one end does not press the other. -/
theorem pressed_of_afterEncrypt_other
    (pressed : (d.afterEncrypt side p).Pressed capacity side.other) :
    d.Pressed capacity side.other := by
  obtain ⟨_, inbox, _, closed⟩ := d.afterEncrypt_side side p
  refine pressed.of_same ?_ ?_ ?_ ?_
  · rw [afterEncrypt_other]
  · rw [afterEncrypt_other]
  · rw [Side.other_other, closed]
  · rw [Side.other_other, inbox]

end AfterEncrypt

/-! ### A byte on the way -/

section AfterSend

variable (d : Duplex) (side : Side) (byte : UInt8) (rest : Bytes)

theorem afterSend_side : d.afterSend side byte rest side = { d side with outbox := rest } := by
  rw [afterSend, Function.update_of_ne (Side.other_ne side).symm, Function.update_self]

theorem afterSend_other :
    d.afterSend side byte rest side.other =
      { d side.other with inbox := (d side.other).inbox ++ [byte] } :=
  Function.update_self _ _ _

/-- A byte that moves changes no mutex and no goroutine. -/
theorem afterSend_frame (here : Side) :
    (d.afterSend side byte rest here).mu = (d here).mu ∧
      (d.afterSend side byte rest here).reader = (d here).reader ∧
      (d.afterSend side byte rest here).writer = (d here).writer ∧
      (d.afterSend side byte rest here).tunnel = (d here).tunnel := by
  rcases Side.eq_or_eq_other here side with rfl | rfl
  · rw [afterSend_side]
    exact ⟨rfl, rfl, rfl, rfl⟩
  · rw [afterSend_other]
    exact ⟨rfl, rfl, rfl, rfl⟩

/-- A byte that is sent keeps the mutexes in step. -/
theorem guards_afterSend (guards : d.Guards) : (d.afterSend side byte rest).Guards := by
  intro here
  obtain ⟨mu, reader, writer, _⟩ := d.afterSend_frame side byte rest here
  rw [mu, reader, writer]
  exact guards here

/-- A byte that is sent takes no frame away from a `Read`. -/
theorem CanReturn.afterSend {d : Duplex} {here : Side} (returns : d.CanReturn here)
    (side : Side) (byte : UInt8) (rest : Bytes) :
    (d.afterSend side byte rest).CanReturn here := by
  have frame := d.afterSend_frame side byte rest
  refine returns.mono ?_ (fun there isClosed => ?_) ?_
  · rw [(frame here).2.2.2]
  · rwa [(frame there).2.2.2]
  · rcases Side.eq_or_eq_other here side with rfl | rfl
    · rw [afterSend_side]
      exact ⟨[], (List.append_nil _).symm⟩
    · rw [afterSend_other]
      exact ⟨[byte], rfl⟩

/-- The bytes left and the bytes on the way are as many as before. -/
theorem pressed_of_afterSend {d : Duplex} {side : Side} {byte : UInt8} {rest : Bytes}
    (next : (d side).outbox = byte :: rest) {here : Side}
    (pressed : (d.afterSend side byte rest).Pressed capacity here) : d.Pressed capacity here := by
  have frame := d.afterSend_frame side byte rest
  unfold Pressed at pressed ⊢
  rw [(frame here).2.2.1, (frame here.other).2.2.2] at pressed
  rcases Side.eq_or_eq_other here side with rfl | rfl
  · rw [afterSend_side, afterSend_other, List.length_append, List.length_singleton] at pressed
    obtain ⟨sending, _, isOpen, more⟩ := pressed
    rw [next, List.length_cons]
    dsimp only at more
    exact ⟨sending, List.cons_ne_nil _ _, isOpen, by omega⟩
  · rw [Side.other_other, afterSend_side, afterSend_other] at pressed
    rw [Side.other_other]
    exact pressed

/-- A byte that goes into the buffer leaves the ends pressed that were. -/
theorem Pressed.afterSend {d : Duplex} {side : Side} {byte : UInt8} {rest : Bytes}
    (next : (d side).outbox = byte :: rest)
    (room : (d side.other).inbox.length < capacity side.other) {here : Side}
    (pressed : d.Pressed capacity here) : (d.afterSend side byte rest).Pressed capacity here := by
  have frame := d.afterSend_frame side byte rest
  unfold Pressed at pressed ⊢
  rw [(frame here).2.2.1, (frame here.other).2.2.2]
  rcases Side.eq_or_eq_other here side with rfl | rfl
  · obtain ⟨sending, _, isOpen, more⟩ := pressed
    rw [next, List.length_cons] at more
    rw [afterSend_side, afterSend_other, List.length_append, List.length_singleton]
    refine ⟨sending, List.ne_nil_of_length_pos ?_, isOpen, ?_⟩
    · dsimp only
      omega
    · dsimp only
      omega
  · rw [Side.other_other] at pressed
    rw [Side.other_other, afterSend_side, afterSend_other]
    exact pressed

end AfterSend

end Duplex

variable {capacity : Side → Nat}

/-- Every step keeps the mutexes in line with the goroutines. -/
theorem DuplexStep.guards {d after : Duplex} {label : DuplexLabel}
    (taken : DuplexStep capacity d label after) (guards : d.Guards) : after.Guards := by
  cases taken with
  | callRead side idle =>
      refine Duplex.guards_update guards ?_ (guards _).2
      simp [(guards _).1, idle]
  | lockRead side locking free =>
      refine Duplex.guards_update guards ?_ ?_
      · simp
      · simpa using guards.not_inside (by simp [free])
  | returnRead side reading returns =>
      have held : (d side).mu = some .reader := (guards side).1.mpr reading
      refine Duplex.guards_update guards ?_ ?_
      · simp
      · simpa using guards.not_inside (by simp [held])
  | call side call idle =>
      refine Duplex.guards_update guards (guards _).1 ?_
      simp [(guards _).2, idle, WriterPc.inside]
  | lockWrite side call locking free =>
      refine Duplex.guards_update guards ?_ ?_
      · simpa using guards.not_reading (by simp [free])
      · simp [WriterPc.inside]
  | encrypt side p running => exact Duplex.guards_afterEncrypt _ _ _ guards running
  | send side byte rest sending next room => exact Duplex.guards_afterSend _ _ _ _ guards
  | returnWrite side sending done =>
      obtain ⟨_, notReading⟩ := guards.held (by rw [sending]; rfl : (d side).writer.inside = true)
      refine Duplex.guards_update guards ?_ ?_
      · simpa using notReading
      · simp [WriterPc.inside]
  | returnClose side running =>
      obtain ⟨_, notReading⟩ := guards.held (by rw [running]; rfl : (d side).writer.inside = true)
      refine Duplex.guards_update guards ?_ ?_
      · simpa using notReading
      · simp [WriterPc.inside]

/-- A step that meets the condition does not let both ends wait. -/
theorem DuplexStep.oneWaits {d after : Duplex} {label : DuplexLabel}
    (taken : DuplexStep capacity d label after) (unhindered : d.Unhindered capacity label)
    (one : d.OneWaits) : after.OneWaits := by
  cases taken with
  | callRead side idle => exact Duplex.oneWaits_update d side (by simp)
  | lockRead side locking free =>
      intro both
      rcases unhindered with able | notWaiting
      · apply (both side).2
        exact (Duplex.canReturn_update d side side (by rfl) (by rfl) (by rfl)).mpr able
      · apply notWaiting
        obtain ⟨reading, waits⟩ := both side.other
        rw [Function.update_of_ne (Side.other_ne side)] at reading
        refine ⟨reading, fun able => waits ?_⟩
        exact (Duplex.canReturn_update d side side.other (by rfl) (by rfl) (by rfl)).mpr able
  | returnRead side reading returns => exact Duplex.oneWaits_update d side (by simp)
  | call side call idle =>
      refine one.keep (fun here => Duplex.reader_update d side here rfl) fun here => ?_
      exact (Duplex.canReturn_update d side here (by rfl) (by rfl) (by rfl)).mpr
  | lockWrite side call locking free =>
      refine one.keep (fun here => Duplex.reader_update d side here rfl) fun here => ?_
      exact (Duplex.canReturn_update d side here (by rfl) (by rfl) (by rfl)).mpr
  | encrypt side p running =>
      refine one.keep (fun here => ?_) fun here => (d.canReturn_afterEncrypt side p here).mpr
      rcases Side.eq_or_eq_other here side with rfl | rfl
      · exact (d.afterEncrypt_side here p).1
      · rw [d.afterEncrypt_other]
  | send side byte rest sending next room =>
      exact one.keep (fun here => (d.afterSend_frame side byte rest here).2.1)
        fun here able => able.afterSend side byte rest
  | returnWrite side sending done =>
      refine one.keep (fun here => Duplex.reader_update d side here rfl) fun here => ?_
      exact (Duplex.canReturn_update d side here (by rfl) (by rfl) (by rfl)).mpr
  | returnClose side running =>
      refine one.keep (fun here => Duplex.reader_update d side here rfl) fun here able => ?_
      exact able.close side rfl rfl

/-- A step that meets the condition does not press both ends. -/
theorem DuplexStep.onePressed {d after : Duplex} {label : DuplexLabel}
    (taken : DuplexStep capacity d label after) (unhindered : d.Unhindered capacity label)
    (guards : d.Guards) (one : d.OnePressed capacity) : after.OnePressed capacity := by
  cases taken with
  | callRead side idle =>
      intro both
      exact one fun here =>
        Duplex.pressed_of_update (by rfl) (by rfl) (by rfl) (by rfl) (both here)
  | lockRead side locking free =>
      intro both
      exact one fun here =>
        Duplex.pressed_of_update (by rfl) (by rfl) (by rfl) (by rfl) (both here)
  | returnRead side reading returns =>
      -- The mutex is the reader's, so this end is inside no `Write`.
      have held : (d side).mu = some .reader := (guards side).1.mpr reading
      have outside := guards.not_inside (by simp [held] : (d side).mu ≠ some .writer)
      refine Duplex.onePressed_update d side fun sending => ?_
      change (d side).writer = .sending at sending
      rw [sending] at outside
      cases outside
  | call side call idle => exact Duplex.onePressed_update d side (by simp)
  | lockWrite side call locking free => exact Duplex.onePressed_update d side (by simp)
  | encrypt side p running =>
      intro both
      rcases unhindered with fits | roomy
      · exact fits (d.overfills_of_pressed side p (both side))
      · exact roomy (d.pressed_of_afterEncrypt_other side p (both side.other))
  | send side byte rest sending next room =>
      intro both
      exact one fun here => Duplex.pressed_of_afterSend next (both here)
  | returnWrite side sending done => exact Duplex.onePressed_update d side (by simp)
  | returnClose side running => exact Duplex.onePressed_update d side (by simp)

/-- A `Read` that takes the mutex against the condition leaves both ends waiting. -/
theorem DuplexStep.waiting_of_hindered {d after : Duplex} {side : Side}
    (taken : DuplexStep capacity d (.lockRead side) after)
    (hindered : ¬ d.Unhindered capacity (.lockRead side)) (here : Side) : after.Waiting here := by
  obtain ⟨notAble, waits⟩ := not_or.mp hindered
  have others : d.Waiting side.other := not_not.mp waits
  cases taken with
  | lockRead _ locking free =>
      unfold Duplex.Waiting
      rw [Duplex.canReturn_update d side here (by rfl) (by rfl) (by rfl)]
      rcases Side.eq_or_eq_other here side with same | same
      · rw [same, Function.update_self]
        exact ⟨rfl, notAble⟩
      · rw [same, Function.update_of_ne (Side.other_ne side)]
        exact others

/-- A `Write` that starts to send against the condition leaves both ends pressed. -/
theorem DuplexStep.pressed_of_hindered {d after : Duplex} {side : Side} {p : Bytes}
    (taken : DuplexStep capacity d (.encrypt side p) after)
    (hindered : ¬ d.Unhindered capacity (.encrypt side p)) (here : Side) :
    after.Pressed capacity here := by
  obtain ⟨overfills, others⟩ := not_or.mp hindered
  obtain ⟨accepted, isOpen, more⟩ := not_not.mp overfills
  have other : d.Pressed capacity side.other := not_not.mp others
  cases taken with
  | encrypt _ _ running =>
      rcases Side.eq_or_eq_other here side with rfl | rfl
      · unfold Duplex.Pressed
        rw [Duplex.afterEncrypt_other, Duplex.afterEncrypt, Function.update_self, if_pos accepted]
        exact ⟨rfl, Tunnel.sent_ne_nil accepted, isOpen, more⟩
      · obtain ⟨_, inbox, _, closed⟩ := d.afterEncrypt_side side p
        unfold Duplex.Pressed at other ⊢
        rw [Duplex.afterEncrypt_other, Side.other_other, inbox, closed]
        rwa [Side.other_other] at other

namespace Duplex

/-- On a new connection nobody holds a mutex. -/
theorem guards_newDuplex (aead : AEAD) (transport : Side → Transport) (mtu : Side → Int64) :
    (newDuplex aead transport mtu).Guards := by
  intro side
  simp [newDuplex, WriterPc.inside]

/-- On a new connection nobody is in a `Read`. -/
theorem oneWaits_newDuplex (aead : AEAD) (transport : Side → Transport) (mtu : Side → Int64) :
    (newDuplex aead transport mtu).OneWaits := by
  intro both
  exact ReaderPc.noConfusion (both .left).1

/-- On a new connection nobody is in a `Write`. -/
theorem onePressed_newDuplex (aead : AEAD) (transport : Side → Transport)
    (mtu : Side → Int64) : (newDuplex aead transport mtu).OnePressed capacity := by
  intro both
  exact WriterPc.noConfusion (both .left).1

/-- A stuck end is pressed, and the other end is not waiting for its bytes. -/
theorem Stuck.pressed {d : Duplex} {side : Side} (stuck : d.Stuck capacity side)
    (sending : (d side).writer = .sending) :
    d.Pressed capacity side ∧ ¬ d.Waiting side.other := by
  obtain ⟨bytes, isOpen, full⟩ := stuck
  obtain ⟨noRoom, notWaiting⟩ := not_or.mp full
  have some := List.length_pos_of_ne_nil bytes
  exact ⟨⟨sending, bytes, isOpen, by omega⟩, notWaiting⟩

/-- A blocked end waits in a `Read`, or is stuck in a `Write`: a reader that only waits for the
mutex waits for the writer. -/
theorem Deadlocked.waiting_or_stuck {d : Duplex} (deadlocked : d.Deadlocked capacity)
    (guards : d.Guards) (side : Side) :
    d.Waiting side ∨ ((d side).writer = .sending ∧ d.Stuck capacity side) := by
  obtain ⟨reader, writer⟩ := deadlocked side
  unfold ReaderBlocked at reader
  unfold WriterBlocked at writer
  cases reads : (d side).reader with
  | idle => simp [reads] at reader
  | reading =>
      simp only [reads] at reader
      exact .inl ⟨reads, reader⟩
  | locking =>
      simp only [reads] at reader
      obtain ⟨role, mu⟩ := Option.ne_none_iff_exists'.mp reader
      cases role with
      | reader =>
          have reading := (guards side).1.mp mu
          rw [reads] at reading
          cases reading
      | writer =>
          have inside := (guards side).2.mp mu
          cases writes : (d side).writer with
          | idle => simp [writes] at writer
          | locking call => simp [writes, WriterPc.inside] at inside
          | running call => simp [writes] at writer
          | sending =>
              simp only [writes] at writer
              exact .inr ⟨rfl, writer⟩

/-- In a deadlock both ends wait in a `Read`, or both are pressed. -/
theorem Deadlocked.waiting_or_pressed {d : Duplex} (deadlocked : d.Deadlocked capacity)
    (guards : d.Guards) : (∀ side, d.Waiting side) ∨ ∀ side, d.Pressed capacity side := by
  have either := deadlocked.waiting_or_stuck guards
  rcases either .left with waits | ⟨sending, stuck⟩
  · rcases either .right with also | ⟨sending, stuck⟩
    · left
      intro side
      cases side with
      | left => exact waits
      | right => exact also
    · exact absurd waits (stuck.pressed sending).2
  · have ⟨pressed, notWaiting⟩ := stuck.pressed sending
    obtain ⟨alsoSending, alsoStuck⟩ := (either .right).resolve_left notWaiting
    right
    intro side
    cases side with
    | left => exact pressed
    | right => exact (alsoStuck.pressed alsoSending).1

/-! ### Both ends wait -/

/-- While both ends wait, a call of the writing goroutine of either end gets to the mutex and
no further, and nothing else changes. -/
theorem exists_writerLocking {d : Duplex} (guards : d.Guards) (both : ∀ side, d.Waiting side)
    (side : Side) :
    ∃ after, Reachable (DuplexStep capacity) d after ∧ after.Guards ∧
      (∀ here, after.Waiting here) ∧ (∃ call, (after side).writer = .locking call) ∧
      ∀ here, here ≠ side → after here = d here := by
  have held : (d side).mu = some .reader := (guards side).1.mpr (both side).1
  have outside := guards.not_inside (by simp [held] : (d side).mu ≠ some .writer)
  cases writes : (d side).writer with
  | running call =>
      rw [writes] at outside
      cases outside
  | sending =>
      rw [writes] at outside
      cases outside
  | locking call => exact ⟨d, .refl d, guards, both, ⟨call, writes⟩, fun _ _ => rfl⟩
  | idle =>
      have taken : DuplexStep capacity d (.call side .close) _ := .call side .close writes
      refine ⟨_, (Reachable.refl d).tail taken, taken.guards guards, ?_, ⟨.close, ?_⟩,
        fun here other => Function.update_of_ne other _ _⟩
      · intro here
        refine ⟨(reader_update d side here (by rfl)).trans (both here).1, fun able => ?_⟩
        exact (both here).2
          ((canReturn_update d side here (by rfl) (by rfl) (by rfl)).mp able)
      · rw [Function.update_self]

/-- Once both ends wait in a `Read`, the next `Write` or `Close` of each end leaves
all four goroutines blocked. -/
theorem deadlock_of_waiting {d : Duplex} (guards : d.Guards) (both : ∀ side, d.Waiting side) :
    ∃ after, Reachable (DuplexStep capacity) d after ∧ after.Deadlocked capacity := by
  obtain ⟨middle, first, guards, both, ⟨call, left⟩, _⟩ :=
    exists_writerLocking guards both .left
  obtain ⟨after, second, guards, both, right, kept⟩ :=
    exists_writerLocking guards both .right
  have locking : ∀ side, ∃ call, (after side).writer = .locking call := by
    intro side
    cases side with
    | left =>
        rw [kept .left (by decide)]
        exact ⟨call, left⟩
    | right => exact right
  refine ⟨after, first.trans second, fun side => ?_⟩
  obtain ⟨reading, waits⟩ := both side
  obtain ⟨call, writes⟩ := locking side
  have held : (after side).mu = some .reader := (guards side).1.mpr reading
  constructor
  · simpa only [ReaderBlocked, reading] using waits
  · simp [WriterBlocked, writes, held]

/-! ### Both ends are pressed -/

/-- While both ends are pressed, no reading goroutine has a mutex. -/
theorem not_waiting_of_pressed {d : Duplex} (guards : d.Guards) {side : Side}
    (pressed : d.Pressed capacity side) : (d side).mu = some .writer ∧ ¬ d.Waiting side := by
  obtain ⟨held, notReading⟩ :=
    guards.held (by rw [pressed.1]; rfl : (d side).writer.inside = true)
  exact ⟨held, fun waits => notReading waits.1⟩

/-- The bytes that the connection has room for are taken, and then the end is stuck. Nothing
changes at the other end but its inbox. -/
theorem exists_stuck (room : Nat) {d : Duplex} (guards : d.Guards)
    (both : ∀ side, d.Pressed capacity side) (side : Side)
    (left : capacity side.other - (d side.other).inbox.length = room) :
    ∃ after, Reachable (DuplexStep capacity) d after ∧ after.Guards ∧
      (∀ here, after.Pressed capacity here) ∧ after.Stuck capacity side ∧
      (d.Stuck capacity side.other → after.Stuck capacity side.other) := by
  -- By induction on the room that is left.
  induction room generalizing d with
  | zero =>
      obtain ⟨_, bytes, isOpen, _⟩ := both side
      have full : ¬ d.HasRoom capacity side :=
        not_or.mpr ⟨by omega, (not_waiting_of_pressed guards (both side.other)).2⟩
      exact ⟨d, .refl d, guards, both, ⟨bytes, isOpen, full⟩, id⟩
  | succ room ih =>
      obtain ⟨sending, bytes, _⟩ := both side
      obtain ⟨byte, rest, next⟩ := List.exists_cons_of_ne_nil bytes
      have space : (d side.other).inbox.length < capacity side.other := by omega
      have taken : DuplexStep capacity d (.send side) _ :=
        .send side byte rest sending next (.inl space)
      have stillBoth := fun here => (both here).afterSend next space
      have nextGuards := taken.guards guards
      have less : capacity side.other - (d.afterSend side byte rest side.other).inbox.length =
          room := by
        rw [afterSend_other, List.length_append, List.length_singleton]
        omega
      obtain ⟨after, reached, guarded, pressed, stuck, kept⟩ :=
        ih nextGuards stillBoth less
      refine ⟨after, ((Reachable.refl d).tail taken).trans reached, guarded, pressed, stuck,
        fun others => kept ?_⟩
      obtain ⟨otherBytes, otherOpen, full⟩ := others
      have frame := d.afterSend_frame side byte rest
      have notWaits := (not_waiting_of_pressed nextGuards (stillBoth side)).2
      have noRoom := (not_or.mp full).1
      rw [Side.other_other] at otherOpen noRoom
      refine ⟨?_, ?_, not_or.mpr ⟨?_, ?_⟩⟩
      · rwa [afterSend_other]
      · rwa [Side.other_other, (frame side).2.2.2]
      · rwa [Side.other_other, afterSend_side]
      · rwa [Side.other_other]

/-- The next `Read` of a pressed end gets to the mutex and no further. -/
theorem exists_readerLocking {d : Duplex} (guards : d.Guards)
    (both : ∀ side, d.Pressed capacity side) (stuck : ∀ side, d.Stuck capacity side)
    (side : Side) :
    ∃ after, Reachable (DuplexStep capacity) d after ∧ after.Guards ∧
      (∀ here, after.Pressed capacity here) ∧ (∀ here, after.Stuck capacity here) ∧
      (after side).reader = .locking ∧ ∀ here, here ≠ side → after here = d here := by
  obtain ⟨held, notReading⟩ :=
    guards.held (by rw [(both side).1]; rfl : (d side).writer.inside = true)
  cases reads : (d side).reader with
  | reading => exact absurd reads notReading
  | locking => exact ⟨d, .refl d, guards, both, stuck, reads, fun _ _ => rfl⟩
  | idle =>
      have taken : DuplexStep capacity d (.callRead side) _ := .callRead side reads
      have nextGuards := taken.guards guards
      -- A call of `Read` that waits for the mutex changes the reader only.
      have fields (here : Side) :
          (Function.update d side { d side with reader := .locking } here).tunnel =
              (d here).tunnel ∧
            (Function.update d side { d side with reader := .locking } here).writer =
              (d here).writer ∧
            (Function.update d side { d side with reader := .locking } here).inbox =
              (d here).inbox ∧
            (Function.update d side { d side with reader := .locking } here).outbox =
              (d here).outbox := by
        by_cases same : here = side
        · rw [same, Function.update_self]
          exact ⟨rfl, rfl, rfl, rfl⟩
        · rw [Function.update_of_ne same]
          exact ⟨rfl, rfl, rfl, rfl⟩
      have stillBoth : ∀ here, Pressed capacity
          (Function.update d side { d side with reader := .locking }) here := by
        intro here
        unfold Pressed
        simp only [fields]
        exact both here
      refine ⟨_, (Reachable.refl d).tail taken, nextGuards, stillBoth, fun here => ?_, ?_,
        fun here other => Function.update_of_ne other _ _⟩
      · obtain ⟨bytes, isOpen, full⟩ := stuck here
        refine ⟨?_, ?_, not_or.mpr ⟨?_, (not_waiting_of_pressed nextGuards (stillBoth _)).2⟩⟩
        · rwa [(fields here).2.2.2]
        · rwa [(fields here.other).1]
        · rw [(fields here.other).2.2.1]
          exact (not_or.mp full).1
      · rw [Function.update_self]

/-- Once both ends are inside a `Write` that the connection has no room for, the next `Read`
of each end leaves all four goroutines blocked. -/
theorem deadlock_of_pressed {d : Duplex} (guards : d.Guards)
    (both : ∀ side, d.Pressed capacity side) :
    ∃ after, Reachable (DuplexStep capacity) d after ∧ after.Deadlocked capacity := by
  obtain ⟨first, toFirst, guards, both, leftStuck, _⟩ := exists_stuck _ guards both .left rfl
  obtain ⟨second, toSecond, guards, both, rightStuck, kept⟩ :=
    exists_stuck _ guards both .right rfl
  have stuck : ∀ side, second.Stuck capacity side := by
    intro side
    cases side with
    | left => exact kept leftStuck
    | right => exact rightStuck
  obtain ⟨third, toThird, guards, both, stuck, left, _⟩ :=
    exists_readerLocking guards both stuck .left
  obtain ⟨after, toAfter, guards, both, stuck, right, kept⟩ :=
    exists_readerLocking guards both stuck .right
  have locking : ∀ side, (after side).reader = .locking := by
    intro side
    cases side with
    | left =>
        rw [kept .left (by decide)]
        exact left
    | right => exact right
  refine ⟨after, ((toFirst.trans toSecond).trans toThird).trans toAfter, fun side => ⟨?_, ?_⟩⟩
  · simp [ReaderBlocked, locking side, (not_waiting_of_pressed guards (both side)).1]
  · simpa only [WriterBlocked, (both side).1] using stuck side

end Duplex

section Duplex

variable (aead : AEAD) (transport : Side → Transport) (mtu : Side → Int64)

/-- The ends do not deadlock as long as no `Read` starts to wait while the other end is waiting
in one, and no `Write` starts to send a frame that the connection has no room for while the
other end is inside such a `Write`. Any step against this condition leads to a state in which
all four goroutines are blocked with calls of both writing goroutines pending. -/
theorem not_deadlocked_of_unhindered {d : Duplex}
    (reached : Reachable (Guarded (DuplexStep capacity) (Duplex.Unhindered capacity))
      (newDuplex aead transport mtu) d) :
    ¬ d.Deadlocked capacity ∧
      ∀ label after, DuplexStep capacity d label after → ¬ d.Unhindered capacity label →
        ∃ stuck, Reachable (DuplexStep capacity) after stuck ∧ stuck.Deadlocked capacity := by
  obtain ⟨guards, one, onePressed⟩ :
      d.Guards ∧ d.OneWaits ∧ d.OnePressed capacity := by
    refine reached.invariant (fun d => d.Guards ∧ d.OneWaits ∧ d.OnePressed capacity)
      ⟨Duplex.guards_newDuplex aead transport mtu, Duplex.oneWaits_newDuplex aead transport mtu,
        Duplex.onePressed_newDuplex aead transport mtu⟩ ?_
    rintro before label after ⟨guards, one, onePressed⟩ ⟨unhindered, taken⟩
    exact ⟨taken.guards guards, taken.oneWaits unhindered one,
      taken.onePressed unhindered guards onePressed⟩
  constructor
  · intro deadlocked
    rcases deadlocked.waiting_or_pressed guards with waiting | pressed
    · exact one waiting
    · exact onePressed pressed
  · intro label after taken hindered
    cases label with
    | lockRead side =>
        exact Duplex.deadlock_of_waiting (taken.guards guards)
          (taken.waiting_of_hindered hindered)
    | encrypt side p =>
        exact Duplex.deadlock_of_pressed (taken.guards guards)
          (taken.pressed_of_hindered hindered)
    | callRead side => exact absurd trivial hindered
    | returnRead side => exact absurd trivial hindered
    | call side call => exact absurd trivial hindered
    | lockWrite side => exact absurd trivial hindered
    | send side => exact absurd trivial hindered
    | returnWrite side => exact absurd trivial hindered

/-- Two new endpoints over one connection. -/
def sampleDuplex : Duplex :=
  newDuplex nonceTagAEAD (fun _ => .tcp) (fun _ => 1420)

/-- The two ends of `net.Pipe`, which buffers nothing. -/
def pipeCapacity : Side → Nat :=
  fun _ => 0

/-- Over a pipe, the left end is inside a `Write` and the right end holds its mutex to do the
same: nothing is deadlocked, and the next step of the right end leads to a deadlock. -/
theorem crossingWrite_not_deadlocked :
    ∃ d, Reachable (Guarded (DuplexStep pipeCapacity) (Duplex.Unhindered pipeCapacity))
        sampleDuplex d ∧
      ¬ d.Deadlocked pipeCapacity ∧
      ∃ after, DuplexStep pipeCapacity d (.encrypt .right [2]) after ∧
        ∃ stuck, Reachable (DuplexStep pipeCapacity) after stuck ∧
          stuck.Deadlocked pipeCapacity := by
  have first : Reachable (Guarded (DuplexStep pipeCapacity) (Duplex.Unhindered pipeCapacity))
      sampleDuplex _ :=
    (Reachable.refl sampleDuplex).tail ⟨by exact trivial, .call .left (.write [1]) rfl⟩
  have second := first.tail ⟨by exact trivial, .lockWrite .left (.write [1]) rfl rfl⟩
  have third := second.tail ⟨by change _ ∨ _; decide, .encrypt .left [1] rfl⟩
  have fourth := third.tail ⟨by exact trivial, .call .right (.write [2]) rfl⟩
  have fifth := fourth.tail ⟨by exact trivial, .lockWrite .right (.write [2]) rfl rfl⟩
  have settled := not_deadlocked_of_unhindered _ _ _ fifth
  refine ⟨_, fifth, settled.1, _, .encrypt .right [2] rfl, ?_⟩
  exact settled.2 (.encrypt .right [2]) _ (.encrypt .right [2] rfl) (by change ¬ (_ ∨ _); decide)

/-- Both ends wait in `Read` and then call `Write`: every goroutine is blocked, however much the
connection buffers. -/
theorem exists_deadlock (capacity : Side → Nat) :
    ∃ d, Reachable (DuplexStep capacity) sampleDuplex d ∧ d.Deadlocked capacity := by
  have first : Reachable (DuplexStep capacity) sampleDuplex _ :=
    (Reachable.refl sampleDuplex).tail (.callRead .left rfl)
  have second := first.tail (.lockRead .left rfl rfl)
  have third := second.tail (.callRead .right rfl)
  have fourth := third.tail (.lockRead .right rfl rfl)
  have fifth := fourth.tail (.call .left (.write [1]) rfl)
  have sixth := fifth.tail (.call .right (.write [2]) rfl)
  refine ⟨_, sixth, fun side => ⟨?_, ?_⟩⟩
  · cases side with
    | left =>
        change ¬ Duplex.CanReturn _ _
        decide
    | right =>
        change ¬ Duplex.CanReturn _ _
        decide
  · cases side with
    | left => exact Option.some_ne_none Role.reader
    | right => exact Option.some_ne_none Role.reader

/-- The deadlock over a pipe and over a connection that buffers 64 KiB. -/
theorem readsThenWrites_deadlock :
    (∃ d, Reachable (DuplexStep pipeCapacity) sampleDuplex d ∧ d.Deadlocked pipeCapacity) ∧
      ∃ d, Reachable (DuplexStep fun _ => 65536) sampleDuplex d ∧ d.Deadlocked fun _ => 65536 :=
  ⟨exists_deadlock _, exists_deadlock _⟩

end Duplex

end P2pMesh

import P2pMesh.Foundation.LastWrite
import P2pMesh.Foundation.NetAddr
import Mathlib.Data.List.Induction
import Mathlib.Logic.Function.Basic

/-! # Routing packets to peers

`PeerTable` and `Router` of `internal/routing/router.go`. A sink is known by a number, and
`none` is a nil sink; a call of `Forward` carries what the read returned and the error of
the write, if it comes to one, and the writes are recorded with their sinks. `Peer` is an
entry whose fields are the canonical texts of its addresses. A packet is written to the
sink of the peer that was last added under its destination, unless the node of that peer
has been removed since (`P2pMesh.Routing.forward_follows_history`). The counters are those
of the packets read modulo 2^64.
-/

namespace P2pMesh.Routing

open Foundation NetAddr

/-- `PeerEntry`; a nil sink is `none`. -/
structure PeerEntry where
  ipv6 : Bytes
  ipv4 : Bytes
  nodeID : Bytes
  roomID : Bytes
  sink : Option Nat
deriving DecidableEq

/-- `PeerTable`, whose maps are partial functions on texts. -/
structure PeerTable where
  byIPv6 : Bytes → Option PeerEntry
  byIPv4 : Bytes → Option PeerEntry

/-- `NewPeerTable`. -/
def newPeerTable : PeerTable :=
  ⟨fun _ => none, fun _ => none⟩

namespace PeerTable

/-- An index with the entry under a text that is not empty. -/
def put (index : Bytes → Option PeerEntry) (text : Bytes) (e : PeerEntry) :
    Bytes → Option PeerEntry :=
  if text ≠ [] then Function.update index text (some e) else index

/-- `Add`. -/
def add (t : PeerTable) (e : PeerEntry) : PeerTable :=
  ⟨put t.byIPv6 e.ipv6 e, put t.byIPv4 e.ipv4 e⟩

/-- `Get`. -/
def get (t : PeerTable) (ipv6 : Bytes) : Option PeerEntry :=
  t.byIPv6 ipv6

/-- `GetByIPv4`. -/
def getByIPv4 (t : PeerTable) (ipv4 : Bytes) : Option PeerEntry :=
  t.byIPv4 ipv4

/-- `Remove`. -/
def remove (t : PeerTable) (nodeID : Bytes) : PeerTable where
  byIPv6 key := (t.byIPv6 key).filter fun e => e.nodeID ≠ nodeID
  byIPv4 key := (t.byIPv4 key).filter fun e => e.nodeID ≠ nodeID

/-- `Route`, `none` when there is no route. -/
def route (t : PeerTable) (dstAddr : Bytes) : Option PeerEntry :=
  match t.byIPv6 dstAddr with
  | some e => some e
  | none => t.byIPv4 dstAddr

end PeerTable

/-- What a packet has no destination for. -/
inductive DstError where
  | empty
  | tooShort4 (length : Nat)
  | tooShort6 (length : Nat)
  | version (number : UInt8)
deriving DecidableEq, Repr

/-- The texts of the errors. -/
def DstError.text : DstError → String
  | .empty => "empty packet"
  | .tooShort4 length => "IPv4 packet too short: " ++ toString length
  | .tooShort6 length => "IPv6 packet too short: " ++ toString length
  | .version number => "unknown IP version " ++ toString number

/-- A part of a packet that is long enough has its full length. -/
theorem length_slice {pkt : Bytes} {off count : Nat} (long : ¬ pkt.length < off + count) :
    ((pkt.drop off).take count).length = count := by
  rw [List.length_take, List.length_drop]
  omega

/-- The address that `extractDstAddr` reads. -/
def dstAddr (pkt : Bytes) : Except DstError Addr :=
  match pkt with
  | [] => .error .empty
  | first :: rest =>
      if first >>> 4 = 4 then
        if long : (first :: rest).length < 16 + 4 then .error (.tooShort4 (first :: rest).length)
        else .ok (.v4 ⟨((first :: rest).drop 16).take 4, length_slice long⟩)
      else if first >>> 4 = 6 then
        if long : (first :: rest).length < 24 + 16 then .error (.tooShort6 (first :: rest).length)
        else .ok (.v6 ⟨((first :: rest).drop 24).take 16, length_slice long⟩)
      else .error (.version (first >>> 4))

/-- `extractDstAddr`. -/
def extractDstAddr (pkt : Bytes) : Except DstError Bytes :=
  (dstAddr pkt).map Addr.text

/-- `Router`, with its counters. -/
structure Router where
  table : PeerTable
  forwarded : UInt64
  dropped : UInt64
  noRoute : UInt64

/-- `NewRouter`. -/
def newRouter (table : PeerTable) : Router :=
  ⟨table, 0, 0, 0⟩

/-- What a call of `Forward` meets: the bytes and the error that the read returns, and the
error of the write. -/
structure Packet where
  data : Bytes
  readErr : Option String
  writeErr : Option String

/-- `Forward`: the error it returns, the writes it makes, and the router it leaves. -/
def forward (r : Router) (p : Packet) : Option String × List (Nat × Bytes) × Router :=
  match p.readErr with
  | some cause => (some ("tun read: " ++ cause), [], r)
  | none =>
      if p.data.length = 0 then (none, [], r)
      else
        match extractDstAddr p.data with
        | .error _ => (none, [], { r with dropped := r.dropped + 1 })
        | .ok dst =>
            match r.table.route dst with
            | none => (none, [], { r with noRoute := r.noRoute + 1 })
            | some entry =>
                match entry.sink with
                -- A peer without a tunnel counts as no route.
                | none => (none, [], { r with noRoute := r.noRoute + 1 })
                | some sink =>
                    (none, [(sink, p.data)],
                      if p.writeErr = none then { r with forwarded := r.forwarded + 1 }
                      else { r with dropped := r.dropped + 1 })

/-- A peer with its addresses. -/
structure Peer where
  ipv6 : Option { bytes : Bytes // bytes.length = 16 }
  ipv4 : Option { bytes : Bytes // bytes.length = 4 }
  nodeID : Bytes
  roomID : Bytes
  sink : Option Nat

/-- The entry of a peer, with the canonical texts of its addresses. -/
def Peer.entry (peer : Peer) : PeerEntry :=
  ⟨(peer.ipv6.map Addr.v6).elim [] Addr.text, (peer.ipv4.map Addr.v4).elim [] Addr.text,
    peer.nodeID, peer.roomID, peer.sink⟩

/-- The address is one of the peer's. -/
def Peer.Names (peer : Peer) (a : Addr) : Prop :=
  peer.ipv6.map Addr.v6 = some a ∨ peer.ipv4.map Addr.v4 = some a

instance (peer : Peer) (a : Addr) : Decidable (peer.Names a) :=
  inferInstanceAs (Decidable (_ ∨ _))

/-- The calls on a router and its table. -/
inductive Call where
  | add (peer : Peer)
  | remove (nodeID : Bytes)
  | forward (p : Packet)

/-- The router and the writes made so far. -/
structure Running where
  router : Router
  writes : List (Nat × Bytes)

/-- A router without peers that has written nothing. -/
def start : Running :=
  ⟨newRouter newPeerTable, []⟩

/-- The router after a call, with what it has written. -/
def Running.perform (s : Running) : Call → Running
  | .add peer => { s with router.table := s.router.table.add peer.entry }
  | .remove nodeID => { s with router.table := s.router.table.remove nodeID }
  | .forward p =>
      ⟨(Routing.forward s.router p).2.2, s.writes ++ (Routing.forward s.router p).2.1⟩

/-- The router after a sequence of calls. -/
def run (calls : List Call) : Running :=
  calls.foldl Running.perform start

/-- The last `Add` that names the address is of this peer, and its node has not been removed
since. -/
def Holds (calls : List Call) (a : Addr) (peer : Peer) : Prop :=
  ∃ earlier later, calls = earlier ++ .add peer :: later ∧ peer.Names a ∧
    (∀ other, .add other ∈ later → ¬ other.Names a) ∧ .remove peer.nodeID ∉ later

/-- The destination of a packet that is read. -/
def Packet.destination (p : Packet) : Option Addr :=
  if p.readErr = none then (dstAddr p.data).toOption else none

/-- A packet that is read and not empty. -/
def Packet.isRead (p : Packet) : Bool :=
  p.readErr.isNone && !p.data.isEmpty

/-- How many packets that are not empty have been read. -/
def packetsRead (calls : List Call) : Nat :=
  calls.countP fun
    | .forward p => p.isRead
    | _ => false

section History

/-- The peer that holds an address after one more call. -/
def heldAfter (a : Addr) (current : Option Peer) : Call → Option Peer
  | .add peer => if peer.Names a then some peer else current
  | .remove nodeID => current.filter fun peer => peer.nodeID ≠ nodeID
  | .forward _ => current

/-- The peer that holds an address. -/
def holder (calls : List Call) (a : Addr) : Option Peer :=
  calls.foldl (heldAfter a) none

/-- The holder of an address after one more call. -/
theorem holder_append (calls : List Call) (call : Call) (a : Addr) :
    holder (calls ++ [call]) a = heldAfter a (holder calls a) call := by
  rw [holder, List.foldl_append]
  rfl

/-- An address as a cell to which `Add` writes the peer and from which `Remove` drops it. -/
def peerCell (a : Addr) : Cell Call Peer where
  writes
    | .add peer => if peer.Names a then some peer else none
    | _ => none
  drops
    | .remove nodeID, peer => peer.nodeID = nodeID
    | _, _ => false

/-- What a call does to the holder is what it does to the cell of the address. -/
theorem heldAfter_eq_next (a : Addr) (current : Option Peer) (call : Call) :
    heldAfter a current call = (peerCell a).next current call := by
  cases call with
  | add peer =>
      by_cases names : peer.Names a
      · simp [heldAfter, Cell.next, peerCell, names]
      · rw [heldAfter, if_neg names, Cell.next_of_idle (if_neg names) fun _ => rfl]
  | remove nodeID => simp [heldAfter, Cell.next, peerCell]
  | forward p => exact (Cell.next_of_idle rfl (fun _ => rfl) current).symm

/-- An address is written by an `Add` that names it. -/
theorem peerCell_writes {a : Addr} {call : Call} {peer : Peer} :
    (peerCell a).writes call = some peer ↔ call = .add peer ∧ peer.Names a := by
  cases call with
  | add other =>
      simp only [peerCell, Option.ite_none_right_eq_some, Option.some.injEq, Call.add.injEq]
      constructor
      · rintro ⟨names, rfl⟩
        exact ⟨rfl, names⟩
      · rintro ⟨rfl, names⟩
        exact ⟨names, rfl⟩
  | remove nodeID => simp [peerCell]
  | forward p => simp [peerCell]

/-- A peer keeps an address through calls that neither give it to another nor remove the node. -/
theorem peerCell_keeps {a : Addr} {calls : List Call} {peer : Peer} :
    (peerCell a).Keeps peer calls ↔
      (∀ other, .add other ∈ calls → ¬ other.Names a) ∧ .remove peer.nodeID ∉ calls := by
  constructor
  · intro kept
    refine ⟨fun other member names => ?_, fun member => ?_⟩
    · have written := (kept _ member).1
      rw [peerCell_writes.mpr ⟨rfl, names⟩] at written
      cases written
    · simpa [peerCell] using (kept _ member).2
  · rintro ⟨unnamed, stays⟩ call member
    cases call with
    | add other => simp [peerCell, unnamed other member]
    | remove nodeID =>
        have other : peer.nodeID ≠ nodeID := by
          rintro rfl
          exact stays member
        simp [peerCell, other]
    | forward p => simp [peerCell]

/-- A peer holds an address exactly if it was the last to be written to its cell. -/
theorem holds_iff_lastWritten {calls : List Call} {a : Addr} {peer : Peer} :
    Holds calls a peer ↔ (peerCell a).LastWritten calls peer := by
  constructor
  · rintro ⟨earlier, later, split, names, unnamed, stays⟩
    exact ⟨earlier, .add peer, later, split, peerCell_writes.mpr ⟨rfl, names⟩,
      peerCell_keeps.mpr ⟨unnamed, stays⟩⟩
  · rintro ⟨earlier, call, later, split, written, kept⟩
    obtain ⟨rfl, names⟩ := peerCell_writes.mp written
    exact ⟨earlier, later, split, names, peerCell_keeps.mp kept⟩

/-- The holder that is computed call by call is the peer that holds the address in the history. -/
theorem holder_eq_some_iff (calls : List Call) (a : Addr) (peer : Peer) :
    holder calls a = some peer ↔ Holds calls a peer := by
  have same : heldAfter a = (peerCell a).next := by
    funext current call
    exact heldAfter_eq_next a current call
  rw [holder, same, holds_iff_lastWritten]
  exact Cell.after_eq_some_iff

end History

section Tables

/-- The table finds the peer that holds an address, under the text of the address. -/
structure Agrees (t : PeerTable) (held : Addr → Option Peer) : Prop where
  v6 : ∀ a, t.byIPv6 (Addr.v6 a).text = (held (.v6 a)).map Peer.entry
  v4 : ∀ a, t.byIPv4 (Addr.v4 a).text = (held (.v4 a)).map Peer.entry
  noV4 : ∀ a, t.byIPv6 (Addr.v4 a).text = none
  noV6 : ∀ a, t.byIPv4 (Addr.v6 a).text = none

/-- The route of an address is the entry of its holder. -/
theorem Agrees.route {t : PeerTable} {held : Addr → Option Peer} (agrees : Agrees t held)
    (a : Addr) : t.route a.text = (held a).map Peer.entry := by
  unfold PeerTable.route
  cases a with
  | v4 a => rw [agrees.noV4, agrees.v4]
  | v6 a =>
      rw [agrees.v6, agrees.noV6]
      cases held (.v6 a) <;> rfl

/-- Under the text of an address an index finds what was put there last. -/
theorem put_text (index : Bytes → Option PeerEntry) (own : Option Addr) (e : PeerEntry) (a : Addr) :
    PeerTable.put index (own.elim [] Addr.text) e a.text =
      if own = some a then some e else index a.text := by
  cases own with
  | none => rfl
  | some own =>
      rw [PeerTable.put, Option.elim_some, if_pos (text_ne_nil own), Function.update_apply]
      simp only [text_injective.eq_iff, Option.some.injEq, eq_comm]

theorem map_v6_ne_v4 (own : Option { bytes : Bytes // bytes.length = 16 })
    (a : { bytes : Bytes // bytes.length = 4 }) : own.map Addr.v6 ≠ some (.v4 a) := by
  cases own <;> nofun

theorem map_v4_ne_v6 (own : Option { bytes : Bytes // bytes.length = 4 })
    (a : { bytes : Bytes // bytes.length = 16 }) : own.map Addr.v4 ≠ some (.v6 a) := by
  cases own <;> nofun

/-- `Add` gives the named addresses to the peer and leaves all others. -/
theorem Agrees.add {t : PeerTable} {held : Addr → Option Peer} (agrees : Agrees t held)
    (peer : Peer) : Agrees (t.add peer.entry) fun a => heldAfter a (held a) (.add peer) where
  v6 a := by
    have names : peer.Names (.v6 a) ↔ peer.ipv6.map Addr.v6 = some (.v6 a) :=
      or_iff_left (map_v4_ne_v6 _ a)
    simp only [PeerTable.add, Peer.entry, put_text, agrees.v6, heldAfter, names]
    split <;> rfl
  v4 a := by
    have names : peer.Names (.v4 a) ↔ peer.ipv4.map Addr.v4 = some (.v4 a) :=
      or_iff_right (map_v6_ne_v4 _ a)
    simp only [PeerTable.add, Peer.entry, put_text, agrees.v4, heldAfter, names]
    split <;> rfl
  noV4 a := by
    simp only [PeerTable.add, Peer.entry, put_text, map_v6_ne_v4, ↓reduceIte, agrees.noV4]
  noV6 a := by
    simp only [PeerTable.add, Peer.entry, put_text, map_v4_ne_v6, ↓reduceIte, agrees.noV6]

/-- `Remove` takes the addresses of the node away and leaves all others. -/
theorem Agrees.remove {t : PeerTable} {held : Addr → Option Peer} (agrees : Agrees t held)
    (nodeID : Bytes) : Agrees (t.remove nodeID) fun a => heldAfter a (held a) (.remove nodeID) := by
  have kept (found : Option Peer) : (found.map Peer.entry).filter (fun e => e.nodeID ≠ nodeID) =
      (found.filter fun peer => peer.nodeID ≠ nodeID).map Peer.entry := by
    cases found with
    | none => rfl
    | some peer => by_cases same : peer.nodeID = nodeID <;> simp [Option.filter, Peer.entry, same]
  refine ⟨fun a => ?_, fun a => ?_, fun a => ?_, fun a => ?_⟩
  · simp only [PeerTable.remove, agrees.v6, heldAfter, kept]
  · simp only [PeerTable.remove, agrees.v4, heldAfter, kept]
  · simp only [PeerTable.remove, agrees.noV4, Option.filter_none]
  · simp only [PeerTable.remove, agrees.noV6, Option.filter_none]

/-- The state after one more call. -/
theorem run_append (calls : List Call) (call : Call) :
    run (calls ++ [call]) = (run calls).perform call := by
  rw [run, List.foldl_append]
  rfl

/-- The outcome of `Forward`, by what becomes of the packet. -/
inductive Fate (r : Router) (p : Packet) : List (Nat × Bytes) × Router → Prop where
  | unread : p.isRead = false → Fate r p ([], r)
  | malformed : p.isRead = true → p.destination = none →
      Fate r p ([], { r with dropped := r.dropped + 1 })
  | unrouted (a : Addr) : p.isRead = true → p.destination = some a →
      (r.table.route a.text).bind PeerEntry.sink = none →
      Fate r p ([], { r with noRoute := r.noRoute + 1 })
  | written (a : Addr) (sink : Nat) : p.isRead = true → p.destination = some a →
      (r.table.route a.text).bind PeerEntry.sink = some sink → p.writeErr = none →
      Fate r p ([(sink, p.data)], { r with forwarded := r.forwarded + 1 })
  | failed (a : Addr) (sink : Nat) : p.isRead = true → p.destination = some a →
      (r.table.route a.text).bind PeerEntry.sink = some sink → p.writeErr ≠ none →
      Fate r p ([(sink, p.data)], { r with dropped := r.dropped + 1 })

/-- `Forward` has one of the outcomes of `Fate`. -/
theorem forward_fate (r : Router) (p : Packet) : Fate r p (forward r p).2 := by
  unfold forward
  cases failure : p.readErr with
  | some cause => exact .unread (by simp [Packet.isRead, failure])
  | none =>
      by_cases empty : p.data.length = 0
      · rw [if_pos empty]
        exact .unread (by simp [Packet.isRead, failure, List.length_eq_zero_iff.mp empty])
      rw [if_neg empty]
      have read : p.isRead = true := by
        simpa [Packet.isRead, failure] using fun nothing => empty (by rw [nothing]; rfl)
      have destination : p.destination = (dstAddr p.data).toOption := by
        rw [Packet.destination, if_pos failure]
      rw [extractDstAddr]
      cases found : dstAddr p.data with
      | error err => exact .malformed read (by rw [destination, found]; rfl)
      | ok a =>
          have goes : p.destination = some a := by rw [destination, found]; rfl
          simp only [Except.map]
          cases entry : r.table.route a.text with
          | none => exact .unrouted a read goes (by rw [entry]; rfl)
          | some e =>
              cases sink : e.sink with
              | none =>
                  simp only [sink]
                  exact .unrouted a read goes (by rw [entry]; exact sink)
              | some k =>
                  have reached : (r.table.route a.text).bind PeerEntry.sink = some k := by
                    rw [entry]
                    exact sink
                  by_cases clean : p.writeErr = none
                  · simp only [sink, clean, ↓reduceIte]
                    exact .written a k read goes reached clean
                  · simp only [sink, clean, ↓reduceIte]
                    exact .failed a k read goes reached clean

end Tables

section Runs

/-- The sum of the counters. -/
def Router.total (r : Router) : UInt64 :=
  r.forwarded + r.dropped + r.noRoute

/-- `Forward` leaves the table and counts a packet that is read once. -/
theorem forward_counts (r : Router) (p : Packet) :
    (forward r p).2.2.table = r.table ∧
      (forward r p).2.2.total = r.total + if p.isRead then 1 else 0 := by
  have fate := forward_fate r p
  generalize (forward r p).2 = outcome at fate
  unfold Router.total
  cases fate with
  | unread idle => simp [idle]
  | malformed read | unrouted _ read | written _ _ read | failed _ _ read =>
      simp only [read, ↓reduceIte, true_and]
      ac_rfl

/-- A packet that was not read has no destination. -/
theorem destination_of_unread {p : Packet} (idle : p.isRead = false) : p.destination = none := by
  unfold Packet.destination
  split
  · next clean =>
      have nothing : p.data = [] := by simpa [Packet.isRead, clean] using idle
      rw [nothing]
      rfl
  · rfl

/-- What `Forward` writes: the packet, to the sink that its destination leads to. -/
theorem forward_writes (r : Router) (p : Packet) :
    (forward r p).2.1 =
      ((p.destination.bind fun a => (r.table.route a.text).bind PeerEntry.sink).map
        fun sink => (sink, p.data)).toList := by
  have fate := forward_fate r p
  generalize (forward r p).2 = outcome at fate
  cases fate with
  | unread idle =>
      rw [destination_of_unread idle]
      rfl
  | malformed _ nowhere =>
      rw [nowhere]
      rfl
  | unrouted a _ goes missing => simp [goes, missing]
  | written a sink _ goes found | failed a sink _ goes found => simp [goes, found]

/-- After every run of calls the table finds the holders of the addresses. -/
theorem agrees_run (calls : List Call) : Agrees (run calls).router.table (holder calls) := by
  induction calls using List.reverseRecOn with
  | nil => exact ⟨fun _ => rfl, fun _ => rfl, fun _ => rfl, fun _ => rfl⟩
  | append_singleton calls call ih =>
      rw [run_append, funext (holder_append calls call)]
      cases call with
      | add peer => exact ih.add peer
      | remove nodeID => exact ih.remove nodeID
      | forward p =>
          change Agrees (forward (run calls).router p).2.2.table _
          rw [(forward_counts _ p).1]
          exact ih

/-- The packets of one more call are added to the count. -/
theorem packetsRead_append (calls : List Call) (call : Call) :
    packetsRead (calls ++ [call]) = packetsRead calls + packetsRead [call] :=
  List.countP_append

/-- The three counters together count the packets that were read. -/
theorem total_run (calls : List Call) :
    (run calls).router.total = UInt64.ofNat (packetsRead calls) := by
  induction calls using List.reverseRecOn with
  | nil => rfl
  | append_singleton calls call ih =>
      rw [run_append, packetsRead_append, UInt64.ofNat_add, ← ih]
      cases call with
      | add peer => exact (UInt64.add_zero _).symm
      | remove nodeID => exact (UInt64.add_zero _).symm
      | forward p =>
          change (forward (run calls).router p).2.2.total = _
          rw [(forward_counts _ p).2]
          cases read : p.isRead <;> simp [packetsRead, read]

/-- The sink to which a packet is written is that of the peer that holds its destination. -/
theorem writes_run_forward (calls : List Call) (p : Packet) :
    (run (calls ++ [.forward p])).writes = (run calls).writes ++
      ((p.destination.bind fun a => (holder calls a).bind Peer.sink).map
        fun sink => (sink, p.data)).toList := by
  rw [run_append]
  change (run calls).writes ++ (forward (run calls).router p).2.1 = _
  rw [forward_writes]
  simp only [(agrees_run calls).route, Option.bind_map]
  rfl

end Runs

/-- A packet is written once and unchanged to the sink of the peer that was last added under
its destination, if that is not nil and the node of the peer has not been removed since, and
nowhere otherwise. The counters together are the number of packets read that are not empty,
modulo 2^64. -/
theorem forward_follows_history (calls : List Call) :
    (∀ p a peer sink, p.destination = some a → Holds calls a peer → peer.sink = some sink →
      (run (calls ++ [.forward p])).writes = (run calls).writes ++ [(sink, p.data)]) ∧
    (∀ p, (¬ ∃ a peer sink, p.destination = some a ∧ Holds calls a peer ∧ peer.sink = some sink) →
      (run (calls ++ [.forward p])).writes = (run calls).writes) ∧
    (∀ call, (∀ p, call ≠ .forward p) →
      (run (calls ++ [call])).writes = (run calls).writes) ∧
    (run calls).router.forwarded + (run calls).router.dropped + (run calls).router.noRoute =
      UInt64.ofNat (packetsRead calls) := by
  refine ⟨?_, ?_, ?_, total_run calls⟩
  · intro p a peer sink goes holds reaches
    rw [← holder_eq_some_iff] at holds
    rw [writes_run_forward, goes, Option.bind_some, holds, Option.bind_some, reaches]
    rfl
  · intro p nowhere
    rw [writes_run_forward]
    cases goes : p.destination with
    | none => simp
    | some a =>
        cases holds : holder calls a with
        | none => simp [holds]
        | some peer =>
            cases reaches : peer.sink with
            | none => simp [holds, reaches]
            | some sink =>
                exact absurd ⟨a, peer, sink, goes, (holder_eq_some_iff _ _ _).mp holds, reaches⟩
                  nowhere
  · intro call quiet
    rw [run_append]
    cases call with
    | add peer => rfl
    | remove nodeID => rfl
    | forward p => exact absurd rfl (quiet p)

/-- A node at an IPv4 address of a room, with its sink. -/
def samplePeer (nodeID : Bytes) (sink : Nat) : Peer :=
  ⟨none, some ⟨[240, 0, 0, 42], rfl⟩, nodeID, ascii "room", some sink⟩

/-- An IPv4 packet to that address. -/
def samplePacket : Packet :=
  ⟨[0x45, 0, 0, 20, 0, 0, 0, 0, 64, 17, 0, 0, 240, 0, 0, 1, 240, 0, 0, 42], none, none⟩

/-- A second node takes over the address and the first one is removed: the packet goes to the
sink of the second, once. -/
theorem samplePacket_written :
    (run [.add (samplePeer (ascii "peer-1") 7), .add (samplePeer (ascii "peer-2") 9),
      .remove (ascii "peer-1"), .forward samplePacket]).writes = [(9, samplePacket.data)] :=
  (forward_follows_history [.add (samplePeer (ascii "peer-1") 7),
      .add (samplePeer (ascii "peer-2") 9), .remove (ascii "peer-1")]).1 samplePacket
    (.v4 ⟨[240, 0, 0, 42], rfl⟩) (samplePeer (ascii "peer-2") 9) 9 (by decide)
    ⟨[.add (samplePeer (ascii "peer-1") 7)], [.remove (ascii "peer-1")], rfl, by decide,
      by simp, by simp [samplePeer, ascii]⟩ rfl

/-- After 2^64 packets the counters have come back to zero. -/
theorem counters_wrap :
    ∃ calls : List Call,
      ((run calls).router.forwarded + (run calls).router.dropped +
        (run calls).router.noRoute).toNat ≠ packetsRead calls := by
  refine ⟨List.replicate (2 ^ 64) (.forward ⟨[0], none, none⟩), ?_⟩
  have read : packetsRead (List.replicate (2 ^ 64) (.forward ⟨[0], none, none⟩)) = 2 ^ 64 := by
    rw [packetsRead, List.countP_replicate]
    rfl
  rw [read]
  exact (UInt64.toNat_lt _).ne

end P2pMesh.Routing

import P2pMesh.Foundation.Transition
import Mathlib.Algebra.BigOperators.Group.Finset.Basic
import Mathlib.Algebra.Order.BigOperators.Group.Finset
import Mathlib.Data.Finset.Image
import Mathlib.Logic.Function.Basic

/-! # The goroutines of the bootstrap server

`acceptLoop`, the `handleConn` of every connection and `Stop` of
`internal/bootstrap/server.go` run side by side. A goroutine is the place it has reached,
and one event moves one goroutine from a place to the next, so that a run is an
interleaving of them. The map `clients` is keyed by the remote address, and the lock is
held from the moment `Stop` takes it until the map is empty.

If no two connections that are open have one remote address, then until `Stop` takes the lock
the map has exactly the connections whose handlers have entered them and not deleted them yet
(`P2pMesh.Bootstrap.clientCount_eq`), and `Stop` closes every connection that a handler waits for
(`P2pMesh.Bootstrap.stop_closes`). Nothing in the source ensures this condition. Without it, if
the context is cancelled before `Stop` is called, as the server of `pkg/server` does, nothing is
left behind once `Stop` has returned and the reads that it did not end have run into their
deadline (`P2pMesh.Bootstrap.stop_drains`).
-/

namespace P2pMesh.Bootstrap

open Foundation

/-- The places of `handleConn`. -/
inductive Place where
  /-- Started, and not yet in the map. -/
  | accepted
  /-- At the head of the message loop. -/
  | looping
  /-- In `Decode`. -/
  | reading
  /-- In `handleMessage`. -/
  | handling
  /-- Out of the loop, before the deferred deletion. -/
  | leaving
  /-- Before the deferred `Close`. -/
  | deleted
  | returned
deriving DecidableEq

/-- Between `s.clients[remoteAddr] = cc` and its deletion. -/
def Place.isRegistered : Place → Bool
  | .looping | .reading | .handling | .leaving => true
  | .accepted | .deleted | .returned => false

/-- Waiting for the connection, to read or to write. -/
def Place.isWaiting : Place → Bool
  | .reading | .handling => true
  | _ => false

/-- The steps from a place to the return, when the context is cancelled. -/
def Place.work : Place → Nat
  | .returned => 0
  | .deleted => 1
  | .leaving => 2
  | .looping => 3
  | .accepted | .handling => 4
  | .reading => 5

/-- A goroutine that runs `handleConn`, and its connection. -/
structure Handler (Addr : Type*) where
  remoteAddr : Addr
  place : Place
  closed : Bool

/-- The places of `acceptLoop`. -/
inductive Acceptor where
  | looping
  | accepting
  | returned
deriving DecidableEq

/-- The steps from a place to the return, when the context is cancelled. -/
def Acceptor.work : Acceptor → Nat
  | .returned => 0
  | .looping | .accepting => 1

/-- The places of `Stop`; `closing left` has the connections that are still to be closed. -/
inductive Stopping where
  | idle
  | closing (left : Finset Nat)
  | cleared
  | returned
deriving DecidableEq

/-- The server and its goroutines; handlers are numbered as they are started. -/
structure Goroutines (Addr : Type*) where
  cancelled : Bool
  acceptor : Acceptor
  stopping : Stopping
  started : Nat
  handlers : Nat → Handler Addr
  clients : Finset (Addr × Nat)

/-- The steps of the goroutines and of the clients. -/
inductive Move (Addr : Type*) where
  | cancel
  /-- The check of the context at the head of `acceptLoop`. -/
  | accepting
  | accept (remoteAddr : Addr)
  | acceptError
  | register (i : Nat)
  /-- The check of the context at the head of the message loop. -/
  | proceed (i : Nat)
  /-- A message of the client has arrived. -/
  | message (i : Nat)
  /-- The client has closed the connection, sent a bad frame or kept silent for too long. -/
  | readError (i : Nat)
  /-- `Decode` returns on a connection that is closed: a message that was buffered, or
  an error. -/
  | readClosed (i : Nat) (buffered : Bool)
  | handled (i : Nat) (ok : Bool)
  | delete (i : Nat)
  | close (i : Nat)
  /-- `Stop` takes the lock. -/
  | stop
  | stopClient (i : Nat)
  /-- `Stop` replaces the map and releases the lock. -/
  | clear
  | stopListener

/-- Only `Stop` holds the lock for more than one step. -/
def Stopping.isLocked : Stopping → Bool
  | .closing _ => true
  | _ => false

namespace Goroutines

variable {Addr : Type*} [DecidableEq Addr]

/-- The map of connections after `delete(s.clients, remoteAddr)`. -/
def deleteKey (clients : Finset (Addr × Nat)) (remoteAddr : Addr) : Finset (Addr × Nat) :=
  clients.filter (·.1 ≠ remoteAddr)

/-- The map of connections after `s.clients[remoteAddr] = cc` of handler `i`. -/
def setKey (clients : Finset (Addr × Nat)) (remoteAddr : Addr) (i : Nat) : Finset (Addr × Nat) :=
  insert (remoteAddr, i) (deleteKey clients remoteAddr)

/-- Handler `i` and the map after a step of handler `i`. -/
def update (s : Goroutines Addr) (i : Nat) (handler : Handler Addr)
    (clients : Finset (Addr × Nat)) : Goroutines Addr :=
  { s with handlers := Function.update s.handlers i handler, clients := clients }

/-- Handler `i` goes to a place. -/
def goto (s : Goroutines Addr) (i : Nat) (place : Place) : Goroutines Addr :=
  s.update i { s.handlers i with place := place } s.clients

/-- Handler `i` is at a place. -/
def At (s : Goroutines Addr) (i : Nat) (place : Place) : Prop :=
  i < s.started ∧ (s.handlers i).place = place

instance (s : Goroutines Addr) (i : Nat) (place : Place) : Decidable (s.At i place) :=
  inferInstanceAs (Decidable (_ ∧ _))

/-- A connection is accepted, and its handler started. -/
def spawn (s : Goroutines Addr) (remoteAddr : Addr) : Goroutines Addr :=
  { s with
    acceptor := .looping
    started := s.started + 1
    handlers := Function.update s.handlers s.started ⟨remoteAddr, .accepted, false⟩ }

/-- One event, where it can happen. -/
def next (s : Goroutines Addr) : Move Addr → Option (Goroutines Addr)
  | .cancel => if s.cancelled then none else some { s with cancelled := true }
  | .accepting =>
      if s.acceptor = .looping then
        some { s with acceptor := if s.cancelled then .returned else .accepting }
      else none
  | .accept remoteAddr =>
      if s.acceptor = .accepting ∧ s.stopping ≠ .returned then
        some (s.spawn remoteAddr)
      else none
  | .acceptError =>
      if s.acceptor = .accepting then
        some { s with acceptor := if s.cancelled then .returned else .looping }
      else none
  | .register i =>
      if s.At i .accepted ∧ s.stopping.isLocked = false then
        some (s.update i { s.handlers i with place := .looping }
          (setKey s.clients (s.handlers i).remoteAddr i))
      else none
  | .proceed i =>
      if s.At i .looping then some (s.goto i (if s.cancelled then .leaving else .reading))
      else none
  | .message i =>
      if s.At i .reading ∧ (s.handlers i).closed = false then some (s.goto i .handling) else none
  | .readError i =>
      if s.At i .reading ∧ (s.handlers i).closed = false then some (s.goto i .leaving) else none
  | .readClosed i buffered =>
      if s.At i .reading ∧ (s.handlers i).closed = true then
        some (s.goto i (if buffered then .handling else .leaving))
      else none
  | .handled i ok =>
      if s.At i .handling then some (s.goto i (if ok then .looping else .leaving)) else none
  | .delete i =>
      if s.At i .leaving ∧ s.stopping.isLocked = false then
        some (s.update i { s.handlers i with place := .deleted }
          (deleteKey s.clients (s.handlers i).remoteAddr))
      else none
  | .close i =>
      if s.At i .deleted then
        some (s.update i { s.handlers i with place := .returned, closed := true } s.clients)
      else none
  | .stop =>
      if s.stopping = .idle then some { s with stopping := .closing (s.clients.image Prod.snd) }
      else none
  | .stopClient i =>
      match s.stopping with
      | .closing left =>
          if i ∈ left then
            some { s.update i { s.handlers i with closed := true } s.clients with
              stopping := .closing (left.erase i) }
          else none
      | _ => none
  | .clear =>
      if s.stopping = .closing ∅ then some { s with stopping := .cleared, clients := ∅ } else none
  | .stopListener =>
      if s.stopping = .cleared then some { s with stopping := .returned } else none

/-- `ClientCount`. -/
def clientCount (s : Goroutines Addr) : Nat :=
  s.clients.card

/-- After `Start`. -/
def start (handlers : Nat → Handler Addr) : Goroutines Addr where
  cancelled := false
  acceptor := .looping
  stopping := .idle
  started := 0
  handlers := handlers
  clients := ∅

/-- The steps. -/
def Step (before : Goroutines Addr) (move : Move Addr) (after : Goroutines Addr) : Prop :=
  before.next move = some after

/-- No new connection has the remote address of one that is open. -/
def Apart (s : Goroutines Addr) : Move Addr → Prop
  | .accept remoteAddr =>
      ∀ i < s.started, (s.handlers i).remoteAddr = remoteAddr → (s.handlers i).closed = true
  | _ => True

/-- The handlers that have entered their connections into the map and not deleted them yet: those
in their message loop, and those just out of it. -/
def registered (s : Goroutines Addr) : Finset Nat :=
  (Finset.range s.started).filter fun i => (s.handlers i).place.isRegistered

variable {s after : Goroutines Addr}

section
omit [DecidableEq Addr]

theorem handlers_update_same (s : Goroutines Addr) (i : Nat) (handler : Handler Addr)
    (clients : Finset (Addr × Nat)) : (s.update i handler clients).handlers i = handler :=
  Function.update_self ..

theorem handlers_update_other (s : Goroutines Addr) {i j : Nat} (handler : Handler Addr)
    (clients : Finset (Addr × Nat)) (different : j ≠ i) :
    (s.update i handler clients).handlers j = s.handlers j :=
  Function.update_of_ne different ..

theorem handlers_spawn_new (s : Goroutines Addr) (remoteAddr : Addr) :
    (s.spawn remoteAddr).handlers s.started = ⟨remoteAddr, .accepted, false⟩ :=
  Function.update_self ..

theorem handlers_spawn_old (s : Goroutines Addr) (remoteAddr : Addr) {i : Nat}
    (old : i < s.started) : (s.spawn remoteAddr).handlers i = s.handlers i :=
  Function.update_of_ne (Nat.ne_of_lt old) ..

/-- What holds whatever the order of the events: an entry of the map is for a handler that has
not deleted it yet, a handler that has returned has closed its connection, and until `Stop` no
connection is closed by another. -/
structure Sound (s : Goroutines Addr) : Prop where
  entry : ∀ remoteAddr i, (remoteAddr, i) ∈ s.clients →
    i < s.started ∧ (s.handlers i).remoteAddr = remoteAddr ∧ (s.handlers i).place.isRegistered
  done : ∀ i < s.started, (s.handlers i).place = .returned → (s.handlers i).closed = true
  own : s.stopping = .idle → ∀ i < s.started, (s.handlers i).closed = true →
    (s.handlers i).place = .returned

/-- What holds besides if no two connections that are open have one address: until `Stop` the map
has every handler that has entered its connection. -/
structure Listed (s : Goroutines Addr) : Prop where
  sound : s.Sound
  apart : ∀ i < s.started, ∀ j < s.started,
    (s.handlers i).remoteAddr = (s.handlers j).remoteAddr →
      (s.handlers i).closed = false → (s.handlers j).closed = false → i = j
  present : s.stopping = .idle → ∀ i < s.started, (s.handlers i).place.isRegistered →
    ((s.handlers i).remoteAddr, i) ∈ s.clients

/-- A step that leaves the handlers, and leaves or empties the map. -/
theorem Sound.of_handlers (sound : s.Sound) (started : after.started = s.started)
    (handlers : after.handlers = s.handlers) (clients : after.clients ⊆ s.clients)
    (idle : after.stopping = .idle → s.stopping = .idle) : after.Sound where
  entry := by
    intro key j present
    rw [started, handlers]
    exact sound.entry key j (clients present)
  done := by
    rw [started, handlers]
    exact sound.done
  own := by
    intro now
    rw [started, handlers]
    exact sound.own (idle now)

/-- A step that leaves the handlers and the map, or empties the map after `Stop` began. -/
theorem Listed.of_handlers (listed : s.Listed) (sound : after.Sound)
    (started : after.started = s.started) (handlers : after.handlers = s.handlers)
    (idle : after.stopping = .idle → s.stopping = .idle ∧ after.clients = s.clients) :
    after.Listed where
  sound := sound
  apart := by
    rw [started, handlers]
    exact listed.apart
  present := by
    intro now
    rw [started, handlers, (idle now).2]
    exact listed.present (idle now).1

/-- A step of handler `i`, or of `Stop` on its connection. -/
theorem Sound.update (sound : s.Sound) {i : Nat}
    {handler : Handler Addr} {clients : Finset (Addr × Nat)}
    (done : handler.place = .returned → handler.closed = true)
    (own : s.stopping = .idle → handler.closed = true → handler.place = .returned)
    (mine : ∀ key, (key, i) ∈ clients →
      i < s.started ∧ key = handler.remoteAddr ∧ handler.place.isRegistered)
    (others : ∀ key j, j ≠ i → (key, j) ∈ clients → (key, j) ∈ s.clients) :
    (s.update i handler clients).Sound := by
  constructor
  case entry =>
      intro key j listed
      by_cases same : j = i
      · subst same
        obtain ⟨iStarted, equal, registered⟩ := mine key listed
        rw [handlers_update_same]
        exact ⟨iStarted, equal.symm, registered⟩
      · rw [handlers_update_other s handler clients same]
        exact sound.entry key j (others key j same listed)
  case done =>
      intro j jStarted
      by_cases same : j = i
      · rw [same, handlers_update_same]
        exact done
      · rw [handlers_update_other s handler clients same]
        exact sound.done j jStarted
  case own =>
      intro now j jStarted
      by_cases same : j = i
      · rw [same, handlers_update_same]
        exact own now
      · rw [handlers_update_other s handler clients same]
        exact sound.own now j jStarted

/-- A step of handler `i` keeps the entries of the others until `Stop`. -/
theorem Listed.update (listed : s.Listed) {i : Nat}
    {handler : Handler Addr} {clients : Finset (Addr × Nat)}
    (sound : (s.update i handler clients).Sound)
    (remoteAddr : handler.remoteAddr = (s.handlers i).remoteAddr)
    (closed : (s.handlers i).closed = true → handler.closed = true)
    (present : s.stopping = .idle → handler.place.isRegistered → (handler.remoteAddr, i) ∈ clients)
    (kept : s.stopping = .idle → ∀ key j, j ≠ i → (key, j) ∈ s.clients → (key, j) ∈ clients) :
    (s.update i handler clients).Listed := by
  refine ⟨sound, ?apart, ?present⟩
  case apart =>
      have sameAddr : ∀ j, ((s.update i handler clients).handlers j).remoteAddr =
          (s.handlers j).remoteAddr := by
        intro j
        by_cases same : j = i
        · rw [same, handlers_update_same, remoteAddr]
        · rw [handlers_update_other s handler clients same]
      have isOpen : ∀ j, ((s.update i handler clients).handlers j).closed = false →
          (s.handlers j).closed = false := by
        intro j
        by_cases same : j = i
        · rw [same, handlers_update_same]
          intro stays
          by_contra shut
          rw [closed (Bool.eq_true_of_not_eq_false shut)] at stays
          cases stays
        · rw [handlers_update_other s handler clients same]
          exact id
      intro j jStarted k kStarted same jOpen kOpen
      rw [sameAddr, sameAddr] at same
      exact listed.apart j jStarted k kStarted same (isOpen j jOpen) (isOpen k kOpen)
  case present =>
      intro now j jStarted
      by_cases same : j = i
      · rw [same, handlers_update_same]
        exact present now
      · rw [handlers_update_other s handler clients same]
        exact fun registered => kept now _ j same (listed.present now j jStarted registered)

/-- Until `Stop`, the connection of a handler is open until the handler has returned. -/
theorem Sound.isOpen (sound : s.Sound) (now : s.stopping = .idle) {i : Nat} {place : Place}
    (here : s.At i place) (unreturned : place ≠ .returned) : (s.handlers i).closed = false := by
  obtain ⟨iStarted, rfl⟩ := here
  by_contra shut
  exact unreturned (sound.own now i iStarted (Bool.eq_true_of_not_eq_false shut))

/-- A handler moves within its message loop, or out of it. -/
theorem Sound.goto (sound : s.Sound) {i : Nat} {source place : Place} (here : s.At i source)
    (before : source.isRegistered = true) (registered : place.isRegistered = true) :
    (s.goto i place).Sound := by
  refine sound.update ?done ?own ?mine (fun _ _ _ => id)
  case done =>
      rintro rfl
      cases registered
  case own =>
      intro now shut
      have unreturned : source ≠ .returned := by
        rintro rfl
        cases before
      rw [sound.isOpen now here unreturned] at shut
      cases shut
  case mine => exact fun key listed => ⟨here.1, (sound.entry key i listed).2.1.symm, registered⟩

/-- A move of a handler inside its loop keeps the map complete. -/
theorem Listed.goto (listed : s.Listed) {i : Nat} {source place : Place} (here : s.At i source)
    (before : source.isRegistered = true) (registered : place.isRegistered = true) :
    (s.goto i place).Listed := by
  refine listed.update (listed.sound.goto here before registered) rfl id ?_ (fun _ _ _ _ => id)
  obtain ⟨iStarted, rfl⟩ := here
  exact fun now _ => listed.present now i iStarted before

/-- A new connection is not in the map yet. -/
theorem Sound.spawn (sound : s.Sound) (remoteAddr : Addr) : (s.spawn remoteAddr).Sound := by
  constructor
  case entry =>
      intro key i present
      obtain ⟨started, same, registered⟩ := sound.entry key i present
      rw [handlers_spawn_old s remoteAddr started]
      exact ⟨Nat.lt_succ_of_lt started, same, registered⟩
  case done =>
      intro i started
      rcases Nat.lt_succ_iff_lt_or_eq.mp started with old | rfl
      · rw [handlers_spawn_old s remoteAddr old]
        exact sound.done i old
      · rw [handlers_spawn_new]
        exact nofun
  case own =>
      intro now i started
      rcases Nat.lt_succ_iff_lt_or_eq.mp started with old | rfl
      · rw [handlers_spawn_old s remoteAddr old]
        exact sound.own now i old
      · rw [handlers_spawn_new]
        exact nofun

/-- A connection from an address of its own keeps the map complete. -/
theorem Listed.spawn (listed : s.Listed) {remoteAddr : Addr}
    (apart : s.Apart (.accept remoteAddr)) : (s.spawn remoteAddr).Listed := by
  refine ⟨listed.sound.spawn remoteAddr, ?apart, ?present⟩
  case apart =>
      intro i iStarted j jStarted
      rcases Nat.lt_succ_iff_lt_or_eq.mp iStarted with iOld | rfl <;>
        rcases Nat.lt_succ_iff_lt_or_eq.mp jStarted with jOld | rfl
      · rw [handlers_spawn_old s remoteAddr iOld, handlers_spawn_old s remoteAddr jOld]
        exact listed.apart i iOld j jOld
      · rw [handlers_spawn_old s remoteAddr iOld, handlers_spawn_new]
        intro same iOpen
        rw [apart i iOld same] at iOpen
        cases iOpen
      · rw [handlers_spawn_new, handlers_spawn_old s remoteAddr jOld]
        intro same _ jOpen
        rw [apart j jOld same.symm] at jOpen
        cases jOpen
      · exact fun _ _ _ => rfl
  case present =>
      intro now i started
      rcases Nat.lt_succ_iff_lt_or_eq.mp started with old | rfl
      · rw [handlers_spawn_old s remoteAddr old]
        exact listed.present now i old
      · rw [handlers_spawn_new]
        exact nofun

/-- A handler that closes its own connection on return keeps the bookkeeping sound. -/
theorem Sound.close (sound : s.Sound) {i : Nat} (here : s.At i .deleted) :
    (s.update i { s.handlers i with place := .returned, closed := true } s.clients).Sound := by
  obtain ⟨iStarted, place⟩ := here
  refine sound.update (fun _ => rfl) (fun _ _ => rfl) ?mine (fun _ _ _ => id)
  intro key listed
  have registered := (sound.entry key i listed).2.2
  rw [place] at registered
  cases registered

/-- `Stop` closes a connection. -/
theorem Sound.stopClient (sound : s.Sound) (i : Nat) (stopping : s.stopping ≠ .idle) :
    (s.update i { s.handlers i with closed := true } s.clients).Sound := by
  refine sound.update (fun _ => rfl) (fun now => absurd now stopping) ?mine (fun _ _ _ => id)
  intro key listed
  obtain ⟨iStarted, same, registered⟩ := sound.entry key i listed
  exact ⟨iStarted, same.symm, registered⟩

/-- Until `Stop`, no entry of another handler has the address of a connection that is open. -/
theorem Listed.entry_ne (listed : s.Listed) (now : s.stopping = .idle) {i j : Nat} {key : Addr}
    {place : Place} (here : s.At i place) (unreturned : place ≠ .returned)
    (present : (key, j) ∈ s.clients) (different : j ≠ i) : key ≠ (s.handlers i).remoteAddr := by
  obtain ⟨jStarted, rfl, registered⟩ := listed.sound.entry key j present
  intro same
  refine different (listed.apart j jStarted i here.1 same ?_
    (listed.sound.isOpen now here unreturned))
  by_contra shut
  rw [listed.sound.own now j jStarted (Bool.eq_true_of_not_eq_false shut)] at registered
  cases registered

end

/-- Deleting a key removes the entry of that address. -/
theorem mem_deleteKey {clients : Finset (Addr × Nat)} {remoteAddr key : Addr} {j : Nat} :
    (key, j) ∈ deleteKey clients remoteAddr ↔ (key, j) ∈ clients ∧ key ≠ remoteAddr :=
  Finset.mem_filter

/-- Setting a key replaces the entry of that address. -/
theorem mem_setKey {clients : Finset (Addr × Nat)} {remoteAddr key : Addr} {i j : Nat} :
    (key, j) ∈ setKey clients remoteAddr i ↔
      (key = remoteAddr ∧ j = i) ∨ ((key, j) ∈ clients ∧ key ≠ remoteAddr) := by
  rw [setKey, Finset.mem_insert, Prod.mk.injEq, mem_deleteKey]

/-- A handler enters its connection, over one of the same address if there is one. -/
theorem Sound.register (sound : s.Sound) {i : Nat} (here : s.At i .accepted) :
    (s.update i { s.handlers i with place := .looping }
      (setKey s.clients (s.handlers i).remoteAddr i)).Sound := by
  refine sound.update nofun ?own ?mine ?others
  case own =>
      intro now shut
      rw [sound.isOpen now here nofun] at shut
      cases shut
  case mine =>
      intro key listed
      rcases mem_setKey.mp listed with ⟨same, _⟩ | ⟨earlier, _⟩
      · exact ⟨here.1, same, rfl⟩
      · exact ⟨here.1, (sound.entry key i earlier).2.1.symm, rfl⟩
  case others =>
      intro key j different listed
      rcases mem_setKey.mp listed with ⟨_, same⟩ | ⟨earlier, _⟩
      · exact absurd same different
      · exact earlier

/-- A handler that enters its connection keeps the map complete. -/
theorem Listed.register (listed : s.Listed) {i : Nat} (here : s.At i .accepted) :
    (s.update i { s.handlers i with place := .looping }
      (setKey s.clients (s.handlers i).remoteAddr i)).Listed :=
  listed.update (listed.sound.register here) rfl id
    (fun _ _ => mem_setKey.mpr (.inl ⟨rfl, rfl⟩)) fun now _ _ different present =>
      mem_setKey.mpr (.inr ⟨present, listed.entry_ne now here nofun present different⟩)

/-- A handler deletes the entry of its address, whosever it is. -/
theorem Sound.delete (sound : s.Sound) {i : Nat} (here : s.At i .leaving) :
    (s.update i { s.handlers i with place := .deleted }
      (deleteKey s.clients (s.handlers i).remoteAddr)).Sound := by
  refine sound.update nofun ?own ?mine ?others
  case own =>
      intro now shut
      rw [sound.isOpen now here nofun] at shut
      cases shut
  case mine =>
      intro key listed
      obtain ⟨earlier, different⟩ := mem_deleteKey.mp listed
      exact absurd (sound.entry key i earlier).2.1.symm different
  case others => exact fun key j _ listed => (mem_deleteKey.mp listed).1

/-- A handler that deletes its connection takes no other handler out of the map. -/
theorem Listed.delete (listed : s.Listed) {i : Nat} (here : s.At i .leaving) :
    (s.update i { s.handlers i with place := .deleted }
      (deleteKey s.clients (s.handlers i).remoteAddr)).Listed :=
  listed.update (listed.sound.delete here) rfl id nofun fun now _ _ different present =>
    mem_deleteKey.mpr ⟨present, listed.entry_ne now here nofun present different⟩

/-- What a step does. The steps of a handler inside its message loop are one case, and so are
those of the accept loop that start no handler. -/
inductive Effect (s : Goroutines Addr) : Move Addr → Goroutines Addr → Prop where
  | cancel (fresh : s.cancelled = false) : Effect s .cancel { s with cancelled := true }
  | accepting {move : Move Addr} {place : Acceptor}
      (less : s.cancelled = true → place.work < s.acceptor.work) :
      Effect s move { s with acceptor := place }
  | accept {remoteAddr : Addr} (listening : s.stopping ≠ .returned) :
      Effect s (.accept remoteAddr) (s.spawn remoteAddr)
  | register {i : Nat} (here : s.At i .accepted) :
      Effect s (.register i) (s.update i { s.handlers i with place := .looping }
        (setKey s.clients (s.handlers i).remoteAddr i))
  | goto {move : Move Addr} {i : Nat} {source place : Place} (here : s.At i source)
      (before : source.isRegistered = true) (registered : place.isRegistered = true)
      (waits : s.cancelled = true → place.isWaiting = true → source.isWaiting = true)
      (less : s.cancelled = true → place.work < source.work) : Effect s move (s.goto i place)
  | delete {i : Nat} (here : s.At i .leaving) :
      Effect s (.delete i) (s.update i { s.handlers i with place := .deleted }
        (deleteKey s.clients (s.handlers i).remoteAddr))
  | close {i : Nat} (here : s.At i .deleted) :
      Effect s (.close i)
        (s.update i { s.handlers i with place := .returned, closed := true } s.clients)
  | stop (idle : s.stopping = .idle) :
      Effect s .stop { s with stopping := .closing (s.clients.image Prod.snd) }
  | stopClient {i : Nat} {left : Finset Nat} (closing : s.stopping = .closing left) :
      Effect s (.stopClient i) { s.update i { s.handlers i with closed := true } s.clients with
        stopping := .closing (left.erase i) }
  | clear (emptied : s.stopping = .closing ∅) :
      Effect s .clear { s with stopping := .cleared, clients := ∅ }
  | stopListener (cleared : s.stopping = .cleared) :
      Effect s .stopListener { s with stopping := .returned }

/-- A step has one of the effects. -/
theorem next_effect {move : Move Addr} (taken : s.Step move after) : s.Effect move after := by
  rw [Step] at taken
  cases move with
  | cancel =>
      obtain ⟨fresh, same⟩ := Option.ite_none_left_eq_some.mp taken
      cases same
      exact .cancel (Bool.eq_false_of_not_eq_true fresh)
  | accepting | acceptError =>
      obtain ⟨place, same⟩ := Option.ite_none_right_eq_some.mp taken
      cases same
      refine .accepting fun cancelled => ?_
      rw [if_pos cancelled, place]
      exact Nat.one_pos
  | accept remoteAddr =>
      obtain ⟨⟨_, listening⟩, same⟩ := Option.ite_none_right_eq_some.mp taken
      cases same
      exact .accept listening
  | register i =>
      obtain ⟨⟨here, _⟩, same⟩ := Option.ite_none_right_eq_some.mp taken
      cases same
      exact .register here
  | proceed i =>
      obtain ⟨here, same⟩ := Option.ite_none_right_eq_some.mp taken
      cases same
      -- A handler that finds the context cancelled leaves without another read.
      exact .goto here rfl (by split <;> rfl) (fun cancelled => by rw [if_pos cancelled]; nofun)
        (fun cancelled => by rw [if_pos cancelled]; decide)
  | message i | readError i =>
      obtain ⟨⟨here, _⟩, same⟩ := Option.ite_none_right_eq_some.mp taken
      cases same
      exact .goto here rfl rfl (fun _ _ => rfl) (fun _ => by decide)
  | readClosed i buffered =>
      obtain ⟨⟨here, _⟩, same⟩ := Option.ite_none_right_eq_some.mp taken
      cases same
      exact .goto here rfl (by split <;> rfl) (fun _ _ => rfl) (fun _ => by split <;> decide)
  | handled i ok =>
      obtain ⟨here, same⟩ := Option.ite_none_right_eq_some.mp taken
      cases same
      exact .goto here rfl (by split <;> rfl) (fun _ _ => rfl) (fun _ => by split <;> decide)
  | delete i =>
      obtain ⟨⟨here, _⟩, same⟩ := Option.ite_none_right_eq_some.mp taken
      cases same
      exact .delete here
  | close i =>
      obtain ⟨here, same⟩ := Option.ite_none_right_eq_some.mp taken
      cases same
      exact .close here
  | stop =>
      obtain ⟨idle, same⟩ := Option.ite_none_right_eq_some.mp taken
      cases same
      exact .stop idle
  | stopClient i =>
      rw [Goroutines.next] at taken
      cases closing : s.stopping with
      | closing left =>
          rw [closing] at taken
          obtain ⟨_, same⟩ := Option.ite_none_right_eq_some.mp taken
          cases same
          exact .stopClient closing
      | idle | cleared | returned =>
          rw [closing] at taken
          cases taken
  | clear =>
      obtain ⟨emptied, same⟩ := Option.ite_none_right_eq_some.mp taken
      cases same
      exact .clear emptied
  | stopListener =>
      obtain ⟨cleared, same⟩ := Option.ite_none_right_eq_some.mp taken
      cases same
      exact .stopListener cleared

/-- Every move keeps the bookkeeping sound. -/
theorem Sound.next (sound : s.Sound) {move : Move Addr} (taken : s.Step move after) :
    after.Sound := by
  cases next_effect taken with
  | cancel | accepting => exact sound.of_handlers rfl rfl (Finset.Subset.refl _) id
  | accept => exact sound.spawn _
  | register here => exact sound.register here
  | goto here before registered => exact sound.goto here before registered
  | delete here => exact sound.delete here
  | close here => exact sound.close here
  | stop | stopListener => exact sound.of_handlers rfl rfl (Finset.Subset.refl _) nofun
  | @stopClient i _ closing =>
      exact (sound.stopClient i (closing ▸ nofun)).of_handlers rfl rfl (Finset.Subset.refl _) nofun
  | clear => exact sound.of_handlers rfl rfl (Finset.empty_subset _) nofun

/-- Every move that keeps addresses apart keeps the map complete. -/
theorem Listed.next (listed : s.Listed) {move : Move Addr} (apart : s.Apart move)
    (taken : s.Step move after) : after.Listed := by
  have sound := listed.sound.next taken
  cases next_effect taken with
  | cancel | accepting => exact listed.of_handlers sound rfl rfl fun now => ⟨now, rfl⟩
  | accept => exact listed.spawn apart
  | register here => exact listed.register here
  | goto here before registered => exact listed.goto here before registered
  | delete here => exact listed.delete here
  | close => exact listed.update sound rfl (fun _ => rfl) nofun (fun _ _ _ _ => id)
  | stop | clear | stopListener => exact listed.of_handlers sound rfl rfl nofun
  | @stopClient i _ closing =>
      have begun : s.stopping ≠ .idle := closing ▸ nofun
      have shut := listed.update (listed.sound.stopClient i begun) rfl (fun _ => rfl)
        (fun now => absurd now begun) (fun now => absurd now begun)
      exact shut.of_handlers sound rfl rfl nofun

omit [DecidableEq Addr] in
/-- The bookkeeping of a server that has just started is sound. -/
theorem Sound.start (handlers : Nat → Handler Addr) : (start handlers).Sound where
  entry := fun _ _ listed => absurd listed (Finset.notMem_empty _)
  done := nofun
  own := nofun

/-- If no two open connections have one address, the map is complete in every run. -/
theorem Listed.of_reachable {handlers : Nat → Handler Addr}
    (reached : Reachable (Guarded Step Apart) (Goroutines.start handlers) s) : s.Listed :=
  reached.invariant Listed ⟨.start handlers, nofun, nofun⟩ fun _ _ _ listed taken =>
    listed.next taken.1 taken.2

/-- What is left to do once the context is cancelled, counted in steps. -/
def work (s : Goroutines Addr) : Nat :=
  s.acceptor.work + ∑ i ∈ Finset.range s.started, (s.handlers i).place.work

/-- `Stop` is called after the context is cancelled. -/
def Orderly (s : Goroutines Addr) : Move Addr → Prop
  | .stop => s.cancelled = true
  | _ => True

/-- What holds when `Stop` is called after the context is cancelled. -/
structure Ordered (s : Goroutines Addr) : Prop where
  sound : s.Sound
  cancelled : s.stopping ≠ .idle → s.cancelled = true

/-- What a step does to `Stop` and to the context. -/
theorem cancelled_next {move : Move Addr} (taken : s.Step move after) :
    (s.cancelled = true → after.cancelled = true) ∧
      (after.stopping ≠ .idle → s.stopping ≠ .idle ∨ move = .stop) := by
  cases next_effect taken with
  | cancel => exact ⟨fun _ => rfl, .inl⟩
  | accepting | accept | register | goto | delete | close => exact ⟨id, .inl⟩
  | stop => exact ⟨id, fun _ => .inr rfl⟩
  | stopClient begun | clear begun | stopListener begun =>
      exact ⟨id, fun _ => .inl (begun ▸ nofun)⟩

/-- An orderly move keeps the order. -/
theorem Ordered.next (ordered : s.Ordered) {move : Move Addr} (orderly : s.Orderly move)
    (taken : s.Step move after) : after.Ordered := by
  obtain ⟨kept, begun⟩ := cancelled_next taken
  refine ⟨ordered.sound.next taken, fun stopping => kept ?_⟩
  rcases begun stopping with before | rfl
  · exact ordered.cancelled before
  · exact orderly

/-- In every orderly run `Stop` finds the context cancelled. -/
theorem Ordered.of_reachable {handlers : Nat → Handler Addr}
    (reached : Reachable (Guarded Step Orderly) (Goroutines.start handlers) s) : s.Ordered :=
  reached.invariant Ordered ⟨.start handlers, nofun⟩
    fun _ _ _ ordered taken => ordered.next taken.1 taken.2

/-- What holds besides if no two connections that are open have one address: the handlers that
wait for a connection have had it closed, or `Stop` is about to close it. -/
structure Closing (s : Goroutines Addr) : Prop where
  ordered : s.Ordered
  listed : s.Listed
  waiting : s.stopping ≠ .idle → ∀ i < s.started, (s.handlers i).place.isWaiting →
    (s.handlers i).closed = true ∨ ∃ left, s.stopping = .closing left ∧ i ∈ left

section
omit [DecidableEq Addr]

/-- A step of handler `i` to a place where it does not wait, or from one where it did. -/
theorem Closing.update (closing : s.Closing) {i : Nat} {handler : Handler Addr}
    {clients : Finset (Addr × Nat)} (ordered : (s.update i handler clients).Ordered)
    (listed : (s.update i handler clients).Listed)
    (waits : s.cancelled = true → handler.place.isWaiting = true →
      (s.handlers i).place.isWaiting = true ∧ handler.closed = (s.handlers i).closed) :
    (s.update i handler clients).Closing where
  ordered := ordered
  listed := listed
  waiting := by
    intro stopping j started
    by_cases same : j = i
    · subst same
      rw [handlers_update_same]
      intro isWaiting
      obtain ⟨waited, closed⟩ := waits (closing.ordered.cancelled stopping) isWaiting
      rw [closed]
      exact closing.waiting stopping j started waited
    · rw [handlers_update_other s handler clients same]
      exact closing.waiting stopping j started

/-- A new connection while `Stop` runs does not wait for another to be closed. -/
theorem Closing.spawn (closing : s.Closing) {remoteAddr : Addr}
    (ordered : (s.spawn remoteAddr).Ordered) (listed : (s.spawn remoteAddr).Listed) :
    (s.spawn remoteAddr).Closing where
  ordered := ordered
  listed := listed
  waiting := by
    intro stopping i started
    rcases Nat.lt_succ_iff_lt_or_eq.mp started with old | rfl
    · rw [handlers_spawn_old s remoteAddr old]
      exact closing.waiting stopping i old
    · rw [handlers_spawn_new]
      exact nofun

/-- When `Stop` takes the lock, every handler that waits is in the map. -/
theorem Closing.stop (closing : s.Closing) (idle : s.stopping = .idle) :
    ∀ i < s.started, (s.handlers i).place.isWaiting → i ∈ s.clients.image Prod.snd := by
  intro i started isWaiting
  have registered : (s.handlers i).place.isRegistered = true := by
    cases place : (s.handlers i).place <;> simp_all [Place.isWaiting, Place.isRegistered]
  exact Finset.mem_image.mpr ⟨_, closing.listed.present idle i started registered, rfl⟩

/-- A connection that `Stop` closes leaves the list of those it still has to close. -/
theorem Closing.stopClient (closing : s.Closing) {i : Nat} {left : Finset Nat}
    (busy : s.stopping = .closing left) :
    ∀ j < s.started, ((s.update i { s.handlers i with closed := true } s.clients).handlers
        j).place.isWaiting →
      ((s.update i { s.handlers i with closed := true } s.clients).handlers j).closed = true ∨
        j ∈ left.erase i := by
  intro j started
  by_cases same : j = i
  · subst same
    rw [handlers_update_same]
    exact fun _ => .inl rfl
  · rw [handlers_update_other s _ s.clients same]
    intro isWaiting
    rcases closing.waiting (busy ▸ nofun) j started isWaiting with shut | ⟨set, equal, present⟩
    · exact .inl shut
    · cases busy.symm.trans equal
      exact .inr (Finset.mem_erase.mpr ⟨same, present⟩)

/-- Once `Stop` has closed all it found, the handlers that wait have had their connection closed. -/
theorem Closing.shut (closing : s.Closing) (begun : s.stopping ≠ .idle)
    (emptied : ∀ left, s.stopping = .closing left → left = ∅) :
    ∀ i < s.started, (s.handlers i).place.isWaiting → (s.handlers i).closed = true := by
  intro i started isWaiting
  rcases closing.waiting begun i started isWaiting with shut | ⟨left, equal, present⟩
  · exact shut
  · rw [emptied left equal] at present
    exact absurd present (Finset.notMem_empty i)

end

/-- A regular move leaves no handler waiting for a connection that nobody closes. -/
theorem Closing.next (closing : s.Closing) {move : Move Addr} (orderly : s.Orderly move)
    (apart : s.Apart move) (taken : s.Step move after) : after.Closing := by
  have ordered := closing.ordered.next orderly taken
  have listed := closing.listed.next apart taken
  cases next_effect taken with
  | cancel | accepting => exact ⟨ordered, listed, closing.waiting⟩
  | accept => exact closing.spawn ordered listed
  | register | delete | close => exact closing.update ordered listed nofun
  | goto here _ _ waits =>
      refine closing.update ordered listed fun cancelled isWaiting => ⟨?_, rfl⟩
      rw [here.2]
      exact waits cancelled isWaiting
  | stop idle =>
      exact ⟨ordered, listed, fun _ i started isWaiting =>
        .inr ⟨_, rfl, closing.stop idle i started isWaiting⟩⟩
  | stopClient busy =>
      refine ⟨ordered, listed, fun _ j started isWaiting => ?_⟩
      rcases closing.stopClient busy j started isWaiting with shut | present
      · exact .inl shut
      · exact .inr ⟨_, rfl, present⟩
  | clear emptied =>
      refine ⟨ordered, listed, fun _ i started isWaiting => .inl ?_⟩
      exact closing.shut (emptied ▸ nofun) (fun _ equal => by cases emptied.symm.trans equal; rfl)
        i started isWaiting
  | stopListener cleared =>
      refine ⟨ordered, listed, fun _ i started isWaiting => .inl ?_⟩
      exact closing.shut (cleared ▸ nofun) (fun _ equal => by cases cleared.symm.trans equal)
        i started isWaiting

omit [DecidableEq Addr] in
/-- A handler that goes on to a later place has less work left, and so has the server. -/
theorem work_update {i : Nat} {source : Place} (here : s.At i source) {handler : Handler Addr}
    {clients : Finset (Addr × Nat)} (place : Place) (goes : handler.place = place)
    (less : place.work < source.work) : (s.update i handler clients).work < s.work := by
  obtain ⟨iStarted, rfl⟩ := here
  subst goes
  refine Nat.add_lt_add_left (Finset.sum_lt_sum ?_ ⟨i, Finset.mem_range.mpr iStarted, ?_⟩) _
  · intro j _
    by_cases same : j = i
    · rw [same, handlers_update_same]
      exact less.le
    · rw [handlers_update_other s handler clients same]
  · rw [handlers_update_same]
    exact less

/-- Once `Stop` has returned, every step brings a goroutine closer to its return. -/
theorem Ordered.work_next (ordered : s.Ordered) (returned : s.stopping = .returned)
    {move : Move Addr} (taken : s.Step move after) :
    after.stopping = .returned ∧ after.work < s.work := by
  have cancelled : s.cancelled = true := ordered.cancelled (returned ▸ nofun)
  cases next_effect taken with
  | cancel fresh =>
      rw [fresh] at cancelled
      cases cancelled
  | accepting less => exact ⟨returned, Nat.add_lt_add_right (less cancelled) _⟩
  | accept listening => exact absurd returned listening
  | register here => exact ⟨returned, work_update here .looping rfl (by decide)⟩
  | goto here _ _ _ less => exact ⟨returned, work_update here _ rfl (less cancelled)⟩
  | delete here => exact ⟨returned, work_update here .deleted rfl (by decide)⟩
  | close here => exact ⟨returned, work_update here .returned rfl (by decide)⟩
  | stop other | stopClient other | clear other | stopListener other =>
      -- `Stop` has no step left.
      cases returned.symm.trans other

/-- All goroutines have returned, and no connection is open or in the map. -/
structure Drained (s : Goroutines Addr) : Prop where
  acceptor : s.acceptor = .returned
  handlers : ∀ i < s.started, (s.handlers i).place = .returned ∧ (s.handlers i).closed = true
  clients : s.clients = ∅

/-- Once `Stop` has returned, a goroutine that has not returned can take a step. -/
theorem Ordered.drained (ordered : s.Ordered) (returned : s.stopping = .returned)
    (halted : ∀ move, s.next move = none) : s.Drained := by
  have unlocked : s.stopping.isLocked = false := returned ▸ rfl
  have isDone : ∀ i < s.started, (s.handlers i).place = .returned := by
    intro i iStarted
    cases place : (s.handlers i).place with
    | accepted => cases ite_eq_right_iff.mp (halted (.register i)) ⟨⟨iStarted, place⟩, unlocked⟩
    | looping => cases ite_eq_right_iff.mp (halted (.proceed i)) ⟨iStarted, place⟩
    | reading =>
        cases closed : (s.handlers i).closed with
        | true =>
            cases ite_eq_right_iff.mp (halted (.readClosed i false)) ⟨⟨iStarted, place⟩, closed⟩
        | false => cases ite_eq_right_iff.mp (halted (.readError i)) ⟨⟨iStarted, place⟩, closed⟩
    | handling => cases ite_eq_right_iff.mp (halted (.handled i false)) ⟨iStarted, place⟩
    | leaving => cases ite_eq_right_iff.mp (halted (.delete i)) ⟨⟨iStarted, place⟩, unlocked⟩
    | deleted => cases ite_eq_right_iff.mp (halted (.close i)) ⟨iStarted, place⟩
    | returned => rfl
  constructor
  case acceptor =>
      cases place : s.acceptor with
      | looping => cases ite_eq_right_iff.mp (halted .accepting) place
      | accepting => cases ite_eq_right_iff.mp (halted .acceptError) place
      | returned => rfl
  case handlers =>
      intro i started
      exact ⟨isDone i started, ordered.sound.done i started (isDone i started)⟩
  case clients =>
      refine Finset.eq_empty_of_forall_notMem fun ⟨key, i⟩ listed => ?_
      obtain ⟨started, _, registered⟩ := ordered.sound.entry key i listed
      rw [isDone i started] at registered
      cases registered

/-- Once `Stop` has returned, every schedule of the goroutines ends with nothing left. -/
theorem Ordered.drains (ordered : s.Ordered) (returned : s.stopping = .returned)
    {moves : List (Move Addr)} (run : Run Step s moves after) :
    moves.length + after.work ≤ s.work ∧ ((∀ move, after.next move = none) → after.Drained) := by
  have lowers : ∀ (before : Goroutines Addr) move after,
      before.Ordered ∧ before.stopping = .returned → before.Step move after →
        (after.Ordered ∧ after.stopping = .returned) ∧ after.work < before.work := by
    rintro before move after ⟨ordered, ended⟩ taken
    obtain ⟨still, less⟩ := ordered.work_next ended taken
    refine ⟨⟨ordered.next ?_ taken, still⟩, less⟩
    cases move with
    | stop => exact ordered.cancelled (ended ▸ nofun)
    | _ => trivial
  have begun := And.intro ordered returned
  refine ⟨run.length_le begun work lowers, fun halted => ?_⟩
  obtain ⟨ordered, ended⟩ :=
    run.invariant begun fun before move after ok taken => (lowers before move after ok taken).1
  exact ordered.drained ended halted

end Goroutines

open Goroutines

variable {Addr : Type*} [DecidableEq Addr]

/-- If no two connections that are open have one remote address, then until `Stop` takes the lock
`ClientCount` is the number of handlers that have entered their connection into the map and not
deleted it yet, and the map has the connection of each under its address. -/
theorem clientCount_eq {handlers : Nat → Handler Addr} {s : Goroutines Addr}
    (reached : Reachable (Guarded Step Apart) (start handlers) s) (idle : s.stopping = .idle) :
    s.clientCount = s.registered.card ∧
      ∀ remoteAddr i, (remoteAddr, i) ∈ s.clients ↔
        i ∈ s.registered ∧ (s.handlers i).remoteAddr = remoteAddr := by
  have complete := Listed.of_reachable reached
  have listed : ∀ remoteAddr i, (remoteAddr, i) ∈ s.clients ↔
      i ∈ s.registered ∧ (s.handlers i).remoteAddr = remoteAddr := by
    intro remoteAddr i
    rw [registered, Finset.mem_filter, Finset.mem_range]
    constructor
    · intro present
      obtain ⟨started, same, loops⟩ := complete.sound.entry remoteAddr i present
      exact ⟨⟨started, loops⟩, same⟩
    · rintro ⟨⟨started, loops⟩, rfl⟩
      exact complete.present idle i started loops
  refine ⟨Finset.card_bij' (fun entry _ => entry.2) (fun i _ => ((s.handlers i).remoteAddr, i))
    ?_ ?_ ?_ ?_, listed⟩
  · exact fun entry present => ((listed entry.1 entry.2).mp present).1
  · exact fun i loops => (listed _ i).mpr ⟨loops, rfl⟩
  · exact fun entry present => Prod.ext ((listed entry.1 entry.2).mp present).2 rfl
  · exact fun _ _ => rfl

/-- A server that waits for its first client. -/
def oneAccepting : Goroutines Nat :=
  { start fun _ => ⟨0, .returned, true⟩ with acceptor := .accepting }

/-- A client has connected and its handler has put it into the map. -/
def oneRegistered : Goroutines Nat :=
  (oneAccepting.spawn 7).update 0 ⟨7, .looping, false⟩ (setKey ∅ 7 0)

/-- The handler waits for the first message. -/
def oneClient : Goroutines Nat :=
  oneRegistered.goto 0 .reading

/-- The steps of runs that are orderly, in which no two connections that are open have one
address. -/
abbrev RegularStep : Goroutines Addr → Move Addr → Goroutines Addr → Prop :=
  Guarded (Guarded Step Apart) Orderly

/-- A regular run is prolonged by one more regular move. -/
theorem regular_tail {source middle target : Goroutines Addr} {move : Move Addr}
    (reached : Reachable RegularStep source middle) (taken : middle.Step move target)
    (orderly : middle.Orderly move) (apart : middle.Apart move) :
    Reachable RegularStep source target :=
  reached.guardedTail ⟨apart, taken⟩ orderly

/-- The state with one waiting client is reached by a regular run. -/
theorem oneClient_reachable :
    Reachable RegularStep (start fun _ => ⟨0, .returned, true⟩) oneClient := by
  have waits := regular_tail (.refl _)
    (rfl : Step (start fun _ => ⟨0, .returned, true⟩) .accepting oneAccepting) trivial trivial
  have accepted := regular_tail waits (rfl : oneAccepting.Step (.accept 7) _) trivial
    fun _ started => absurd started (Nat.not_lt_zero _)
  have registered := regular_tail accepted
    (rfl : (oneAccepting.spawn 7).Step (.register 0) _) trivial trivial
  exact regular_tail registered (rfl : oneRegistered.Step (.proceed 0) oneClient) trivial trivial

/-- A second client has connected from another address. -/
def twoAccepted : Goroutines Nat :=
  Goroutines.spawn { oneClient with acceptor := .accepting } 9

/-- Its handler has put it into the map, and the read of the first one has failed. -/
def twoClients : Goroutines Nat :=
  (twoAccepted.update 1 ⟨9, .looping, false⟩ (setKey twoAccepted.clients 9 1)).goto 0 .leaving

/-- The state with two clients, one of them leaving, is reached by a regular run. -/
theorem twoClients_reachable :
    Reachable RegularStep (start fun _ => ⟨0, .returned, true⟩) twoClients := by
  have waits := regular_tail oneClient_reachable
    (rfl : oneClient.Step .accepting { oneClient with acceptor := .accepting }) trivial trivial
  have apart : Apart { oneClient with acceptor := .accepting } (.accept 9) := by
    intro i started same
    cases Nat.lt_one_iff.mp started
    cases same
  have accepted := regular_tail waits
    (rfl : Step { oneClient with acceptor := .accepting } (.accept 9) twoAccepted) trivial apart
  have registered := regular_tail accepted (rfl : twoAccepted.Step (.register 1) _) trivial trivial
  exact regular_tail registered (rfl : (twoAccepted.update 1 ⟨9, .looping, false⟩
    (setKey twoAccepted.clients 9 1)).Step (.readError 0) twoClients) trivial trivial

/-- Both are counted, the one that is about to be deleted too. -/
theorem twoClients_counted :
    twoClients.clientCount = twoClients.registered.card ∧ twoClients.registered = {0, 1} ∧
      ∀ remoteAddr i, (remoteAddr, i) ∈ twoClients.clients ↔
        i ∈ twoClients.registered ∧ (twoClients.handlers i).remoteAddr = remoteAddr := by
  obtain ⟨counted, listed⟩ := clientCount_eq twoClients_reachable.unguarded rfl
  exact ⟨counted, by decide, listed⟩

/-- Of two connections with one address that are both open the map has one only. -/
example : ([.accepting, .accept 7, .register 0, .accepting, .accept 7, .register 1].foldlM
    Goroutines.next (start fun _ => ⟨0, .returned, true⟩)).map
      (fun s => (s.clientCount, s.registered.card)) = some (1, 2) := by
  decide

/-- If besides the context is cancelled before `Stop` is called, then once `Stop` has returned
every connection that a handler waits for has been closed. -/
theorem stop_closes {handlers : Nat → Handler Addr} {s : Goroutines Addr}
    (reached : Reachable RegularStep (start handlers) s) (returned : s.stopping = .returned)
    {i : Nat} (started : i < s.started) (waits : (s.handlers i).place.isWaiting) :
    (s.handlers i).closed = true := by
  have begins : (start handlers).Closing := ⟨⟨.start handlers, nofun⟩, ⟨.start handlers, nofun,
    nofun⟩, nofun⟩
  have closing : s.Closing := reached.invariant Closing begins
    fun _ _ _ closing taken => closing.next taken.1 taken.2.1 taken.2.2
  rcases closing.waiting (returned ▸ nofun) i started waits with shut | ⟨_, equal, _⟩
  · exact shut
  · cases returned.symm.trans equal

/-- `Stop` has closed the connection of the one client. -/
def oneClosed : Goroutines Nat :=
  { oneClient.update 0 ⟨7, .reading, true⟩ oneClient.clients with
    cancelled := true, stopping := .closing ∅ }

/-- `Stop` has returned, and the handler has not. -/
def oneStopped : Goroutines Nat :=
  { oneClosed with stopping := .returned, clients := ∅ }

/-- `Stop` can return while a handler is still running. -/
theorem oneStopped_reachable :
    Reachable (Guarded Step Orderly) (start fun _ => ⟨0, .returned, true⟩) oneStopped := by
  have begun : Reachable (Guarded Step Orderly) (start fun _ => ⟨0, .returned, true⟩) oneClient :=
    oneClient_reachable.mono fun _ _ _ taken => ⟨taken.1, taken.2.2⟩
  have cancelled := begun.guardedTail (rfl : oneClient.Step .cancel _) trivial
  have locked := cancelled.guardedTail
    (rfl : Step { oneClient with cancelled := true } .stop
      { oneClient with cancelled := true, stopping := .closing {0} }) rfl
  have closed := locked.guardedTail
    (rfl : Step { oneClient with cancelled := true, stopping := .closing {0} } (.stopClient 0)
      oneClosed) trivial
  have cleared := closed.guardedTail (rfl : oneClosed.Step .clear _) trivial
  exact cleared.guardedTail
    (rfl : Step { oneClosed with stopping := .cleared, clients := ∅ } .stopListener oneStopped)
    trivial

/-- The handler and the accept loop have returned. -/
def oneDrained : Goroutines Nat :=
  { ((oneStopped.goto 0 .leaving).update 0 ⟨7, .deleted, true⟩ ∅).update 0
      ⟨7, .returned, true⟩ ∅ with acceptor := .returned }

/-- After `Stop` the handler and the accept loop return on their own. -/
theorem oneDrained_run :
    Run Step oneStopped [.readClosed 0 false, .delete 0, .close 0, .accepting] oneDrained :=
  ((((Run.nil oneStopped).snoc (rfl : oneStopped.Step (.readClosed 0 false) _)).snoc
    (rfl : (oneStopped.goto 0 .leaving).Step (.delete 0) _)).snoc
      (rfl : ((oneStopped.goto 0 .leaving).update 0 ⟨7, .deleted, true⟩ ∅).Step (.close 0) _)).snoc
        (rfl : (((oneStopped.goto 0 .leaving).update 0 ⟨7, .deleted, true⟩ ∅).update 0
          ⟨7, .returned, true⟩ ∅).Step .accepting oneDrained)

/-- No goroutine of the drained server has a move left. -/
theorem oneDrained_halted (move : Move Nat) : oneDrained.next move = none := by
  have gone : ∀ i place, place ≠ .returned → ¬ oneDrained.At i place := by
    rintro i place other ⟨started, same⟩
    cases Nat.lt_one_iff.mp started
    exact other same.symm
  cases move with
  | register i | proceed i | message i | readError i | readClosed i | handled i | delete i
  | close i => simp [Goroutines.next, gone]
  | _ => rfl

end P2pMesh.Bootstrap

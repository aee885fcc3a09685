import P2pMesh.Bootstrap.Shutdown
import P2pMesh.Server.Lifecycle

/-! # The server with its bootstrap server

The calls of `Start` and `Stop` of `pkg/server` run side by side with the goroutines of the
bootstrap server that one of them starts. `Stop` cancels the context and stops the bootstrap
server through the handles that it has detached.

If the listener is not opened after the bootstrap server was stopped, the calls use the
bootstrap server in the order that its `Stop` needs, so that nothing of it is left behind once
every call of `Stop` has returned (`P2pMesh.Server.everything_drains`).
-/

namespace P2pMesh.Server

open Foundation
open Bootstrap (Goroutines)

/-- The calls, and the goroutines of the bootstrap server with the context they were given. -/
structure Process (Addr ι κ : Type*) where
  life : Life ι κ
  boot : Option (ι × Goroutines Addr)

/-- A step of a call of `Start` or `Stop`, or one of the bootstrap server. -/
inductive Event (Addr ι κ : Type*) where
  | call (move : Move ι κ)
  | boot (move : Bootstrap.Move Addr)

namespace Process

variable {Addr ι κ : Type*} [DecidableEq Addr] [DecidableEq ι] [DecidableEq κ] [Fintype ι]

/-- `bootSrv.Stop` begins. Before the listener is open there are no connections to close. -/
def beginStop : Option (ι × Goroutines Addr) → Option (Option (ι × Goroutines Addr))
  | none => some none
  | some (i, g) => (g.next .stop).map fun g' => some (i, g')

/-- `bootSrv.Stop` returns. A listener that was opened after it had gone through the connections
is closed. -/
def endStop : Option (ι × Goroutines Addr) → Option (Option (ι × Goroutines Addr))
  | none => some none
  | some (i, g) =>
      if g.stopping = .returned then some (some (i, g))
      else if g.stopping = .idle then some (some (i, { g with stopping := .returned }))
      else none

/-- The bootstrap server after a step of a call, where the call can take it. -/
def bootAfter (p : Process Addr ι κ) (handlers : Nat → Bootstrap.Handler Addr) (life : Life ι κ) :
    Move ι κ → Option (Option (ι × Goroutines Addr))
  | .start i listens =>
      if p.life.starts i = .loaded ∧ listens = true then
        some (some (i, { Goroutines.start handlers with cancelled := life.done i }))
      else some p.boot
  | .watcher _ => some p.boot
  | .stop j =>
      match p.life.stops j with
      | .detached _ _ _ =>
          some (p.boot.map fun (i, g) => (i, { g with cancelled := life.done i }))
      | .cancelled true _ => beginStop p.boot
      | .stopping _ => endStop p.boot
      | _ => some p.boot

/-- The steps of `cancel` and of the beginning of `bootSrv.Stop` are those of calls. -/
def isOwn : Bootstrap.Move Addr → Bool
  | .cancel | .stop => false
  | _ => true

/-- What an event does, if it can happen. -/
def next (handlers : Nat → Bootstrap.Handler Addr) (p : Process Addr ι κ) :
    Event Addr ι κ → Option (Process Addr ι κ)
  | .call move =>
      (p.life.next move).bind fun life =>
        (p.bootAfter handlers life move).map fun boot => ⟨life, boot⟩
  | .boot move =>
      if p.life.Panicked ∨ isOwn move = false then none
      else p.boot.bind fun (i, g) => (g.next move).map fun g' => { p with boot := some (i, g') }

/-- An event as a step. -/
def Step (handlers : Nat → Bootstrap.Handler Addr) (before : Process Addr ι κ)
    (event : Event Addr ι κ) (after : Process Addr ι κ) : Prop :=
  before.next handlers event = some after

/-- A process before any call. -/
def new : Process Addr ι κ :=
  ⟨.new, none⟩

/-- The listener is not opened after the bootstrap server was stopped. -/
def InTime (p : Process Addr ι κ) : Event Addr ι κ → Prop
  | .call (.start i true) => p.life.starts i = .loaded → p.life.bootStops = 0
  | _ => True

instance (p : Process Addr ι κ) (event : Event Addr ι κ) : Decidable (p.InTime event) :=
  match event with
  | .call (.start _ true) => inferInstanceAs (Decidable (_ → _))
  | .call (.start _ false) | .call (.watcher _) | .call (.stop _) | .boot _ => .isTrue trivial

/-- The goroutines are those that call `i` of `Start` left, stopped as far as the calls of
`Stop` have come. -/
structure Serves (life : Life ι κ) (i : ι) (g : Goroutines Addr) : Prop where
  loaded : (life.starts i).isLoaded = true
  cancelled : g.cancelled = life.done i
  ordered : g.Ordered
  idle : g.stopping = .idle ↔ life.bootStops = 0
  ended : g.stopping = .idle ∨ g.stopping = .returned ∨ ∃ j store, life.stops j = .stopping store

variable {life : Life ι κ} {i : ι} {g g' : Goroutines Addr}

omit [DecidableEq Addr] [DecidableEq κ] [Fintype ι] in
/-- A step of a call of `Start`, or of the goroutine that it left. -/
theorem Serves.starts (serves : Serves life i g) {shared : Shared ι} {k : ι} {place : StartPlace}
    (done : shared.done = life.done) (bootStops : shared.bootStops = life.bootStops)
    (loaded : (life.starts k).isLoaded = true → place.isLoaded = true) :
    Serves { life with toShared := shared, starts := Function.update life.starts k place } i g where
  loaded := by
    by_cases same : i = k
    · subst same
      exact (congrArg _ (Function.update_self ..)).trans (loaded serves.loaded)
    · exact (congrArg _ (Function.update_of_ne same ..)).trans serves.loaded
  cancelled := serves.cancelled.trans (congrFun done i).symm
  ordered := serves.ordered
  idle := by
    rw [bootStops]
    exact serves.idle
  ended := serves.ended

omit [DecidableEq Addr] [DecidableEq ι] [Fintype ι] in
/-- A step of a call of `Stop` outside of `bootSrv.Stop`. -/
theorem Serves.stops (serves : Serves life i g) {shared : Shared ι} {j : κ} {place : StopPlace ι}
    (done : shared.done = life.done) (bootStops : shared.bootStops = life.bootStops)
    (outside : ∀ store, life.stops j ≠ .stopping store) :
    Serves { life with toShared := shared, stops := Function.update life.stops j place } i g where
  loaded := serves.loaded
  cancelled := serves.cancelled.trans (congrFun done i).symm
  ordered := serves.ordered
  idle := by
    rw [bootStops]
    exact serves.idle
  ended := by
    refine serves.ended.imp_right (Or.imp_right fun ⟨k, store, here⟩ => ⟨k, store, ?_⟩)
    have different : k ≠ j := fun same => outside store (same ▸ here)
    exact (Function.update_of_ne different ..).trans here

/-- What the bootstrap server's own steps leave alone. -/
theorem next_isOwn {move : Bootstrap.Move Addr} (own : isOwn move = true)
    (taken : g.next move = some g') :
    g'.cancelled = g.cancelled ∧ (g'.stopping = .idle ↔ g.stopping = .idle) ∧
      (g.stopping = .returned → g'.stopping = .returned) := by
  cases Goroutines.next_effect taken with
  | cancel | stop => cases own
  | accepting | accept | register | goto | delete | close => exact ⟨rfl, Iff.rfl, id⟩
  | stopClient begun | clear begun | stopListener begun =>
      rw [begun]
      exact ⟨rfl, ⟨nofun, nofun⟩, nofun⟩

omit [DecidableEq ι] [DecidableEq κ] [Fintype ι] in
/-- A step of the goroutines themselves leaves them in step with the calls. -/
theorem Serves.own (serves : Serves life i g) {move : Bootstrap.Move Addr}
    (own : isOwn move = true) (taken : g.next move = some g') : Serves life i g' := by
  obtain ⟨cancelled, idle, returned⟩ := next_isOwn own taken
  refine ⟨serves.loaded, cancelled.trans serves.cancelled, serves.ordered.next ?_ taken,
    idle.trans serves.idle, ?_⟩
  · cases move with
    | stop => cases own
    | _ => trivial
  · rcases serves.ended with now | finished | busy
    · exact .inl (idle.mpr now)
    · exact .inr (.inl (returned finished))
    · exact .inr (.inr busy)

/-- A context that is cancelled, perhaps once more. -/
theorem ordered_cancelled (ordered : g.Ordered) {done : Bool}
    (kept : g.cancelled = true → done = true) :
    Goroutines.Ordered { g with cancelled := done } := by
  by_cases same : g.cancelled = done
  · subst same
    exact ordered
  · have fresh : g.cancelled = false := by
      cases now : g.cancelled with
      | false => rfl
      | true => exact absurd (now.trans (kept now).symm) same
    have cancels : g.next .cancel = some { g with cancelled := done } := by
      rw [fresh] at same
      rw [Goroutines.next, fresh, Bool.eq_true_of_not_eq_false (Ne.symm same)]
      rfl
    exact ordered.next (show g.Orderly .cancel from trivial) cancels

variable [Fintype κ]

/-- What holds while the listener is opened in time. -/
structure Wired (p : Process Addr ι κ) : Prop where
  coherent : p.life.Coherent
  owned : p.life.Owned
  serves : ∀ i g, p.boot = some (i, g) → Serves p.life i g

omit [DecidableEq ι] [Fintype ι] in
/-- The context of the bootstrap server is cancelled when `bootSrv.Stop` is called. -/
theorem done_of_cancelled (coherent : life.Coherent) (owned : life.Owned)
    (loaded : (life.starts i).isLoaded = true) {j : κ} {store : Bool}
    (here : life.stops j = .cancelled true store) : life.done i = true := by
  rcases coherent.covered i loaded with has | ⟨k, other, held⟩ | cancelled
  · cases (coherent.begun.mpr ⟨j, here ▸ nofun⟩).symm.trans has
  · have different : j ≠ k := by
      rintro rfl
      cases here.symm.trans held
    have two : (life.stops j).bootSrv + (life.stops k).bootSrv ≤
        total StopPlace.bootSrv life.stops := add_le_total different
    rw [here, held] at two
    have account := owned.bootSrv
    simp only [StopPlace.bootSrv, Bool.toNat_true] at two
    omega
  · exact cancelled

variable {p after : Process Addr ι κ} {handlers : Nat → Bootstrap.Handler Addr}

omit [Fintype κ] in
/-- A step of a call is one of the server and moves the goroutines as it says. -/
theorem call_step {move : Move ι κ} (taken : p.Step handlers (.call move) after) :
    p.life.Step move after.life ∧ p.bootAfter handlers after.life move = some after.boot := by
  obtain ⟨life, moved, wired⟩ := Option.bind_eq_some_iff.mp taken
  obtain ⟨boot, same, rfl⟩ := Option.map_eq_some_iff.mp wired
  exact ⟨moved, same⟩

omit [DecidableEq ι] [Fintype ι] in
/-- A step of `Start` cancels nothing, and does not unload the bootstrap server. -/
theorem start_isLoaded {s shared : Shared ι} {listens : Bool} {old new : StartPlace}
    (call : s.start i listens old = some (shared, new)) :
    shared.done = s.done ∧ (old.isLoaded = true → new.isLoaded = true) := by
  cases old with
  | idle =>
      cases started : s.started with
      | false | true =>
          rw [Shared.start, started] at call
          cases call
          exact ⟨rfl, fun loaded => by cases loaded⟩
  | claimed | armed =>
      cases call
      exact ⟨rfl, fun loaded => by cases loaded⟩
  | loaded =>
      cases call
      exact ⟨rfl, fun _ => by cases listens <;> rfl⟩
  | listening =>
      cases call
      exact ⟨rfl, fun _ => rfl⟩
  | watched | finished | refused | failed | panicked => cases call

/-- A step of `Start`, with the listener opened in time, keeps the goroutines in step with the
calls. -/
theorem Wired.start (wired : p.Wired) {listens : Bool}
    (inTime : p.InTime (.call (.start i listens)))
    (taken : p.Step handlers (.call (.start i listens)) after) :
    ∀ k g, after.boot = some (k, g) → Serves after.life k g := by
  obtain ⟨moved, boot⟩ := call_step taken
  obtain ⟨_, shared, place, call, same⟩ := Life.start_step moved
  obtain ⟨_, _, bootStops, _, _⟩ := Shared.start_eq_some call
  obtain ⟨done, loaded⟩ := start_isLoaded call
  intro k g serving
  rw [bootAfter] at boot
  split at boot
  next opens =>
      obtain ⟨here, rfl⟩ := opens
      rw [serving] at boot
      cases boot
      rw [here] at call
      cases call
      rw [same]
      exact {
        loaded := congrArg _ (Function.update_self ..)
        cancelled := rfl
        ordered := ordered_cancelled (Goroutines.Ordered.of_reachable (.refl _)) nofun
        idle := ⟨fun _ => inTime here, fun _ => rfl⟩
        ended := .inl rfl }
  next closed =>
      rw [serving] at boot
      rw [same]
      exact (wired.serves k g (Option.some.inj boot)).starts done bootStops loaded

omit [DecidableEq ι] [Fintype ι] in
/-- `bootSrv.Stop` begins on the goroutines that are there. -/
theorem beginStop_eq_some {boot : Option (ι × Goroutines Addr)}
    (begins : beginStop boot = some (some (i, g'))) :
    ∃ g, boot = some (i, g) ∧ g.next .stop = some g' := by
  cases boot with
  | none => cases begins
  | some serving =>
      obtain ⟨k, g⟩ := serving
      obtain ⟨_, stops, same⟩ := Option.map_eq_some_iff.mp begins
      cases same
      exact ⟨g, rfl, stops⟩

omit [DecidableEq ι] [Fintype ι] in
/-- `bootSrv.Stop` of the call that detached the bootstrap server. -/
theorem Wired.beginStop (wired : p.Wired) {j : κ} {store : Bool}
    (here : p.life.stops j = .cancelled true store)
    (begins : Process.beginStop p.boot = some (some (i, g'))) :
    Serves { p.life with
      toShared := { p.life.toShared with bootStops := p.life.bootStops + 1 }
      stops := Function.update p.life.stops j (.stopping store) } i g' := by
  obtain ⟨g, serving, stops⟩ := beginStop_eq_some begins
  have serves := wired.serves i g serving
  have done := done_of_cancelled wired.coherent wired.owned serves.loaded here
  have orderly : g.Orderly .stop := serves.cancelled.trans done
  have ordered := serves.ordered.next orderly stops
  obtain ⟨_, same⟩ := Option.ite_none_right_eq_some.mp stops
  cases same
  exact {
    loaded := serves.loaded
    cancelled := serves.cancelled
    ordered := ordered
    idle := ⟨nofun, nofun⟩
    ended := .inr (.inr ⟨j, store, Function.update_self ..⟩) }

omit [DecidableEq Addr] [DecidableEq ι] [Fintype ι] in
/-- `bootSrv.Stop` has gone through the connections of all goroutines there are. -/
theorem Wired.endStop (wired : p.Wired) {j : κ} {store : Bool} {place : StopPlace ι}
    (here : p.life.stops j = .stopping store)
    (ends : Process.endStop p.boot = some (some (i, g'))) :
    Serves { p.life with stops := Function.update p.life.stops j place } i g' := by
  have one := wired.owned.stopping j store here
  cases serving : p.boot with
  | none =>
      rw [serving] at ends
      cases ends
  | some boot =>
      obtain ⟨k, g⟩ := boot
      have serves := wired.serves k g serving
      have busy : g.stopping ≠ .idle := fun idle => by
        rw [serves.idle.mp idle] at one
        cases one
      rw [serving, Process.endStop, if_neg busy] at ends
      obtain ⟨finished, same⟩ := Option.ite_none_right_eq_some.mp ends
      cases same
      exact {
        loaded := serves.loaded
        cancelled := serves.cancelled
        ordered := serves.ordered
        idle := serves.idle
        ended := .inr (.inl finished) }

/-- A step of `Stop` keeps the goroutines in step with the calls. -/
theorem Wired.stop (wired : p.Wired) {j : κ}
    (taken : p.Step handlers (.call (.stop j)) after) :
    ∀ i g, after.boot = some (i, g) → Serves after.life i g := by
  obtain ⟨moved, boot⟩ := call_step taken
  obtain ⟨_, shared, place, call, same⟩ := Life.stop_step moved
  intro i g serving
  rw [bootAfter, serving] at boot
  cases here : p.life.stops j with
  | detached cancel bootSrv store =>
      simp only [here] at boot call
      cases call
      obtain ⟨⟨k, old⟩, serves, cancelled⟩ := Option.map_eq_some_iff.mp (Option.some.inj boot)
      cases cancelled
      rw [same]
      have serves := wired.serves k old serves
      -- `cancel` ends the context of the goroutines that serve, if it is theirs.
      refine ⟨serves.loaded, rfl, ordered_cancelled serves.ordered fun was => ?_, serves.idle,
        (serves.stops rfl rfl (here ▸ nofun)).ended⟩
      exact Bool.or_eq_true_iff.mpr (.inl (serves.cancelled.symm.trans was))
  | cancelled bootSrv store =>
      cases bootSrv with
      | false =>
          simp only [here] at boot call
          cases call
          rw [same]
          exact (wired.serves i g (Option.some.inj boot)).stops rfl rfl (here ▸ nofun)
      | true =>
          simp only [here] at boot call
          cases call
          rw [same]
          exact wired.beginStop here boot
  | stopping store =>
      simp only [here] at boot call
      cases call
      rw [same]
      exact wired.endStop here boot
  | idle =>
      simp only [here] at boot call
      cases call
      rw [same]
      exact (wired.serves i g (Option.some.inj boot)).stops rfl rfl (here ▸ nofun)
  | stopped store =>
      simp only [here] at boot call
      cases call
      rw [same]
      exact (wired.serves i g (Option.some.inj boot)).stops (by cases store <;> rfl)
        (by cases store <;> rfl) (here ▸ nofun)
  | waiting =>
      simp only [here] at boot call
      obtain ⟨_, finished⟩ := Option.ite_none_right_eq_some.mp call
      cases finished
      rw [same]
      exact (wired.serves i g (Option.some.inj boot)).stops rfl rfl (here ▸ nofun)
  | returned =>
      simp only [here] at boot call
      cases call

/-- Every step, with the listener opened in time, keeps the process wired. -/
theorem Wired.next (wired : p.Wired) {event : Event Addr ι κ} (inTime : p.InTime event)
    (taken : p.Step handlers event after) : after.Wired := by
  cases event with
  | call move =>
      obtain ⟨moved, boot⟩ := call_step taken
      refine ⟨wired.coherent.next moved, (wired.owned.next moved).1, ?_⟩
      cases move with
      | start i listens => exact wired.start inTime taken
      | stop j => exact wired.stop taken
      | watcher i =>
          obtain ⟨_, same⟩ := Option.ite_none_right_eq_some.mp moved
          intro k g serving
          rw [serving] at boot
          rw [← Option.some.inj same]
          exact (wired.serves k g (Option.some.inj boot)).starts rfl rfl fun _ => rfl
  | boot move =>
      obtain ⟨free, moved⟩ := Option.ite_none_left_eq_some.mp taken
      obtain ⟨⟨i, g⟩, serving, stepped⟩ := Option.bind_eq_some_iff.mp moved
      obtain ⟨g', own, rfl⟩ := Option.map_eq_some_iff.mp stepped
      refine ⟨wired.coherent, wired.owned, fun k other same => ?_⟩
      cases same
      have isOwn : isOwn move = true := Bool.eq_true_of_not_eq_false fun foreign =>
        free (.inr foreign)
      exact (wired.serves i g serving).own isOwn own

/-- The process is wired in every run in which the listener is opened in time. -/
theorem Wired.of_reachable (reached : Reachable (Guarded (Step handlers) InTime) new p) :
    p.Wired :=
  reached.invariant Wired ⟨.ofNew, .ofNew, nofun⟩ fun _ _ _ wired taken =>
    wired.next taken.1 taken.2

end Process

/-- One call of `Start`, a client that connects, and one call of `Stop`, with what the bootstrap
server does in between. -/
def sampleEvents : List (Event Nat Unit Unit) :=
  [.call (.start () true), .call (.start () true), .call (.start () true), .call (.start () true),
    .call (.start () true), .boot .accepting, .boot (.accept 7), .boot (.register 0),
    .boot (.proceed 0), .call (.stop ()), .call (.stop ()), .call (.stop ()),
    .boot (.stopClient 0), .boot .clear, .boot .stopListener, .call (.stop ()), .call (.stop ()),
    .call (.watcher ()), .call (.stop ())]

/-- The sample run of a whole process, up to the return of `Stop`. -/
theorem sampleEvents_reachable :
    Reachable (Guarded (Process.Step fun _ => ⟨0, .returned, true⟩) Process.InTime) Process.new
      ⟨stopped, some ((), Bootstrap.oneStopped)⟩ :=
  .of_foldlM (show sampleEvents.foldlM _ _ = _ from rfl)

section Results

variable {Addr ι κ : Type*} [DecidableEq Addr] [DecidableEq ι] [DecidableEq κ] [Fintype ι]
  [Fintype κ] {handlers : Nat → Bootstrap.Handler Addr}

open Process

end Results

end P2pMesh.Server

import P2pMesh.Foundation.Program
import P2pMesh.Foundation.Slice
import P2pMesh.HolePunch.Priority
import Mathlib.Data.List.Perm.Basic

/-! # The ladder of strategies

`EstablishPath` of `internal/holepunch/matrix.go` and the strategies that it tries, as programs
that make requests to the network and, where goroutines write to one socket, to the
scheduler. What is proved holds for all answers.

The strategies that fit the peer are tried in their order, the first that succeeds is the
result, and there is an error only after all of them have failed
(`P2pMesh.HolePunch.establishPath_ladder`). Every socket that is opened is closed again, that
of the strategy that succeeds included (`P2pMesh.HolePunch.establishPath_closes`). The prediction
writes from one socket, once to each port of the first part of the range, whatever the
scheduler does (`P2pMesh.HolePunch.tryUDPPredict_ports`).
-/

namespace P2pMesh.HolePunch

open Foundation Program

/-- `Strategy`. -/
inductive Strategy where
  | ipv6Direct
  | udpStandard
  | udpPredict
  | tcpSimultaneous
  | turnRelay
deriving DecidableEq, Repr

/-- The names of the strategies. -/
def Strategy.text : Strategy → Bytes
  | .ipv6Direct => ascii "ipv6_direct"
  | .udpStandard => ascii "udp_standard"
  | .udpPredict => ascii "udp_predict"
  | .tcpSimultaneous => ascii "tcp_simultaneous"
  | .turnRelay => ascii "turn_relay"

/-- The other fields of `PeerInfo`. -/
structure Target extends PeerInfo where
  ipv6 : Bytes
  publicAddr : Bytes
  natType : Bytes
  predictRange : Int × Int

/-- An address of the network. -/
structure Endpoint where
  ip : Bytes
  port : Int
deriving DecidableEq

/-- A socket; one that only listens has no remote address. -/
structure Conn where
  id : Nat
  localAddr : Endpoint
  remoteAddr : Option Endpoint

/-- What a strategy fails with. -/
inductive PunchError where
  | cause (text : Bytes)
  | invalidRange (lo hi : Int)
  | unknownStrategy (strategy : Strategy)

/-- `PunchResult`. -/
structure PunchResult where
  strategy : Strategy
  success : Bool
  localAddr : Option Endpoint
  remoteAddr : Option Endpoint
  error : Option PunchError

/-- The result of a strategy that fails. -/
def failure (strategy : Strategy) (error : PunchError) : PunchResult :=
  ⟨strategy, false, none, none, some error⟩

/-- How a socket is opened: `net.DialTimeout` with the network `udp` or `tcp`, or
`net.ListenUDP` at the zero address. -/
inductive Opening where
  | dialUDP (addr : Bytes)
  | dialTCP (addr : Bytes)
  | listenUDP

/-- What a strategy asks of the network and of the scheduler. -/
inductive PunchOp where
  | opens (how : Opening)
  /-- `net.ResolveUDPAddr`. -/
  | resolve (addr : Bytes)
  | write (conn : Conn) (payload : Bytes)
  | writeTo (conn : Conn) (payload : Bytes) (dest : Endpoint)
  | read (conn : Conn)
  | readFrom (conn : Conn)
  | close (conn : Conn)
  /-- Which goroutine runs next, of one and this number of others. -/
  | schedule (others : Nat)

/-- The answer of a request; the text of an error is a byte string. -/
abbrev PunchOp.Answer : PunchOp → Type
  | .opens _ => Except Bytes Conn
  | .resolve _ | .readFrom _ => Except Bytes Endpoint
  | .write .. | .writeTo .. | .read _ | .close _ => Option Bytes
  | .schedule others => Fin (others + 1)

/-- A program that punches holes. -/
abbrev Punch := Program PunchOp PunchOp.Answer

/-- The requests of a run with their answers. -/
abbrev Trace := List (Sigma PunchOp.Answer)

/-- The matrix; its constructor replaces a budget that is not positive. -/
structure StrategyMatrix where
  parallelBudget : Int
  positive : 0 < parallelBudget

/-- `NewStrategyMatrix`. -/
def newStrategyMatrix (parallelBudget : Int) : StrategyMatrix :=
  if given : parallelBudget ≤ 0 then ⟨64, by decide⟩ else ⟨parallelBudget, by omega⟩

/-- The payload of every probe. -/
def probe : Bytes := ascii "p2pmesh-probe"

/-- A strategy with a socket: it fails with the error of opening it, and closes it at the
end. -/
def withConn (strategy : Strategy) (how : Opening) (body : Conn → Punch PunchResult) :
    Punch PunchResult := do
  match ← call (PunchOp.opens how) with
  | .error cause => pure (failure strategy (.cause cause))
  | .ok conn => deferring (.close conn) (body conn)

/-- `tryIPv6Direct`. -/
def tryIPv6Direct (target : Target) : Punch PunchResult :=
  let addr := ascii "[" ++ target.ipv6 ++ ascii "]:29683"
  withConn .ipv6Direct (.dialUDP addr) fun conn => do
    match ← call (PunchOp.write conn probe) with
    | some cause => pure (failure .ipv6Direct (.cause cause))
    | none =>
        match ← call (PunchOp.read conn) with
        | some cause => pure (failure .ipv6Direct (.cause cause))
        | none => pure ⟨.ipv6Direct, true, some conn.localAddr, conn.remoteAddr, none⟩

/-- `tryUDPStandard`. -/
def tryUDPStandard (target : Target) : Punch PunchResult :=
  withConn .udpStandard .listenUDP fun conn => do
    match ← call (PunchOp.resolve target.publicAddr) with
    | .error cause => pure (failure .udpStandard (.cause cause))
    | .ok peerAddr =>
        match ← call (PunchOp.writeTo conn probe peerAddr) with
        | some cause => pure (failure .udpStandard (.cause cause))
        | none =>
            match ← call (PunchOp.readFrom conn) with
            | .error cause => pure (failure .udpStandard (.cause cause))
            -- The sender of the datagram is not looked at.
            | .ok _ => pure ⟨.udpStandard, true, some conn.localAddr, some peerAddr, none⟩

/-- The goroutines that write to the ports that are left, in the order of the scheduler. -/
def fanOut (conn : Conn) (ip : Bytes) (ports : List Int) : Punch Unit :=
  match ports with
  | [] => pure ()
  | port :: others => do
      let i ← call (PunchOp.schedule others.length)
      let _ ← call (PunchOp.writeTo conn probe ⟨ip, (port :: others)[i]⟩)
      fanOut conn ip ((port :: others).eraseIdx i)
termination_by ports.length
decreasing_by
  have inside : i.1 < (port :: others).length := i.2
  rw [List.length_eraseIdx_of_lt inside]
  exact Nat.sub_lt (Nat.succ_pos _) Nat.one_pos

/-- The number of ports that are tried. -/
def width (m : StrategyMatrix) (lo hi : Int) : Int :=
  if m.parallelBudget < hi - lo + 1 then m.parallelBudget else hi - lo + 1

/-- The bytes of an `attempt`, which has an `int` and an `error`. -/
def attemptSize : Nat := 24

/-- The bytes that a channel takes beside its buffer. -/
def hchanSize : Nat := 96

/-- The first ports of the range, as many as are tried. -/
def predictedPorts (m : StrategyMatrix) (lo hi : Int) : List Int :=
  (List.range (width m lo hi).toNat).map fun i : Nat => lo + i

/-- `tryUDPPredict`, where `make(chan attempt, width)` does not panic (`makes_attempts_iff`). -/
def tryUDPPredict (m : StrategyMatrix) (target : Target) : Punch PunchResult :=
  withConn .udpPredict .listenUDP fun conn => do
    let lo := target.predictRange.1
    let hi := target.predictRange.2
    if lo ≤ 0 ∨ hi ≤ 0 ∨ hi < lo then pure (failure .udpPredict (.invalidRange lo hi))
    else
      match ← call (PunchOp.resolve target.publicAddr) with
      | .error cause => pure (failure .udpPredict (.cause cause))
      | .ok peerAddr =>
          fanOut conn peerAddr.ip (predictedPorts m lo hi)
          match ← call (PunchOp.readFrom conn) with
          | .error cause => pure (failure .udpPredict (.cause cause))
          | .ok remote => pure ⟨.udpPredict, true, some conn.localAddr, some remote, none⟩

/-- `tryTCPSimultaneous`. -/
def tryTCPSimultaneous (target : Target) : Punch PunchResult :=
  withConn .tcpSimultaneous (.dialTCP target.publicAddr) fun conn =>
    pure ⟨.tcpSimultaneous, true, some conn.localAddr, conn.remoteAddr, none⟩

/-- `tryStrategy`. -/
def tryStrategy (m : StrategyMatrix) (s : Strategy) (target : Target) : Punch PunchResult :=
  match s with
  | .ipv6Direct => tryIPv6Direct target
  | .udpStandard => tryUDPStandard target
  | .udpPredict => tryUDPPredict m target
  | .tcpSimultaneous => tryTCPSimultaneous target
  | .turnRelay => pure (failure .turnRelay (.unknownStrategy .turnRelay))

/-- The strategies that the loop passes over. -/
def skips (target : Target) : Strategy → Bool
  | .ipv6Direct => target.ipv6 = []
  | .udpStandard => target.natType = ascii "Symmetric"
  | .udpPredict => target.predictRange.2 = 0
  | _ => false

/-- The loop of `EstablishPath`; without a result all strategies have failed. -/
def tryAll (m : StrategyMatrix) (target : Target) : List Strategy → Punch (Option PunchResult)
  | [] => pure none
  | s :: strategies =>
      if skips target s then tryAll m target strategies
      else do
        let result ← tryStrategy m s target
        if result.success then pure (some result) else tryAll m target strategies

/-- The ladder of `EstablishPath`. -/
def strategies : List Strategy :=
  [.ipv6Direct, .udpStandard, .udpPredict, .tcpSimultaneous]

/-- `EstablishPath`; its error has the node ID of the peer. -/
def establishPath (m : StrategyMatrix) (target : Target) : Punch (Except Bytes PunchResult) := do
  match ← tryAll m target strategies with
  | some result => pure (.ok result)
  | none => pure (.error (ascii "all strategies failed for peer " ++ target.nodeID))

section Sockets

/-- The socket that a request opened. -/
def opened : Sigma PunchOp.Answer → Option Nat
  | ⟨.opens _, .ok conn⟩ => some conn.id
  | _ => none

/-- The socket that a request closed. -/
def closed : Sigma PunchOp.Answer → Option Nat
  | ⟨.close conn, _⟩ => some conn.id
  | _ => none

/-- Requests that open and close nothing. -/
def Quiet : PunchOp → Prop
  | .opens _ | .close _ => False
  | _ => True

/-- Quiet requests open and close nothing. -/
theorem filterMap_quiet {trace : Trace} (quiet : ∀ event ∈ trace, Quiet event.1) :
    trace.filterMap opened = [] ∧ trace.filterMap closed = [] := by
  constructor
  · refine List.filterMap_eq_nil_iff.mpr fun ⟨op, answer⟩ member => ?_
    have own := quiet _ member
    cases op <;> first | rfl | exact own.elim
  · refine List.filterMap_eq_nil_iff.mpr fun ⟨op, answer⟩ member => ?_
    have own := quiet _ member
    cases op <;> first | rfl | exact own.elim

/-- A result of a strategy that has used a socket. -/
structure From (strategy : Strategy) (conn : Conn) (result : PunchResult) : Prop where
  strategy : result.strategy = strategy
  localAddr : result.success = true → result.localAddr = some conn.localAddr

/-- What an attempt has done: it has closed what it has opened, and if it succeeds, the
local address of its result is that of a socket that is closed. -/
structure Attempt (strategy : Strategy) (trace : Trace) (result : PunchResult) : Prop where
  strategy : result.strategy = strategy
  closes : trace.filterMap opened = trace.filterMap closed
  localAddr : result.success = true → ∃ conn answer,
    (⟨.close conn, answer⟩ : Sigma PunchOp.Answer) ∈ trace ∧
      result.localAddr = some conn.localAddr

/-- A failure claims no local address. -/
theorem failure_from (strategy : Strategy) (conn : Conn) (error : PunchError) :
    From strategy conn (failure strategy error) :=
  ⟨rfl, nofun⟩

variable {trace : Trace} {result : PunchResult} {target : Target}

/-- A strategy that works on one socket closes it, whatever its body does, if the body itself is
quiet. -/
theorem withConn_attempt {strategy : Strategy} {how : Opening} {body : Conn → Punch PunchResult}
    (always : ∀ conn, (body conn).Always Quiet (From strategy conn))
    (run : Traces (withConn strategy how body) trace result) : Attempt strategy trace result := by
  obtain ⟨answer, rest, rfl, used⟩ := traces_call_bind.mp run
  cases answer with
  | error cause =>
      obtain ⟨rfl, rfl⟩ := traces_pure.mp used
      exact ⟨rfl, rfl, nofun⟩
  | ok conn =>
      obtain ⟨inner, answer, rfl, inside⟩ := traces_deferring.mp used
      obtain ⟨quiet, made⟩ := (always conn).of_traces inside
      obtain ⟨opens, closes⟩ := filterMap_quiet quiet
      refine ⟨made.strategy, ?_, fun success => ⟨conn, answer, ?_, made.localAddr success⟩⟩
      · rw [List.filterMap_cons, List.filterMap_cons, List.filterMap_append, List.filterMap_append,
          opens, closes]
        rfl
      · exact List.mem_cons_of_mem _ (List.mem_append_right _ List.mem_cons_self)

/-- The direct attempt over IPv6 closes what it opens. -/
theorem tryIPv6Direct_attempt (run : Traces (tryIPv6Direct target) trace result) :
    Attempt .ipv6Direct trace result := by
  refine withConn_attempt (fun conn => ?_) run
  refine always_call_bind trivial fun answer => ?_
  cases answer with
  | some cause => exact always_pure (failure_from _ _ _)
  | none =>
      refine always_call_bind trivial fun answer => ?_
      cases answer with
      | some cause => exact always_pure (failure_from _ _ _)
      | none => exact always_pure ⟨rfl, fun _ => rfl⟩

/-- The standard UDP attempt closes what it opens. -/
theorem tryUDPStandard_attempt (run : Traces (tryUDPStandard target) trace result) :
    Attempt .udpStandard trace result := by
  refine withConn_attempt (fun conn => ?_) run
  refine always_call_bind trivial fun answer => ?_
  cases answer with
  | error cause => exact always_pure (failure_from _ _ _)
  | ok peerAddr =>
      refine always_call_bind trivial fun answer => ?_
      cases answer with
      | some cause => exact always_pure (failure_from _ _ _)
      | none =>
          refine always_call_bind trivial fun answer => ?_
          cases answer with
          | error cause => exact always_pure (failure_from _ _ _)
          | ok remote => exact always_pure ⟨rfl, fun _ => rfl⟩

/-- The goroutines of a prediction write to one socket and open none. -/
theorem fanOut_quiet {post : Unit → Prop} (holds : post ()) (conn : Conn) (ip : Bytes)
    (ports : List Int) : (fanOut conn ip ports).Always Quiet post := by
  induction ports using fanOut.induct with
  | case1 =>
      rw [fanOut]
      exact always_pure holds
  | case2 port others ih =>
      rw [fanOut]
      exact always_call_bind trivial fun i => always_call_bind trivial fun _ => ih i

/-- The attempt with predicted ports closes what it opens. -/
theorem tryUDPPredict_attempt {m : StrategyMatrix}
    (run : Traces (tryUDPPredict m target) trace result) : Attempt .udpPredict trace result := by
  refine withConn_attempt (fun conn => ?_) run
  dsimp only
  split
  · exact always_pure (failure_from _ _ _)
  · refine always_call_bind trivial fun answer => ?_
    cases answer with
    | error cause => exact always_pure (failure_from _ _ _)
    | ok peerAddr =>
        refine always_bind (fanOut_quiet ?_ conn peerAddr.ip _)
        refine always_call_bind trivial fun answer => ?_
        cases answer with
        | error cause => exact always_pure (failure_from _ _ _)
        | ok remote => exact always_pure ⟨rfl, fun _ => rfl⟩

/-- Every strategy closes what it opens, and a success names a socket that is closed. -/
theorem tryStrategy_attempt {m : StrategyMatrix} {s : Strategy}
    (run : Traces (tryStrategy m s target) trace result) : Attempt s trace result := by
  cases s with
  | ipv6Direct => exact tryIPv6Direct_attempt run
  | udpStandard => exact tryUDPStandard_attempt run
  | udpPredict => exact tryUDPPredict_attempt run
  | tcpSimultaneous => exact withConn_attempt (fun conn => always_pure ⟨rfl, fun _ => rfl⟩) run
  | turnRelay =>
      obtain ⟨rfl, rfl⟩ := traces_pure.mp run
      exact ⟨rfl, rfl, nofun⟩

end Sockets

section Samples

/-- A peer behind a symmetric NAT, with a range of two ports. -/
def sampleTarget : Target where
  nodeID := ascii "a"
  roomID := []
  joinedAt := 0
  ipv6 := []
  publicAddr := ascii "203.0.113.7:4000"
  natType := ascii "Symmetric"
  predictRange := (4001, 4002)

/-- The socket of the sample runs. -/
def sampleConn : Conn := ⟨5, ⟨[], 50000⟩, none⟩

/-- The goroutine of the second port writes first. -/
def sampleWrites : Trace :=
  [⟨.schedule 1, (1 : Fin 2)⟩, ⟨.writeTo sampleConn probe ⟨[], 4002⟩, none⟩,
    ⟨.schedule 0, (0 : Fin 1)⟩, ⟨.writeTo sampleConn probe ⟨[], 4001⟩, none⟩]

/-- The prediction has no answer. -/
def samplePrediction : Trace :=
  ⟨.opens .listenUDP, .ok sampleConn⟩ ::
    (⟨.resolve sampleTarget.publicAddr, .ok ⟨[], 4000⟩⟩ ::
      (sampleWrites ++ [⟨.readFrom sampleConn, .error (ascii "i/o timeout")⟩]) ++
        [⟨.close sampleConn, none⟩])

/-- The peer accepts a TCP connection. -/
def sampleTCP : Trace :=
  ⟨.opens (.dialTCP sampleTarget.publicAddr), .ok sampleConn⟩ :: ([] ++ [⟨.close sampleConn, none⟩])

/-- The result of the sample run: TCP has succeeded. -/
def sampleResult : PunchResult :=
  ⟨.tcpSimultaneous, true, some ⟨[], 50000⟩, none, none⟩

/-- The goroutines of two ports may write in either order. -/
theorem sampleWrites_traces : Traces (fanOut sampleConn [] [4001, 4002]) sampleWrites () := by
  rw [fanOut]
  refine traces_call_bind.mpr ⟨1, _, rfl, traces_call_bind.mpr ⟨none, _, rfl, ?_⟩⟩
  change Traces (fanOut sampleConn [] [4001]) _ ()
  rw [fanOut]
  refine traces_call_bind.mpr ⟨0, _, rfl, traces_call_bind.mpr ⟨none, _, rfl, ?_⟩⟩
  change Traces (fanOut sampleConn [] []) _ ()
  rw [fanOut]
  exact traces_pure.mpr ⟨rfl, rfl⟩

/-- The sample prediction, which is not answered, is a run of `tryUDPPredict`. -/
theorem samplePrediction_traces :
    Traces (tryUDPPredict (newStrategyMatrix 0) sampleTarget) samplePrediction
      (failure .udpPredict (.cause (ascii "i/o timeout"))) :=
  traces_call_bind.mpr ⟨.ok sampleConn, _, rfl, traces_deferring.mpr ⟨_, none, rfl,
    traces_call_bind.mpr ⟨.ok ⟨[], 4000⟩, _, rfl, traces_bind.mpr ⟨(), sampleWrites, _, rfl,
      sampleWrites_traces, traces_call_bind.mpr ⟨.error (ascii "i/o timeout"), _, rfl,
        traces_pure.mpr ⟨rfl, rfl⟩⟩⟩⟩⟩⟩

/-- The sample run, a prediction that fails and a TCP attempt that succeeds, is one of
`EstablishPath`. -/
theorem sample_traces :
    Traces (establishPath (newStrategyMatrix 0) sampleTarget)
      ((samplePrediction ++ (sampleTCP ++ [])) ++ []) (.ok sampleResult) :=
  traces_bind.mpr ⟨some sampleResult, _, _, rfl, traces_bind.mpr ⟨_, samplePrediction, _, rfl,
    samplePrediction_traces, traces_bind.mpr ⟨sampleResult, sampleTCP, _, rfl,
      traces_call_bind.mpr ⟨.ok sampleConn, _, rfl, traces_deferring.mpr ⟨[], none, rfl,
        traces_pure.mpr ⟨rfl, rfl⟩⟩⟩, traces_pure.mpr ⟨rfl, rfl⟩⟩⟩,
          traces_pure.mpr ⟨rfl, rfl⟩⟩

end Samples

section Ladder

variable {m : StrategyMatrix} {target : Target}

/-- The strategies that fit a peer, in their order. -/
def applicable (target : Target) : List Strategy :=
  strategies.filter fun s => !skips target s

/-- A sequence of attempts at the strategies `ladder`: the results with their traces, those
before the last being failures. -/
structure Climb (m : StrategyMatrix) (target : Target) (ladder : List Strategy) (trace : Trace)
    (result : Option PunchResult) (failed : List (PunchResult × Trace)) : Prop where
  attempts : ∀ attempt ∈ failed,
    Traces (tryStrategy m attempt.1.strategy target) attempt.2 attempt.1 ∧
      attempt.1.success = false
  /-- Without a result, all strategies have failed. -/
  exhausted : result = none →
    failed.map (·.1.strategy) = ladder ∧ trace = failed.flatMap Prod.snd
  /-- A result is that of the strategy after those that have failed. -/
  succeeded : ∀ r, result = some r → r.success = true ∧
    failed.map (·.1.strategy) ++ [r.strategy] <+: ladder ∧
      ∃ last, Traces (tryStrategy m r.strategy target) last r ∧
        trace = failed.flatMap Prod.snd ++ last

/-- The ladder tries the strategies that are not skipped in their order, up to the first success. -/
theorem tryAll_climb {ladder : List Strategy} {trace : Trace} {result : Option PunchResult}
    (run : Traces (tryAll m target ladder) trace result) :
    ∃ failed, Climb m target (ladder.filter fun s => !skips target s) trace result failed := by
  induction ladder generalizing trace with
  | nil =>
      obtain ⟨rfl, rfl⟩ := traces_pure.mp run
      exact ⟨[], List.forall_mem_nil _, fun _ => ⟨rfl, rfl⟩,
        fun r same => absurd same (Option.some_ne_none r).symm⟩
  | cons s ladder ih =>
      rw [tryAll] at run
      by_cases skipped : skips target s = true
      · rw [if_pos skipped] at run
        rw [List.filter_cons_of_neg (by simp [skipped])]
        exact ih run
      · rw [if_neg skipped] at run
        rw [List.filter_cons_of_pos (by simp [skipped])]
        obtain ⟨tried, first, second, rfl, attempt, rest⟩ := traces_bind.mp run
        have own := (tryStrategy_attempt attempt).strategy
        have ran : Traces (tryStrategy m tried.strategy target) first tried := by
          rw [own]
          exact attempt
        by_cases success : tried.success = true
        · -- The first success ends the ladder; what follows it is not tried.
          rw [if_pos success] at rest
          obtain ⟨rfl, rfl⟩ := traces_pure.mp rest
          refine ⟨[], List.forall_mem_nil _, fun none => absurd none (Option.some_ne_none _),
            fun r same => ?_⟩
          cases same
          refine ⟨success, ?_, first, ran, List.append_nil first⟩
          rw [List.map_nil, List.nil_append, own]
          exact List.prefix_append [s] _
        · rw [if_neg success] at rest
          obtain ⟨failed, climb⟩ := ih rest
          refine ⟨(tried, first) :: failed, ?_, ?_, ?_⟩
          · refine List.forall_mem_cons.mpr ⟨⟨ran, ?_⟩, climb.attempts⟩
            exact Bool.eq_false_of_not_eq_true success
          · intro none
            obtain ⟨all, traced⟩ := climb.exhausted none
            exact ⟨by rw [List.map_cons, own, all], by rw [List.flatMap_cons, traced]⟩
          · intro r same
            obtain ⟨succeeded, climbed, last, lastRun, traced⟩ := climb.succeeded r same
            refine ⟨succeeded, ?_, last, lastRun, ?_⟩
            · rw [List.map_cons, own, List.cons_append]
              exact (List.prefix_cons_inj s).mpr climbed
            · rw [traced, List.flatMap_cons, List.append_assoc]

/-- The strategies that fit the peer are tried in their order, each once. `EstablishPath`
returns the result of the first that succeeds, and an error only after all of them have
failed; TCP is always among them. -/
theorem establishPath_ladder {trace : Trace} {result : Except Bytes PunchResult}
    (run : Traces (establishPath m target) trace result) :
    Strategy.tcpSimultaneous ∈ applicable target ∧
      ∃ failed, Climb m target (applicable target) trace result.toOption failed := by
  refine ⟨List.mem_filter.mpr ⟨by decide, rfl⟩, ?_⟩
  obtain ⟨answer, first, second, rfl, climbs, rest⟩ := traces_bind.mp run
  obtain ⟨failed, climb⟩ := tryAll_climb climbs
  cases answer with
  | none =>
      obtain ⟨rfl, rfl⟩ := traces_pure.mp rest
      rw [List.append_nil]
      exact ⟨failed, climb⟩
  | some r =>
      obtain ⟨rfl, rfl⟩ := traces_pure.mp rest
      rw [List.append_nil]
      exact ⟨failed, climb⟩

/-- The prediction fails before TCP succeeds. -/
theorem establishPath_ladder_sample :
    Strategy.tcpSimultaneous ∈ applicable sampleTarget ∧
      ∃ failed, Climb (newStrategyMatrix 0) sampleTarget (applicable sampleTarget)
        (samplePrediction ++ (sampleTCP ++ []) ++ []) (some sampleResult) failed :=
  establishPath_ladder sample_traces

/-- A sequence of attempts closes what it opens. -/
theorem closes_flatMap {failed : List (PunchResult × Trace)}
    (attempts : ∀ attempt ∈ failed, ∃ s, Attempt s attempt.2 attempt.1) :
    (failed.flatMap Prod.snd).filterMap opened = (failed.flatMap Prod.snd).filterMap closed := by
  induction failed with
  | nil => rfl
  | cons attempt failed ih =>
      obtain ⟨⟨s, own⟩, rest⟩ := List.forall_mem_cons.mp attempts
      rw [List.flatMap_cons, List.filterMap_append, List.filterMap_append, own.closes, ih rest]

/-- Every socket that was opened is closed when `EstablishPath` returns. The local address of
its result is that of a socket that is closed. -/
theorem establishPath_closes {trace : Trace} {result : Except Bytes PunchResult}
    (run : Traces (establishPath m target) trace result) :
    trace.filterMap opened = trace.filterMap closed ∧
      ∀ r, result = .ok r → ∃ conn answer,
        (⟨.close conn, answer⟩ : Sigma PunchOp.Answer) ∈ trace ∧
          r.localAddr = some conn.localAddr := by
  obtain ⟨answer, first, second, rfl, climbs, rest⟩ := traces_bind.mp run
  obtain ⟨failed, climb⟩ := tryAll_climb climbs
  have balanced := closes_flatMap fun attempt member =>
    ⟨_, tryStrategy_attempt (climb.attempts attempt member).1⟩
  cases answer with
  | none =>
      obtain ⟨rfl, rfl⟩ := traces_pure.mp rest
      rw [List.append_nil, (climb.exhausted rfl).2]
      exact ⟨balanced, nofun⟩
  | some r =>
      obtain ⟨rfl, rfl⟩ := traces_pure.mp rest
      obtain ⟨success, _, last, lastRun, traced⟩ := climb.succeeded r rfl
      have own := tryStrategy_attempt lastRun
      rw [List.append_nil, traced]
      refine ⟨by rw [List.filterMap_append, List.filterMap_append, balanced, own.closes], ?_⟩
      rintro _ ⟨⟩
      obtain ⟨conn, answer, member, same⟩ := own.localAddr success
      exact ⟨conn, answer, List.mem_append_right _ member, same⟩

/-- The address in the sample result is that of a socket that is closed. -/
theorem establishPath_closes_sample :
    ∃ conn answer, (⟨.close conn, answer⟩ : Sigma PunchOp.Answer) ∈
        samplePrediction ++ (sampleTCP ++ []) ++ [] ∧
      sampleResult.localAddr = some conn.localAddr :=
  (establishPath_closes sample_traces).2 sampleResult rfl

end Ladder

section Prediction

/-- The socket and the destination of a datagram. -/
def written : Sigma PunchOp.Answer → Option (Nat × Endpoint)
  | ⟨.writeTo conn _ dest, _⟩ => some (conn.id, dest)
  | _ => none

/-- Whatever the scheduler does, the goroutines write once to each of the ports. -/
theorem fanOut_perm {conn : Conn} {ip : Bytes} {ports : List Int} {trace : Trace}
    (run : Traces (fanOut conn ip ports) trace ()) :
    (trace.filterMap written).Perm (ports.map fun port => (conn.id, ⟨ip, port⟩)) := by
  induction ports using fanOut.induct generalizing trace with
  | case1 =>
      rw [fanOut] at run
      obtain ⟨rfl, _⟩ := traces_pure.mp run
      exact .refl _
  | case2 port others ih =>
      rw [fanOut] at run
      obtain ⟨i, rest, rfl, chosen⟩ := traces_call_bind.mp run
      obtain ⟨answer, later, rfl, written⟩ := traces_call_bind.mp chosen
      have inside : i.1 < (port :: others).length := i.2
      have reordered := List.getElem_cons_eraseIdx_perm inside
      exact ((ih i written).cons _).trans
        (reordered.map fun port => (conn.id, (⟨ip, port⟩ : Endpoint)))

/-- The predicted ports are in the range. -/
theorem mem_predictedPorts {m : StrategyMatrix} {lo hi port : Int}
    (member : port ∈ predictedPorts m lo hi) : lo ≤ port ∧ port ≤ hi := by
  obtain ⟨i, inside, rfl⟩ := List.mem_map.mp member
  rw [List.mem_range, width] at inside
  split at inside <;> omega

/-- No port is predicted twice. -/
theorem nodup_predictedPorts (m : StrategyMatrix) (lo hi : Int) :
    (predictedPorts m lo hi).Nodup := by
  refine List.nodup_range.map fun i j same => ?_
  exact Int.ofNat_inj.mp (Int.add_left_cancel same)

/-- As many ports are predicted as the range has, up to the budget. -/
theorem length_predictedPorts (m : StrategyMatrix) {lo hi : Int} (ordered : lo ≤ hi) :
    ((predictedPorts m lo hi).length : Int) = min m.parallelBudget (hi - lo + 1) := by
  have positive := m.positive
  rw [predictedPorts, List.length_map, List.length_range, width]
  split <;> omega

/-- The channel of the attempts can be made if the memory for them can be allocated. -/
theorem makes_attempts_iff (m : StrategyMatrix) {lo hi : Int} (ordered : lo ≤ hi)
    (maxAlloc : Nat) :
    Makes (maxAlloc - hchanSize) attemptSize (width m lo hi) ↔
      attemptSize * min m.parallelBudget (hi - lo + 1) ≤ (maxAlloc - hchanSize : Nat) := by
  have positive := m.positive
  have same : width m lo hi = min m.parallelBudget (hi - lo + 1) := by
    rw [width]
    split <;> omega
  rw [Makes, same]
  exact and_iff_right (by omega)

/-- The prediction fails without a datagram, or it writes from one socket to one address,
once to each of as many ports of the range as the budget allows. The channel for the attempts
can be made where the platform allocates the memory for as many. -/
theorem tryUDPPredict_ports {m : StrategyMatrix} {target : Target} {trace : Trace}
    {result : PunchResult} (run : Traces (tryUDPPredict m target) trace result) :
    (trace.filterMap written = [] ∧ result.success = false) ∨
      ∃ (conn : Nat) (ip : Bytes) (ports : List Int), (trace.filterMap written).Perm
          (ports.map fun port => (conn, (⟨ip, port⟩ : Endpoint))) ∧
        ports.Nodup ∧ (∀ port ∈ ports, 0 < port ∧ target.predictRange.1 ≤ port ∧
          port ≤ target.predictRange.2) ∧
        (ports.length : Int) = min m.parallelBudget
          (target.predictRange.2 - target.predictRange.1 + 1) ∧
        ∀ maxAlloc : Nat, Makes (maxAlloc - hchanSize) attemptSize
            (width m target.predictRange.1 target.predictRange.2) ↔
          attemptSize * ports.length ≤ maxAlloc - hchanSize := by
  obtain ⟨answer, rest, rfl, used⟩ := traces_call_bind.mp run
  cases answer with
  | error cause =>
      obtain ⟨rfl, rfl⟩ := traces_pure.mp used
      exact .inl ⟨rfl, rfl⟩
  | ok conn =>
  obtain ⟨inner, closes, rfl, inside⟩ := traces_deferring.mp used
  rw [List.filterMap_cons, List.filterMap_append]
  dsimp only at inside
  split at inside
  next invalid =>
      obtain ⟨rfl, rfl⟩ := traces_pure.mp inside
      exact .inl ⟨rfl, rfl⟩
  next valid =>
      obtain ⟨answer, later, rfl, resolved⟩ := traces_call_bind.mp inside
      cases answer with
      | error cause =>
          obtain ⟨rfl, rfl⟩ := traces_pure.mp resolved
          exact .inl ⟨rfl, rfl⟩
      | ok peerAddr =>
          obtain ⟨_, fanned, last, rfl, sends, waits⟩ := traces_bind.mp resolved
          obtain ⟨answer, ended, rfl, reads⟩ := traces_call_bind.mp waits
          -- After the fan-out the attempt waits for an answer and writes nothing more.
          have silent : ended.filterMap written = [] := by
            cases answer with
            | error cause =>
                obtain ⟨rfl, _⟩ := traces_pure.mp reads
                rfl
            | ok remote =>
                obtain ⟨rfl, _⟩ := traces_pure.mp reads
                rfl
          have ordered : target.predictRange.1 ≤ target.predictRange.2 := by omega
          have several := length_predictedPorts m ordered
          refine .inr ⟨conn.id, peerAddr.ip, _, ?_, nodup_predictedPorts m _ _, ?_, several,
            fun maxAlloc => ?_⟩
          · have closing : [⟨.close conn, closes⟩].filterMap written = [] := rfl
            rw [List.filterMap_cons, List.filterMap_append, List.filterMap_cons, silent, closing]
            simpa [written] using fanOut_perm sends
          · intro port member
            have bounds := mem_predictedPorts member
            exact ⟨by omega, bounds⟩
          · rw [makes_attempts_iff m ordered, ← several]
            exact Int.ofNat_le

/-- The sample prediction writes to the two ports of its range. -/
theorem tryUDPPredict_ports_sample :
    (samplePrediction.filterMap written = [] ∧
      (failure .udpPredict (.cause (ascii "i/o timeout"))).success = false) ∨
      ∃ (conn : Nat) (ip : Bytes) (ports : List Int), (samplePrediction.filterMap written).Perm
          (ports.map fun port => (conn, (⟨ip, port⟩ : Endpoint))) ∧
        ports.Nodup ∧ (∀ port ∈ ports, 0 < port ∧ 4001 ≤ port ∧ port ≤ 4002) ∧
        (ports.length : Int) = min 64 (4002 - 4001 + 1) ∧
        ∀ maxAlloc : Nat, Makes (maxAlloc - hchanSize) attemptSize
            (width (newStrategyMatrix 0) 4001 4002) ↔
          attemptSize * ports.length ≤ maxAlloc - hchanSize :=
  tryUDPPredict_ports samplePrediction_traces

end Prediction

end P2pMesh.HolePunch

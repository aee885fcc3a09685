import P2pMesh.PortControl.Scanner
import Mathlib.Data.Finset.Card

/-! # Scan detection against the history

The scanner keeps the last time of each port, prunes on probes, and drops the entries of a
source when it blacklists it and again when the blacklisting is over. What it returns is
compared with the whole history of returns: the blacklistings of a source and the ports that it
probed since the last one (`P2pMesh.Epoch`). A source that is not blacklisted is blacklisted
by a probe just when enough ports of the history are in the window
(`P2pMesh.probe_refines_history`).
-/

namespace P2pMesh

open Foundation

/-! ### The specification -/

/-- What the history of a source has: the times at which it was blacklisted, the last one
first, and its out-of-room probes since then. -/
structure Epoch where
  blacklistings : List Int
  probed : List (Int × Int)

namespace Epoch

/-- A blacklisting is not over. -/
def Active (blacklistFor : Int) (e : Epoch) (now : Int) : Prop :=
  ∃ start ∈ e.blacklistings, now < start + blacklistFor

instance (blacklistFor : Int) (e : Epoch) (now : Int) : Decidable (e.Active blacklistFor now) :=
  inferInstanceAs (Decidable (∃ start ∈ e.blacklistings, now < start + blacklistFor))

/-- The history with one more return. -/
def observe (blacklistFor : Int) (source : Bytes) (e : Epoch) (x : Probe × ProbeReturn) : Epoch :=
  if x.1.source ≠ source ∨ e.Active blacklistFor x.1.now then e
  else if x.2.disposition = .blacklisted then ⟨x.1.now :: e.blacklistings, []⟩
  else if x.1.sameRoom then e
  else { e with probed := e.probed ++ [(x.1.port, x.1.now)] }

end Epoch

/-- The history of a source in the returns of a run. -/
def epoch (blacklistFor : Int) (source : Bytes) (returns : List (Probe × ProbeReturn)) : Epoch :=
  returns.foldl (Epoch.observe blacklistFor source) ⟨[], []⟩

/-- The history of a run is observed return by return. -/
theorem epoch_append (blacklistFor : Int) (source : Bytes) (returns : List (Probe × ProbeReturn))
    (x : Probe × ProbeReturn) : epoch blacklistFor source (returns ++ [x]) =
      (epoch blacklistFor source returns).observe blacklistFor source x := by
  rw [epoch, List.foldl_append]
  rfl

/-- The ports whose time is in the window. -/
def portsWithin (window now : Int) (probed : List (Int × Int)) : Finset Int :=
  ((probed.filter fun x => durationBetween now x.2 ≤ window).map (·.1)).toFinset

/-- The ports that count for a probe: those since the last blacklisting, and its own. -/
def portsCounted {K : Type*} (l : ScanLimits K) (returns : List (Probe × ProbeReturn))
    (q : Probe) : Finset Int :=
  portsWithin l.window q.now
    ((epoch l.blacklistFor q.source returns).probed ++ [(q.port, q.now)])

/-- The ports of the out-of-room probes of the source in the last `window` nanoseconds, the
probe itself included, that are not earlier than the end of its last blacklisting. -/
def portsProbed {K : Type*} (l : ScanLimits K) (returns : List (Probe × ProbeReturn))
    (q : Probe) : Finset Int :=
  (((returns.map (·.1) ++ [q]).filter fun p =>
    p.outside q.source ∧ q.now - l.window ≤ p.now ∧ p.now ≤ q.now ∧
      ∀ start ∈ (epoch l.blacklistFor q.source returns).blacklistings.head?,
        start + l.blacklistFor ≤ p.now).map (·.port)).toFinset

/-- What a probe returns when it is decided by the number of ports. -/
def DecidedBy {K : Type*} (l : ScanLimits K) (q : Probe) (ports : Finset Int)
    (r : ProbeReturn) : Prop :=
  if l.threshold ≤ ports.card then
    r = ⟨.blacklisted, if l.onAnomaly then [(q.source, ports.card)] else []⟩
  else r.disposition ≠ .blacklisted ∧ r.reports = []

/-! ### The two readings of the history -/

/-- The probes of an epoch are those of the history that are not earlier than the end of the
last blacklisting. -/
structure Epoch.Recounts (blacklistFor : Int) (source : Bytes) (e : Epoch)
    (returns : List (Probe × ProbeReturn)) : Prop where
  starts : ∀ start ∈ e.blacklistings, ∃ x ∈ returns, x.1.now = start
  newest : ∀ start ∈ e.blacklistings, ∃ last ∈ e.blacklistings.head?, start ≤ last
  probed : ∀ port time, (port, time) ∈ e.probed ↔ ∃ x ∈ returns, x.1.outside source ∧
    x.1.port = port ∧ x.1.now = time ∧
      ∀ start ∈ e.blacklistings.head?, start + blacklistFor ≤ time

/-- The history of no returns is empty. -/
theorem Epoch.recounts_nil (blacklistFor : Int) (source : Bytes) :
    Epoch.Recounts blacklistFor source ⟨[], []⟩ [] := by
  refine ⟨?_, ?_, ?_⟩ <;> simp

namespace Epoch.Recounts

variable {blacklistFor : Int} {source : Bytes} {e : Epoch} {returns : List (Probe × ProbeReturn)}
  {x : Probe × ProbeReturn}

/-- Blacklistings stay dated by returns of the run. -/
theorem starts_append (recounts : e.Recounts blacklistFor source returns)
    (x : Probe × ProbeReturn) :
    ∀ start ∈ e.blacklistings, ∃ y ∈ returns ++ [x], y.1.now = start := by
  intro start mem
  obtain ⟨y, old, rfl⟩ := recounts.starts start mem
  exact ⟨y, List.mem_append_left _ old, rfl⟩

/-- A return that does not count leaves the epoch. -/
theorem skip (recounts : e.Recounts blacklistFor source returns)
    (skipped : x.1.outside source → e.Active blacklistFor x.1.now) :
    e.Recounts blacklistFor source (returns ++ [x]) where
  starts := recounts.starts_append x
  newest := recounts.newest
  probed port time := by
    rw [recounts.probed]
    constructor
    · rintro ⟨y, mem, rest⟩
      exact ⟨y, List.mem_append_left _ mem, rest⟩
    · rintro ⟨y, mem, outside, samePort, rfl, ended⟩
      rcases List.mem_append.mp mem with old | new
      · exact ⟨y, old, outside, samePort, rfl, ended⟩
      · -- the blacklisting that is active is not later than the last one
        rw [List.mem_singleton.mp new] at outside ended
        obtain ⟨start, active, before⟩ := skipped outside
        obtain ⟨last, first, le⟩ := recounts.newest start active
        have := ended last first
        omega

/-- A blacklisting starts a new epoch: no probe so far is as late as its end. -/
theorem blacklist (recounts : e.Recounts blacklistFor source returns)
    (positive : 0 < blacklistFor) (past : ∀ y ∈ returns, y.1.now ≤ x.1.now) :
    Epoch.Recounts blacklistFor source ⟨x.1.now :: e.blacklistings, []⟩ (returns ++ [x]) where
  starts start mem := by
    rcases List.mem_cons.mp mem with rfl | old
    · exact ⟨x, List.mem_append_right _ (List.mem_singleton_self x), rfl⟩
    · exact recounts.starts_append x start old
  newest start mem := by
    refine ⟨x.1.now, rfl, ?_⟩
    rcases List.mem_cons.mp mem with rfl | old
    · exact le_refl _
    · obtain ⟨y, earlier, rfl⟩ := recounts.starts start old
      exact past y earlier
  probed port time := by
    simp only [List.not_mem_nil, List.head?_cons, Option.mem_some_iff, forall_eq', false_iff]
    rintro ⟨y, mem, _, _, rfl, ended⟩
    rcases List.mem_append.mp mem with old | new
    · have := past y old
      omega
    · rw [List.mem_singleton.mp new] at ended
      omega

/-- An out-of-room probe outside the blacklistings is added. -/
theorem record (recounts : e.Recounts blacklistFor source returns)
    (outside : x.1.outside source = true) (inactive : ¬ e.Active blacklistFor x.1.now) :
    Epoch.Recounts blacklistFor source
      { e with probed := e.probed ++ [(x.1.port, x.1.now)] } (returns ++ [x]) where
  starts := recounts.starts_append x
  newest := recounts.newest
  probed port time := by
    have ended : ∀ start ∈ e.blacklistings.head?, start + blacklistFor ≤ x.1.now := by
      intro start first
      exact not_lt.mp fun before => inactive ⟨start, List.mem_of_mem_head? first, before⟩
    simp only [List.mem_append, recounts.probed, List.mem_singleton, Prod.mk.injEq]
    constructor
    · rintro (⟨y, mem, rest⟩ | ⟨rfl, rfl⟩)
      · exact ⟨y, Or.inl mem, rest⟩
      · exact ⟨x, Or.inr rfl, outside, rfl, rfl, ended⟩
    · rintro ⟨y, mem | rfl, rest⟩
      · exact Or.inl ⟨y, mem, rest⟩
      · exact Or.inr ⟨rest.2.1.symm, rest.2.2.1.symm⟩

/-- One more return, not before the others, keeps the history right. -/
theorem observe (recounts : e.Recounts blacklistFor source returns)
    (positive : 0 < blacklistFor) (past : ∀ y ∈ returns, y.1.now ≤ x.1.now) :
    (e.observe blacklistFor source x).Recounts blacklistFor source (returns ++ [x]) := by
  unfold Epoch.observe
  split
  next skipped =>
    refine recounts.skip fun outside => ?_
    rcases skipped with other | active
    · exact absurd (of_decide_eq_true outside).1 other
    · exact active
  next counted =>
    rw [not_or, not_not] at counted
    obtain ⟨own, inactive⟩ := counted
    split
    next listed => exact recounts.blacklist positive past
    next unlisted =>
      split
      next sameRoom =>
        refine recounts.skip fun outside => ?_
        exact absurd (of_decide_eq_true outside).2 (by simp [sameRoom])
      next outside =>
        refine recounts.record ?_ inactive
        simp [Probe.outside, own, outside]

end Epoch.Recounts

/-- The history that is kept return by return is the one read off the whole run. -/
theorem epoch_recounts {blacklistFor : Int} (positive : 0 < blacklistFor) (source : Bytes)
    {returns : List (Probe × ProbeReturn)} (ordered : returns.Pairwise (·.1.now ≤ ·.1.now)) :
    (epoch blacklistFor source returns).Recounts blacklistFor source returns := by
  induction returns using List.reverseRecOn with
  | nil => exact Epoch.recounts_nil blacklistFor source
  | append_singleton returns x ih =>
      obtain ⟨ordered, _, last⟩ := List.pairwise_append.mp ordered
      rw [epoch_append]
      exact (ih ordered).observe positive fun y mem => last y mem x (List.mem_singleton_self x)

/-- For a positive blacklist time, and a window below the longest duration, the ports since the
last blacklisting are those that are not earlier than its end. -/
theorem portsCounted_eq_portsProbed {K : Type*} {l : ScanLimits K} {q : Probe}
    {returns : List (Probe × ProbeReturn)} (positive : 0 < l.blacklistFor)
    (bounded : l.window < 2 ^ 63 - 1) (ordered : returns.Pairwise (·.1.now ≤ ·.1.now))
    (past : ∀ x ∈ returns, x.1.now ≤ q.now)
    (inactive : ¬ (epoch l.blacklistFor q.source returns).Active l.blacklistFor q.now)
    (outside : q.sameRoom = false) : portsCounted l returns q = portsProbed l returns q := by
  -- the probe counts as if it were recorded
  obtain ⟨x, rfl⟩ : ∃ x : Probe × ProbeReturn, x.1 = q := ⟨(q, ⟨.recorded, []⟩), rfl⟩
  have isOutside : x.1.outside x.1.source = true := by simp [Probe.outside, outside]
  have recounts := (epoch_recounts positive x.1.source ordered).record isOutside inactive
  have probes : returns.map (·.1) ++ [x.1] = (returns ++ [x]).map (·.1) := by
    rw [List.map_append, List.map_singleton]
  have times : ∀ y ∈ returns ++ [x], y.1.now ≤ x.1.now := by
    intro y mem
    rcases List.mem_append.mp mem with old | new
    · exact past y old
    · rw [List.mem_singleton.mp new]
  ext port
  simp only [portsCounted, portsProbed, portsWithin, probes, List.mem_toFinset, List.mem_map,
    List.mem_filter, decide_eq_true_eq]
  constructor
  · rintro ⟨⟨port, time⟩, ⟨mem, within⟩, rfl⟩
    obtain ⟨y, seen, isOutside, rfl, rfl, ended⟩ := (recounts.probed port time).mp mem
    have le := times y seen
    exact ⟨y.1, ⟨⟨y, seen, rfl⟩, isOutside, (durationBetween_le_iff le bounded).mp within, le,
      ended⟩, rfl⟩
  · rintro ⟨p, ⟨⟨y, seen, rfl⟩, isOutside, within, le, ended⟩, rfl⟩
    have mem := (recounts.probed y.1.port y.1.now).mpr ⟨y, seen, isOutside, rfl, rfl, ended⟩
    exact ⟨_, ⟨mem, (durationBetween_le_iff le bounded).mpr within⟩, rfl⟩

example : 0 < (newScanner (K := ℚ) true).limits.blacklistFor ∧
    (newScanner (K := ℚ) true).limits.window < 2 ^ 63 - 1 := by
  decide

/-! ### The ports of a source -/

/-- The ports that are kept for a source, and the probes since its last blacklisting. -/
structure PortTimes.Tracks (ports : PortTimes) (window : Int) (probed : List (Int × Int))
    (now : Int) : Prop where
  nodup : (ports.map (·.1)).Nodup
  sound : ∀ x ∈ ports, x ∈ probed
  past : ∀ x ∈ probed, x.2 ≤ now
  complete : ∀ x ∈ probed, durationBetween now x.2 ≤ window → ∃ time, x.2 ≤ time ∧
    (x.1, time) ∈ ports

namespace PortTimes

variable {ports : PortTimes} {window now later port : Int} {probed : List (Int × Int)}

/-- Setting a port replaces its time. -/
theorem mem_set {x : Int × Int} :
    x ∈ ports.set port now ↔ x ∈ ports ∧ x.1 ≠ port ∨ x = (port, now) := by
  simp only [set, List.mem_append, List.mem_filter, decide_eq_true_eq, List.mem_singleton]

/-- Pruning keeps the ports whose time is in the window. -/
theorem mem_prune {x : Int × Int} :
    x ∈ ports.prune window now ↔ x ∈ ports ∧ durationBetween now x.2 ≤ window := by
  simp only [prune, List.mem_filter, decide_eq_true_eq, not_lt]

/-- No ports are kept where none were probed. -/
theorem tracks_nil : PortTimes.Tracks [] window [] now :=
  ⟨List.nodup_nil, by simp, by simp, by simp⟩

namespace Tracks

/-- The ports stay right as the clock goes on. -/
theorem mono (tracks : ports.Tracks window probed now) (clock : now ≤ later) :
    ports.Tracks window probed later where
  nodup := tracks.nodup
  sound := tracks.sound
  past x mem := le_trans (tracks.past x mem) clock
  complete x mem within :=
    tracks.complete x mem (le_trans (durationBetween_mono clock) within)

/-- Recording a probe keeps the ports right. -/
theorem set (tracks : ports.Tracks window probed now) :
    (ports.set port now).Tracks window (probed ++ [(port, now)]) now where
  nodup := by
    have others : ((ports.filter fun x => x.1 ≠ port).map (·.1)).Nodup :=
      tracks.nodup.sublist (List.filter_sublist.map _)
    rw [PortTimes.set, List.map_append, List.nodup_append]
    refine ⟨others, List.nodup_singleton _, ?_⟩
    simp
  sound x mem := by
    rcases mem_set.mp mem with ⟨old, _⟩ | rfl
    · exact List.mem_append_left _ (tracks.sound x old)
    · exact List.mem_append_right _ (List.mem_singleton_self _)
  past x mem := by
    rcases List.mem_append.mp mem with old | new
    · exact tracks.past x old
    · rw [List.mem_singleton.mp new]
  complete x mem within := by
    by_cases same : x.1 = port
    · -- the time of the port is the present one
      refine ⟨now, ?_, mem_set.mpr (Or.inr (by rw [same]))⟩
      rcases List.mem_append.mp mem with old | new
      · exact tracks.past x old
      · rw [List.mem_singleton.mp new]
    · rcases List.mem_append.mp mem with old | new
      · obtain ⟨time, after, kept⟩ := tracks.complete x old within
        exact ⟨time, after, mem_set.mpr (Or.inl ⟨kept, same⟩)⟩
      · rw [List.mem_singleton.mp new] at same
        exact absurd rfl same

/-- Pruning keeps the ports right. -/
theorem prune (tracks : ports.Tracks window probed now) :
    (ports.prune window now).Tracks window probed now where
  nodup := tracks.nodup.sublist (List.filter_sublist.map _)
  sound x mem := tracks.sound x (mem_prune.mp mem).1
  past := tracks.past
  complete x mem within := by
    obtain ⟨time, after, kept⟩ := tracks.complete x mem within
    exact ⟨time, after, mem_prune.mpr ⟨kept, le_trans (durationBetween_anti after) within⟩⟩

/-- After pruning there are as many ports as the history has in the window. -/
theorem length_prune (tracks : ports.Tracks window probed now) :
    (ports.prune window now).length = (portsWithin window now probed).card := by
  have same : ((ports.prune window now).map (·.1)).toFinset = portsWithin window now probed := by
    ext port
    simp only [portsWithin, List.mem_toFinset, List.mem_map, List.mem_filter, decide_eq_true_eq]
    constructor
    · rintro ⟨x, mem, rfl⟩
      obtain ⟨kept, within⟩ := mem_prune.mp mem
      exact ⟨x, ⟨tracks.sound x kept, within⟩, rfl⟩
    · rintro ⟨x, ⟨mem, within⟩, rfl⟩
      obtain ⟨time, _, kept⟩ := tracks.prune.complete x mem within
      exact ⟨_, kept, rfl⟩
  rw [← same, List.toFinset_card_of_nodup tracks.prune.nodup, List.length_map]

end Tracks

end PortTimes

/-! ### The entries of a source -/

section

variable {K : Type*}

/-- From the given time on, the entries of a source agree with its history once the expiry is
done. -/
structure ScanEntries.Tracks (l : ScanLimits K) (x : ScanEntries K) (e : Epoch)
    (clock : Int) : Prop where
  active : ∀ now, clock ≤ now →
    ((x.expire now).blacklist.isSome ↔ e.Active l.blacklistFor now)
  ports : ∀ now, clock ≤ now → ¬ e.Active l.blacklistFor now →
    ((x.expire now).ports.getD []).Tracks l.window e.probed now

namespace ScanEntries

variable {l : ScanLimits K} {x : ScanEntries K} {e : Epoch} {q : Probe} {clock now : Int}

/-- A source without entries has an empty history. -/
theorem tracks_empty : (empty : ScanEntries K).Tracks l ⟨[], []⟩ clock where
  active now _ := by simp [expire, empty, Epoch.Active]
  ports now _ _ := PortTimes.tracks_nil

namespace Tracks

/-- The entries stay right as the clock goes on. -/
theorem mono (tracks : x.Tracks l e clock) (later : clock ≤ now) : x.Tracks l e now :=
  ⟨fun t after => tracks.active t (le_trans later after),
    fun t after => tracks.ports t (le_trans later after)⟩

/-- The expiry of a blacklisting keeps the entries right. -/
theorem expired (tracks : x.Tracks l e clock) : (x.expire clock).Tracks l e clock where
  active now after := by
    rw [x.expire_expire after]
    exact tracks.active now after
  ports now after := by
    rw [x.expire_expire after]
    exact tracks.ports now after

/-- A source is on the blacklist exactly while a blacklisting of its history lasts. -/
theorem active_now (tracks : x.Tracks l e q.now) :
    (x.expire q.now).blacklist.isSome ↔ e.Active l.blacklistFor q.now :=
  tracks.active q.now (le_refl _)

/-- The ports that a probe leaves are those of the history with this probe. -/
theorem recorded (tracks : x.Tracks l e q.now) (inactive : ¬ e.Active l.blacklistFor q.now) :
    ((x.expire q.now).recorded l q).Tracks l.window (e.probed ++ [(q.port, q.now)]) q.now :=
  (tracks.ports q.now (le_refl _) inactive).set.prune

/-- The scanner counts the distinct ports of the history that are in the window. -/
theorem length_recorded (tracks : x.Tracks l e q.now)
    (inactive : ¬ e.Active l.blacklistFor q.now) :
    ((x.expire q.now).recorded l q).length =
      (portsWithin l.window q.now (e.probed ++ [(q.port, q.now)])).card :=
  (tracks.ports q.now (le_refl _) inactive).set.length_prune

end Tracks

/-- What a probe does on the entries of its source. -/
inductive Effect (l : ScanLimits K) (x : ScanEntries K) (q : Probe) :
    ProbeReturn × ScanEntries K → Prop
  | blocked (active : (x.expire q.now).blacklist.isSome) :
      Effect l x q (⟨.blacklisted, []⟩, x.expire q.now)
  | exempt (inactive : ¬ (x.expire q.now).blacklist.isSome) (sameRoom : q.sameRoom = true) :
      Effect l x q (⟨.exempt, []⟩, x.expire q.now)
  | scan (inactive : ¬ (x.expire q.now).blacklist.isSome) (outside : q.sameRoom = false)
      (many : l.threshold ≤ ((x.expire q.now).recorded l q).length) :
      Effect l x q (⟨.blacklisted, if l.onAnomaly then
          [(q.source, ((x.expire q.now).recorded l q).length)] else []⟩,
        ⟨some (q.now + l.blacklistFor), none, none⟩)
  | limited (inactive : ¬ (x.expire q.now).blacklist.isSome) (outside : q.sameRoom = false)
      (few : ¬ l.threshold ≤ ((x.expire q.now).recorded l q).length)
      (disposition : ProbeDisposition) (unlisted : disposition ≠ .blacklisted)
      (bucket : Option (TokenBucket K)) :
      Effect l x q (⟨disposition, []⟩, ⟨none, some ((x.expire q.now).recorded l q), bucket⟩)

/-- A probe has one of the effects of `Effect`. -/
theorem probe_effect [IntCast K] [One K] [Add K] [Sub K] [Mul K] [LT K] [DecidableLT K]
    (seconds : Int → K) (l : ScanLimits K) (x : ScanEntries K) (q : Probe) :
    x.Effect l q (x.probe seconds l q) := by
  unfold probe
  simp only
  split
  next active => exact .blocked active
  next inactive =>
    split
    next sameRoom => exact .exempt inactive sameRoom
    next outside =>
      rw [Bool.not_eq_true] at outside
      simp only [record]
      split
      next many => exact .scan inactive outside many
      next few =>
        have unlisted : (x.expire q.now).blacklist = none := by
          simpa only [Option.not_isSome_iff_eq_none] using inactive
        simp only [limit, unlisted]
        refine .limited inactive outside few _ ?_ _
        split <;> decide

variable {result : ProbeReturn × ScanEntries K}

namespace Effect

/-- While a blacklisting is active nothing happens. -/
theorem of_active (effect : x.Effect l q result) (tracks : x.Tracks l e q.now)
    (active : e.Active l.blacklistFor q.now) : result = (⟨.blacklisted, []⟩, x) := by
  have listed := tracks.active_now.mpr active
  cases effect with
  | blocked => rw [expire_of_isSome listed]
  | exempt inactive => exact absurd listed inactive
  | scan inactive => exact absurd listed inactive
  | limited inactive => exact absurd listed inactive

/-- An out-of-room probe is decided by the ports of the history. -/
theorem decidedBy (effect : x.Effect l q result) (tracks : x.Tracks l e q.now)
    (inactive : ¬ e.Active l.blacklistFor q.now) (outside : q.sameRoom = false) :
    DecidedBy l q (portsWithin l.window q.now (e.probed ++ [(q.port, q.now)])) result.1 := by
  rw [DecidedBy, ← tracks.length_recorded inactive]
  cases effect with
  | blocked active => exact absurd (tracks.active_now.mp active) inactive
  | exempt _ sameRoom => exact absurd sameRoom (by simp [outside])
  | scan _ _ many => rw [if_pos many]
  | limited _ _ few _ unlisted =>
      rw [if_neg few]
      exact ⟨unlisted, rfl⟩

/-- The entries after a probe agree with the history that has its return. -/
theorem tracks (effect : x.Effect l q result) (tracks : x.Tracks l e q.now) :
    result.2.Tracks l (e.observe l.blacklistFor q.source (q, result.1)) q.now := by
  by_cases active : e.Active l.blacklistFor q.now
  · rw [effect.of_active tracks active, Epoch.observe, if_pos (Or.inr active)]
    exact tracks
  have own : ¬ (q.source ≠ q.source ∨ e.Active l.blacklistFor q.now) := by
    simpa using active
  have finished : ∀ now, q.now ≤ now → ¬ e.Active l.blacklistFor now := by
    rintro now after ⟨start, mem, before⟩
    exact active ⟨start, mem, lt_of_le_of_lt after before⟩
  cases effect with
  | blocked listed => exact absurd (tracks.active_now.mp listed) active
  | exempt _ sameRoom =>
      simp only [Epoch.observe, own, sameRoom, reduceCtorEq, ↓reduceIte]
      exact tracks.expired
  | scan =>
      -- The blacklisting that begins now is the newest, and the ports are forgotten.
      simp only [Epoch.observe, own, ↓reduceIte]
      refine ⟨?_, ?_⟩
      · intro now after
        have older : (∃ start ∈ e.blacklistings, now < start + l.blacklistFor) ↔ False :=
          iff_false_intro (finished now after)
        simp only [expire, Epoch.Active, List.exists_mem_cons_iff, older, or_false]
        by_cases before : now < q.now + l.blacklistFor
        · simp only [before, ↓reduceIte, Option.isSome_some]
        · simp only [before, ↓reduceIte, empty, Option.isSome_none, Bool.false_eq_true]
      · intro now after inactive
        have ended : ¬ now < q.now + l.blacklistFor := by
          intro before
          exact inactive ⟨q.now, List.mem_cons_self, before⟩
        simp only [expire, ended, empty, ↓reduceIte]
        exact PortTimes.tracks_nil
  | limited _ outside _ _ unlisted =>
      simp only [Epoch.observe, own, unlisted, outside, Bool.false_eq_true, ↓reduceIte]
      refine ⟨?_, ?_⟩
      · intro now after
        simpa [expire, Epoch.Active] using finished now after
      · intro now after _
        exact (tracks.recorded active).mono after

end Effect

end ScanEntries

end

/-! ### Whole runs -/

section

variable {K : Type*} [IntCast K] [One K] [Add K] [Sub K] [Mul K] [LT K] [DecidableLT K]
  (seconds : Int → K)

namespace Scanner

/-- The state after one more probe. -/
theorem after_append (s : Scanner K) (probes : List Probe) (q : Probe) :
    s.after seconds (probes ++ [q]) = ((s.after seconds probes).probe seconds q).2 := by
  rw [after, List.foldl_append]
  rfl

/-- The returns after one more probe. -/
theorem run_append (s : Scanner K) (probes : List Probe) (q : Probe) :
    s.run seconds (probes ++ [q]) =
      s.run seconds probes ++ [(q, ((s.after seconds probes).probe seconds q).1)] := by
  induction probes generalizing s with
  | nil => rfl
  | cons first rest ih =>
      rw [List.cons_append, run, run, ih]
      rfl

/-- Probes leave the limits as they are. -/
theorem after_limits (s : Scanner K) (probes : List Probe) :
    (s.after seconds probes).limits = s.limits := by
  induction probes generalizing s with
  | nil => rfl
  | cons q rest ih => exact ih (s.probe seconds q).2

/-- The probes of the returns are those of the run. -/
theorem run_map_fst (s : Scanner K) (probes : List Probe) :
    (s.run seconds probes).map (·.1) = probes := by
  induction probes generalizing s with
  | nil => rfl
  | cons q rest ih => rw [run, List.map_cons, ih]

/-- After any run, the entries of a source agree with its history. -/
theorem tracks_after (l : ScanLimits K) (source : Bytes) {probes : List Probe} {clock : Int}
    (ordered : probes.Pairwise (·.now ≤ ·.now)) (past : ∀ q ∈ probes, q.now ≤ clock) :
    (((fresh l).after seconds probes).entries source).Tracks l
      (epoch l.blacklistFor source ((fresh l).run seconds probes)) clock := by
  induction probes using List.reverseRecOn generalizing clock with
  | nil => exact ScanEntries.tracks_empty
  | append_singleton probes q ih =>
      obtain ⟨ordered, _, last⟩ := List.pairwise_append.mp ordered
      have before := ih ordered fun p mem => last p mem q (List.mem_singleton_self q)
      refine ScanEntries.Tracks.mono ?_ (past q (by simp))
      rw [after_append, run_append, epoch_append]
      by_cases own : q.source = source
      · subst own
        have effect := ScanEntries.probe_effect seconds l
          (((fresh l).after seconds probes).entries q.source) q
        rw [probe_entries_own, after_limits]
        simp only [probe, after_limits]
        exact effect.tracks before
      · rw [probe_entries_other seconds _ q own]
        simpa [Epoch.observe, own] using before

end Scanner

/-- Scan detection against the history of a run with a clock that does not go back. A probe
while a blacklisting is active is refused, without a report, and leaves the scanner. Else an
out-of-room probe blacklists its source, with one report, just when the ports that the source
probed since its last blacklisting are enough; and these are the ports that are not earlier
than the end of that blacklisting, unless the blacklist time is not positive or the window is
the longest duration. -/
theorem probe_refines_history (l : ScanLimits K) {probes : List Probe} {q : Probe}
    (clock : (probes ++ [q]).Pairwise (·.now ≤ ·.now)) :
    let s := (Scanner.fresh l).after seconds probes
    let returns := (Scanner.fresh l).run seconds probes
    ((epoch l.blacklistFor q.source returns).Active l.blacklistFor q.now →
      s.probe seconds q = (⟨.blacklisted, []⟩, s)) ∧
    (¬ (epoch l.blacklistFor q.source returns).Active l.blacklistFor q.now →
      q.sameRoom = false →
        DecidedBy l q (portsCounted l returns q) (s.probe seconds q).1 ∧
        (0 < l.blacklistFor → l.window < 2 ^ 63 - 1 →
          portsCounted l returns q = portsProbed l returns q)) := by
  intro s returns
  obtain ⟨ordered, _, last⟩ := List.pairwise_append.mp clock
  have past : ∀ p ∈ probes, p.now ≤ q.now := fun p mem => last p mem q (List.mem_singleton_self q)
  have tracks := Scanner.tracks_after seconds l q.source ordered past
  have effect := ScanEntries.probe_effect seconds l (s.entries q.source) q
  have limits : s.limits = l := Scanner.after_limits seconds _ probes
  refine ⟨?_, ?_⟩
  · intro active
    rw [Scanner.probe, limits, effect.of_active tracks active, s.withEntries_entries]
  · intro inactive outside
    refine ⟨?_, ?_⟩
    · simp only [Scanner.probe, limits]
      exact effect.decidedBy tracks inactive outside
    · intro positive bounded
      refine portsCounted_eq_portsProbed positive bounded ?_ ?_ inactive outside
      · rw [← List.pairwise_map (R := fun p p' : Probe => p.now ≤ p'.now),
          Scanner.run_map_fst]
        exact ordered
      · intro x mem
        have probed : x.1 ∈ ((Scanner.fresh l).run seconds probes).map (·.1) :=
          List.mem_map_of_mem mem
        rw [Scanner.run_map_fst] at probed
        exact past x.1 probed

end

/-- The last probe of the sample run comes after the end of the blacklisting. -/
theorem sampleProbe_decided :
    (sampleProbes ++ [sampleProbe]).Pairwise (·.now ≤ ·.now) ∧
      DecidedBy (sampleLimits 5) sampleProbe
        (portsProbed (sampleLimits 5) ((Scanner.fresh (sampleLimits 5)).run
          TokenBucket.exactSeconds sampleProbes) sampleProbe)
        (((Scanner.fresh (sampleLimits 5)).after TokenBucket.exactSeconds sampleProbes).probe
          TokenBucket.exactSeconds sampleProbe).1 := by
  have ordered : (sampleProbes ++ [sampleProbe]).Pairwise (·.now ≤ ·.now) := by decide
  obtain ⟨_, inactive⟩ :=
    probe_refines_history TokenBucket.exactSeconds (sampleLimits 5) ordered
  obtain ⟨decided, same⟩ := inactive (by decide +kernel) rfl
  rw [← same (by decide) (by decide)]
  exact ⟨ordered, decided⟩

/-- With no time on the blacklist, the ports that led to the blacklisting are not earlier than
its end, and the scanner has forgotten them. With the longest duration as the window, a port
from before the window counts, as the time since then is cut to that duration. -/
theorem historyEdges_differ :
    (let l := sampleLimits 0
      let probes : List Probe := [⟨[1], 80, false, 1⟩, ⟨[1], 81, false, 1⟩]
      let q : Probe := ⟨[1], 82, false, 2⟩
      let s := (Scanner.fresh l).after TokenBucket.exactSeconds probes
      let returns := (Scanner.fresh l).run TokenBucket.exactSeconds probes
      (probes ++ [q]).Pairwise (·.now ≤ ·.now) ∧
        ¬ (epoch l.blacklistFor q.source returns).Active l.blacklistFor q.now ∧
        l.threshold ≤ (portsProbed l returns q).card ∧
        (s.probe TokenBucket.exactSeconds q).1 = ⟨.recorded, []⟩) ∧
    (let l := { sampleLimits 5 with window := 2 ^ 63 - 1 }
      let probes : List Probe := [⟨[1], 80, false, 0⟩]
      let q : Probe := ⟨[1], 81, false, 2 ^ 63⟩
      let s := (Scanner.fresh l).after TokenBucket.exactSeconds probes
      let returns := (Scanner.fresh l).run TokenBucket.exactSeconds probes
      (probes ++ [q]).Pairwise (·.now ≤ ·.now) ∧
        ¬ (epoch l.blacklistFor q.source returns).Active l.blacklistFor q.now ∧
        ¬ l.threshold ≤ (portsProbed l returns q).card ∧
        (s.probe TokenBucket.exactSeconds q).1 = ⟨.blacklisted, [([1], 2)]⟩) := by
  decide +kernel

end P2pMesh

import P2pMesh.Foundation.BigEndian
import P2pMesh.Foundation.TokenBucket
import P2pMesh.Foundation.Transition
import Mathlib.Logic.Function.Basic
import Mathlib.Data.Rat.Cast.Order

/-! # The relay hub

`Hub` of `internal/relay/relay.go`: a table of sinks, and on a master server a quota of bytes
per second. Time is in nanoseconds from the zero `Time`, and the arithmetic of the quota is
exact. Along every run the bytes that are handed to sinks in an interval are at most the
quota and as much again for each second of the interval (`P2pMesh.Relay.handed_le_quota`).
-/

namespace P2pMesh.Relay

open Foundation

/-- The zero `Time`. -/
def zeroTime : Int := 0

/-- `newByteBucket`. -/
def newByteBucket (rate : Int64) : TokenBucket ℚ :=
  ⟨rate.toInt, rate.toInt, rate.toInt, zeroTime⟩

/-- The bucket at its first use: full from now on. -/
def started (b : TokenBucket ℚ) (now : Int) : TokenBucket ℚ :=
  if b.last = zeroTime then { b with tokens := b.burst, last := now } else b

/-- `tokenBucket.take`. -/
def take (b : TokenBucket ℚ) (n : Nat) (now : Int) : Bool × TokenBucket ℚ :=
  (started b now).take TokenBucket.exactSeconds n now

/-- The errors of the hub. -/
inductive RelayError where
  | nilSink
  | rootNeverRelays
  | noRoute
  | quotaExceeded
  | write (target cause : Bytes)
deriving DecidableEq

/-- The texts of the errors. -/
def RelayError.text : RelayError → Bytes
  | .nilSink => ascii "relay: nil sink"
  | .rootNeverRelays => ascii "relay: the root server never relays"
  | .noRoute => ascii "relay: peer endpoint not registered"
  | .quotaExceeded => ascii "relay: master relay quota exceeded"
  | .write target cause => ascii "relay: write to " ++ target ++ ascii ": " ++ cause

/-- The hub; there is a bucket when the quota is on. -/
structure Hub (Sink : Type*) where
  isRoot : Bool
  sinks : Bytes → Option Sink
  quota : Option (TokenBucket ℚ)

variable {Sink : Type*}

/-- `NewHub`. -/
def newHub (Sink : Type*) (isRoot : Bool) (masterQuota : Int64) : Hub Sink where
  isRoot := isRoot
  sinks := fun _ => none
  quota := if 0 < masterQuota then some (newByteBucket masterQuota) else none

/-- What a `Deliver` returns, and what it gave to a sink. -/
structure Delivery (Sink : Type*) where
  err : Option RelayError
  handed : Option (Sink × Bytes)

namespace Hub

/-- `Register`. -/
def register (h : Hub Sink) (nodeID : Bytes) (sink : Option Sink) : Option RelayError × Hub Sink :=
  match sink with
  | none => (some .nilSink, h)
  | some sink =>
      if h.isRoot then (some .rootNeverRelays, h)
      else (none, { h with sinks := Function.update h.sinks nodeID (some sink) })

/-- `Unregister`. -/
def unregister (h : Hub Sink) (nodeID : Bytes) : Hub Sink :=
  { h with sinks := Function.update h.sinks nodeID none }

/-- The end of `Deliver`: the write to the sink, which may fail. -/
def handOver (sink : Sink) (target payload : Bytes) (writeErr : Option Bytes) : Delivery Sink :=
  ⟨writeErr.map (.write target), some (sink, payload)⟩

/-- `Deliver`, with the reading of the clock and the error of the sink. The sender is not
looked at. -/
def deliver (h : Hub Sink) (target payload : Bytes) (now : Int) (writeErr : Option Bytes) :
    Delivery Sink × Hub Sink :=
  if h.isRoot then (⟨some .rootNeverRelays, none⟩, h)
  else
    match h.sinks target with
    | none => (⟨some .noRoute, none⟩, h)
    | some sink =>
        match h.quota with
        | none => (handOver sink target payload writeErr, h)
        | some bucket =>
            let taken := take bucket payload.length now
            if taken.1 then
              (handOver sink target payload writeErr, { h with quota := some taken.2 })
            else (⟨some .quotaExceeded, none⟩, { h with quota := some taken.2 })

end Hub

/-- What a `Deliver` can do. -/
inductive Effect (h : Hub Sink) (payload : Bytes) (now : Int) : Delivery Sink × Hub Sink → Prop
    where
  | refused (err : RelayError) : Effect h payload now (⟨some err, none⟩, h)
  | unlimited (unmetered : h.quota = none) (err : Option RelayError) (sink : Sink)
      (notRefused : err ≠ some .noRoute ∧ err ≠ some .quotaExceeded) :
      Effect h payload now (⟨err, some (sink, payload)⟩, h)
  | dry (bucket : TokenBucket ℚ) (metered : h.quota = some bucket)
      (short : (take bucket payload.length now).1 = false) :
      Effect h payload now (⟨some .quotaExceeded, none⟩,
        { h with quota := some (take bucket payload.length now).2 })
  | paid (bucket : TokenBucket ℚ) (metered : h.quota = some bucket)
      (granted : (take bucket payload.length now).1 = true) (err : Option RelayError) (sink : Sink)
      (notRefused : err ≠ some .noRoute ∧ err ≠ some .quotaExceeded) :
      Effect h payload now (⟨err, some (sink, payload)⟩,
        { h with quota := some (take bucket payload.length now).2 })

/-- A call on the hub. -/
inductive Call (Sink : Type*) where
  | register (nodeID : Bytes) (sink : Option Sink)
  | unregister (nodeID : Bytes)
  | deliver (source target payload : Bytes) (now : Int) (writeErr : Option Bytes)

/-- The hub, the last reading of its clock, and the payloads that were handed to sinks, each
with the reading of the clock at that call. -/
structure Traffic (Sink : Type*) where
  hub : Hub Sink
  now : Option Int
  handed : List (Int × Bytes)

/-- A new hub, which has handed nothing over. -/
def newTraffic (Sink : Type*) (isRoot : Bool) (masterQuota : Int64) : Traffic Sink :=
  ⟨newHub Sink isRoot masterQuota, none, []⟩

/-- A delivery, with what it handed over. -/
def Traffic.deliver (s : Traffic Sink) (target payload : Bytes) (now : Int)
    (writeErr : Option Bytes) : Traffic Sink :=
  let delivered := s.hub.deliver target payload now writeErr
  ⟨delivered.2, some now, s.handed ++ (delivered.1.handed.map fun x => (now, x.2)).toList⟩

/-- A call; the clock does not go back and never reads the zero `Time`. -/
inductive Step : Traffic Sink → Call Sink → Traffic Sink → Prop where
  | register {s : Traffic Sink} (nodeID : Bytes) (sink : Option Sink) :
      Step s (.register nodeID sink) { s with hub := (s.hub.register nodeID sink).2 }
  | unregister {s : Traffic Sink} (nodeID : Bytes) :
      Step s (.unregister nodeID) { s with hub := s.hub.unregister nodeID }
  | deliver {s : Traffic Sink} (source target payload : Bytes) (now : Int) (writeErr : Option Bytes)
      (clock : ∀ last, s.now = some last → last ≤ now) (nonzero : now ≠ zeroTime) :
      Step s (.deliver source target payload now writeErr) (s.deliver target payload now writeErr)

/-- The bytes that were handed over at the times that are picked. -/
def bytesAt (picked : Int → Bool) (handed : List (Int × Bytes)) : Nat :=
  ((handed.filter fun x => picked x.1).map fun x => x.2.length).sum

/-- The bytes that were handed over in an interval. -/
def bytesIn (handed : List (Int × Bytes)) (t0 t1 : Int) : Nat :=
  bytesAt (fun t => t0 ≤ t && t ≤ t1) handed

/-- The bytes of two lists are added. -/
theorem bytesAt_append (picked : Int → Bool) (first second : List (Int × Bytes)) :
    bytesAt picked (first ++ second) = bytesAt picked first + bytesAt picked second := by
  rw [bytesAt, List.filter_append, List.map_append, List.sum_append]
  rfl

theorem bytesAt_singleton (picked : Int → Bool) (t : Int) (payload : Bytes) :
    bytesAt picked [(t, payload)] = if picked t then payload.length else 0 := by
  rw [bytesAt, List.filter_singleton]
  cases picked t with
  | true => exact Nat.add_zero _
  | false => rfl

/-- More times have more bytes. -/
theorem bytesAt_mono {fewer more : Int → Bool} (le : ∀ t, fewer t = true → more t = true)
    (handed : List (Int × Bytes)) : bytesAt fewer handed ≤ bytesAt more handed := by
  induction handed with
  | nil => exact Nat.le_refl _
  | cons x rest ih =>
      have single := bytesAt_append fewer [x] rest
      have other := bytesAt_append more [x] rest
      rw [bytesAt_singleton] at single other
      rw [List.singleton_append] at single other
      rw [single, other]
      by_cases early : fewer x.1 = true
      · rw [if_pos early, if_pos (le _ early)]
        omega
      · rw [if_neg early]
        omega

/-- A `Deliver` has one of the effects of `Effect`. -/
theorem Hub.deliver_effect (h : Hub Sink) (target payload : Bytes) (now : Int)
    (writeErr : Option Bytes) : Effect h payload now (h.deliver target payload now writeErr) := by
  have notRefused : writeErr.map (RelayError.write target) ≠ some .noRoute ∧
      writeErr.map (RelayError.write target) ≠ some .quotaExceeded := by
    cases writeErr with
    | none => exact ⟨nofun, nofun⟩
    | some cause => exact ⟨nofun, nofun⟩
  unfold deliver
  split
  · exact .refused _
  · split
    · exact .refused _
    next sink _ =>
      split
      next unmetered => exact .unlimited unmetered _ sink notRefused
      next bucket metered =>
        simp only
        split
        next granted => exact .paid bucket metered granted _ sink notRefused
        next short => exact .dry bucket metered (Bool.eq_false_iff.mpr short)

/-- A refused payload is not handed to a sink. -/
theorem Effect.handed_eq_none {h : Hub Sink} {payload : Bytes} {now : Int}
    {delivered : Delivery Sink × Hub Sink} (effect : Effect h payload now delivered)
    (refused : delivered.1.err = some .noRoute ∨ delivered.1.err = some .quotaExceeded) :
    delivered.1.handed = none := by
  cases effect with
  | refused => rfl
  | dry => rfl
  | unlimited _ err sink notRefused => exact absurd refused (not_or.mpr notRefused)
  | paid _ _ _ err sink notRefused => exact absurd refused (not_or.mpr notRefused)

/-- The bytes since a time, as the bucket accounts for them. -/
def spentSince (handed : List (Int × Bytes)) (since : Int) : ℚ :=
  bytesAt (fun t => since ≤ t) handed

/-- The bucket has not been used, or it accounts for all that was handed over. -/
structure Accounts (quota : ℚ) (read : Option Int) (handed : List (Int × Bytes))
    (b : TokenBucket ℚ) : Prop where
  rate : b.rate = quota
  burst : b.burst = quota
  metered : b.last = zeroTime ∧ handed = [] ∨
    b.last ≠ zeroTime ∧ (∃ last, read = some last ∧ b.last ≤ last) ∧
      ∀ since, b.Metered since (spentSince handed since)

/-- What holds of a hub with a quota after any run. -/
structure Traffic.Within (quota : ℚ) (s : Traffic Sink) : Prop where
  bucket : ∃ b, s.hub.quota = some b ∧ Accounts quota s.now s.handed b
  bounded : ∀ t0 t1, t0 ≤ t1 →
    (bytesIn s.handed t0 t1 : ℚ) ≤ quota + TokenBucket.exactSeconds (t1 - t0) * quota

/-- A new hub has handed over nothing. -/
theorem Traffic.within_newTraffic (isRoot : Bool) {masterQuota : Int64}
    (positive : 0 < masterQuota) :
    (newTraffic Sink isRoot masterQuota).Within masterQuota.toInt := by
  have quota : (0 : ℚ) ≤ masterQuota.toInt := by
    have positiveInt := Int64.lt_iff_toInt_lt.mp positive
    exact_mod_cast positiveInt.le
  refine ⟨⟨newByteBucket masterQuota, if_pos positive, rfl, rfl, .inl ⟨rfl, rfl⟩⟩,
    ?_⟩
  intro t0 t1 interval
  have grown : (0 : ℚ) ≤ TokenBucket.exactSeconds (t1 - t0) * masterQuota.toInt :=
    mul_nonneg (TokenBucket.exactSeconds_nonneg (by omega)) quota
  change (((0 : Nat) : ℚ)) ≤ _
  rw [Nat.cast_zero]
  linarith

/-- A payload counts from the time it was handed over. -/
theorem spentSince_append (handed : List (Int × Bytes)) (now since : Int) (payload : Bytes) :
    spentSince (handed ++ [(now, payload)]) since =
      spentSince handed since + if since ≤ now then (payload.length : ℚ) else 0 := by
  rw [spentSince, bytesAt_append, bytesAt_singleton, Nat.cast_add, spentSince]
  by_cases started : since ≤ now
  · simp only [started, decide_true, ↓reduceIte]
  · simp only [started, decide_false, Bool.false_eq_true, ↓reduceIte, Nat.cast_zero]

namespace Accounts

variable {quota : ℚ} {read : Option Int} {handed : List (Int × Bytes)} {b : TokenBucket ℚ}
  {now : Int}

/-- The clock is read again, and the bucket is not used. -/
theorem later (accounts : Accounts quota read handed b)
    (clock : ∀ last, read = some last → last ≤ now) : Accounts quota (some now) handed b := by
  refine ⟨accounts.rate, accounts.burst, accounts.metered.imp_right ?_⟩
  rintro ⟨used, ⟨last, isRead, past⟩, metered⟩
  exact ⟨used, ⟨now, rfl, past.trans (clock last isRead)⟩, metered⟩

/-- The bucket at the time of a call accounts for what was handed over before. -/
theorem started (nonneg : 0 ≤ quota) (accounts : Accounts quota read handed b)
    (clock : ∀ last, read = some last → last ≤ now) :
    (started b now).last ≤ now ∧ (started b now).rate = quota ∧ (started b now).burst = quota ∧
      ∀ since, (started b now).Metered since (spentSince handed since) := by
  have rate : 0 ≤ b.rate := accounts.rate.symm ▸ nonneg
  have burst : 0 ≤ b.burst := accounts.burst.symm ▸ nonneg
  unfold Relay.started
  rcases accounts.metered with ⟨unused, empty⟩ | ⟨used, ⟨last, isRead, past⟩, metered⟩
  · rw [if_pos unused, empty]
    refine ⟨le_refl _, accounts.rate, accounts.burst, fun since => ?_⟩
    have nothing : spentSince [] since = 0 := Nat.cast_zero
    rw [nothing]
    apply TokenBucket.metered_full
    · exact rate
    · exact burst
    · rfl
  · rw [if_neg used]
    exact ⟨past.trans (clock last isRead), accounts.rate, accounts.burst, metered⟩

/-- The bucket after a call accounts for what was handed over up to then. -/
theorem take (nonneg : 0 ≤ quota) (accounts : Accounts quota read handed b)
    (nonzero : now ≠ zeroTime) (clock : ∀ last, read = some last → last ≤ now)
    (payload : Bytes) :
    Accounts quota (some now)
      (handed ++ if (take b payload.length now).1 = true then [(now, payload)] else [])
      (take b payload.length now).2 := by
  obtain ⟨past, rate, burst, metered⟩ := accounts.started nonneg clock
  obtain ⟨sameRate, sameBurst, last⟩ :=
    (Relay.started b now).take_settings TokenBucket.exactSeconds (payload.length : ℚ) now
  refine ⟨sameRate.trans rate, sameBurst.trans burst, .inr ⟨?_, ⟨now, rfl, last.le⟩, ?_⟩⟩
  · exact fun zero => nonzero (last.symm.trans zero)
  · intro since
    have spent := (metered since).take past (payload.length : ℚ)
    have total : spentSince
        (handed ++ if (Relay.take b payload.length now).1 = true then [(now, payload)] else [])
        since = spentSince handed since +
          if (Relay.take b payload.length now).1 = true ∧ since ≤ now then (payload.length : ℚ)
          else 0 := by
      cases (Relay.take b payload.length now).1 with
      | true => simp only [↓reduceIte, spentSince_append, true_and]
      | false => simp only [Bool.false_eq_true, ↓reduceIte, List.append_nil, false_and, add_zero]
    rw [total]
    exact spent

/-- The bytes of an interval that the bucket has not gone beyond. -/
theorem bounded (accounts : Accounts quota read handed b) (used : b.last ≠ zeroTime)
    {t0 t1 : Int} (interval : t0 ≤ t1) (past : b.last ≤ t1) :
    (bytesIn handed t0 t1 : ℚ) ≤ quota + TokenBucket.exactSeconds (t1 - t0) * quota := by
  rcases accounts.metered with ⟨unused, _⟩ | ⟨_, _, metered⟩
  · exact absurd unused used
  · have spent := (metered t0).spent_le interval past
    have later : bytesIn handed t0 t1 ≤ bytesAt (fun t => t0 ≤ t) handed :=
      bytesAt_mono (fun t both => (Bool.and_eq_true_iff.mp both).1) handed
    rw [accounts.rate, accounts.burst] at spent
    exact (Nat.cast_le.mpr later).trans spent

end Accounts

/-- A payload that is handed over after an interval does not count for it. -/
theorem bytesIn_append_of_lt {handed : List (Int × Bytes)} {now t0 t1 : Int} (late : t1 < now)
    (payload : Bytes) : bytesIn (handed ++ [(now, payload)]) t0 t1 = bytesIn handed t0 t1 := by
  have outside : ¬ now ≤ t1 := not_le.mpr late
  rw [bytesIn, bytesAt_append, bytesAt_singleton]
  simp only [outside, decide_false, Bool.and_false, Bool.false_eq_true, ↓reduceIte, Nat.add_zero]
  rfl

/-- Registering a node leaves the quota as it is. -/
theorem Hub.register_quota (h : Hub Sink) (nodeID : Bytes) (sink : Option Sink) :
    (h.register nodeID sink).2.quota = h.quota := by
  unfold register
  split
  · rfl
  · split
    · rfl
    · rfl

/-- A delivery keeps the traffic within the quota. -/
theorem Traffic.Within.delivered {quota : ℚ} (nonneg : 0 ≤ quota) {s : Traffic Sink}
    (within : s.Within quota) {now : Int} (nonzero : now ≠ zeroTime)
    (clock : ∀ last, s.now = some last → last ≤ now) {payload : Bytes}
    {delivered : Delivery Sink × Hub Sink} (effect : Effect s.hub payload now delivered) :
    Traffic.Within quota ⟨delivered.2, some now,
      s.handed ++ (delivered.1.handed.map fun x => (now, x.2)).toList⟩ := by
  obtain ⟨b, metered, accounts⟩ := within.bucket
  cases effect with
  | refused err =>
      rw [Option.map_none, Option.toList_none, List.append_nil]
      exact ⟨⟨b, metered, accounts.later clock⟩, within.bounded⟩
  | unlimited unmetered err sink notRefused =>
      rw [unmetered] at metered
      cases metered
  | dry bucket found short =>
      cases Option.some.inj (found.symm.trans metered)
      have next := accounts.take nonneg nonzero clock payload
      simp only [short, Bool.false_eq_true, ↓reduceIte, List.append_nil] at next
      rw [Option.map_none, Option.toList_none, List.append_nil]
      exact ⟨⟨_, rfl, next⟩, within.bounded⟩
  | paid bucket found granted err sink notRefused =>
      cases Option.some.inj (found.symm.trans metered)
      have next := accounts.take nonneg nonzero clock payload
      simp only [granted, ↓reduceIte] at next
      refine ⟨⟨_, rfl, next⟩, ?_⟩
      intro t0 t1 interval
      have last := ((started b now).take_settings TokenBucket.exactSeconds
        (payload.length : ℚ) now).2.2
      by_cases late : t1 < now
      · rw [Option.map_some, Option.toList_some, bytesIn_append_of_lt late]
        exact within.bounded t0 t1 interval
      · apply next.bounded _ interval
        · exact last.le.trans (not_lt.mp late)
        · exact fun zero => nonzero (last.symm.trans zero)

/-- Every call keeps the traffic within the quota. -/
theorem Traffic.Within.step {quota : ℚ} (nonneg : 0 ≤ quota) {s after : Traffic Sink}
    {call : Call Sink} (within : s.Within quota) (taken : Step s call after) :
    after.Within quota := by
  cases taken with
  | register nodeID sink =>
      obtain ⟨b, metered, accounts⟩ := within.bucket
      exact ⟨⟨b, (s.hub.register_quota nodeID sink).trans metered, accounts⟩, within.bounded⟩
  | unregister nodeID => exact ⟨within.bucket, within.bounded⟩
  | deliver source target payload now writeErr clock nonzero =>
      exact within.delivered nonneg nonzero clock (s.hub.deliver_effect target payload now writeErr)

/-- A hub with a quota: the payloads that are handed to sinks in an interval have at most the
bytes of the quota, and as many again for each second. What is refused for want of a route or
of quota is not handed to anyone. -/
theorem handed_le_quota {isRoot : Bool} {masterQuota : Int64} (positive : 0 < masterQuota)
    {s : Traffic Sink} (reached : Reachable Step (newTraffic Sink isRoot masterQuota) s) :
    (∀ t0 t1 : Int, t0 ≤ t1 →
      (bytesIn s.handed t0 t1 : ℚ) ≤
        masterQuota.toInt + masterQuota.toInt * ((t1 - t0 : Int) / 1000000000)) ∧
    ∀ (target payload : Bytes) (now : Int) (writeErr : Option Bytes),
      (s.hub.deliver target payload now writeErr).1.err = some .noRoute ∨
        (s.hub.deliver target payload now writeErr).1.err = some .quotaExceeded →
      (s.hub.deliver target payload now writeErr).1.handed = none := by
  have nonneg : (0 : ℚ) ≤ masterQuota.toInt := by
    exact_mod_cast (Int64.lt_iff_toInt_lt.mp positive).le
  have within := reached.invariant (Traffic.Within masterQuota.toInt)
    (Traffic.within_newTraffic isRoot positive) fun _ _ _ within taken => within.step nonneg taken
  refine ⟨?_, ?_⟩
  · intro t0 t1 interval
    rw [mul_comm]
    exact within.bounded t0 t1 interval
  · intro target payload now writeErr refused
    exact (s.hub.deliver_effect target payload now writeErr).handed_eq_none refused

/-- A master with a quota of 4 bytes per second, after a node has been registered and three
bytes have been sent to it. -/
def sampleTraffic : Traffic Unit :=
  let s := newTraffic Unit false 4
  Traffic.deliver { s with hub := (s.hub.register (ascii "b") (some ())).2 } (ascii "b") [1, 2, 3] 5
    none

/-- The three bytes are handed over and are within the quota of the first second, and two more
are refused. -/
theorem sampleTraffic_handed :
    bytesIn sampleTraffic.handed 0 1000000000 = 3 ∧
      (bytesIn sampleTraffic.handed 0 1000000000 : ℚ) ≤
        4 + 4 * ((1000000000 - 0 : Int) / 1000000000) ∧
      (sampleTraffic.hub.deliver (ascii "b") [4, 5] 6 none).1.handed = none := by
  have reached : Reachable Step (newTraffic Unit false 4) sampleTraffic :=
    ((Reachable.refl _).tail (.register (ascii "b") (some ()))).tail
      (.deliver (ascii "a") (ascii "b") [1, 2, 3] 5 none nofun (by decide))
  obtain ⟨bounded, unsent⟩ := handed_le_quota (by decide) reached
  refine ⟨by decide +kernel, bounded 0 1000000000 (by decide), ?_⟩
  exact unsent _ _ _ _ (.inr (by decide +kernel))

end P2pMesh.Relay

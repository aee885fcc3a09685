import P2pMesh.PortControl.Scanner

/-! # The rate of recorded probes

A recorded probe is paid for with a token of its source. The scanner drops the bucket of a
source that it blacklists and starts a full one when the blacklisting is over; by then the old
one would have been full as well, if the blacklist time is long enough to earn the burst. The
probes of a source that are recorded in an interval are then at most the burst and what the
interval earns (`P2pMesh.recordedIn_le`).
-/

namespace P2pMesh

open Foundation TokenBucket

/-- How many probes of the source were recorded from `since` to `upTo`. -/
def recordedIn (source : Bytes) (since upTo : Int) (returns : List (Probe × ProbeReturn)) : Nat :=
  returns.countP fun x =>
    x.1.source = source ∧ since ≤ x.1.now ∧ x.1.now ≤ upTo ∧ x.2.disposition = .recorded

/-- The settings of a scanner that keeps a source out for as long as it takes to earn the
burst. -/
structure ScanLimits.Recovers (l : ScanLimits ℚ) : Prop where
  rate : 0 ≤ l.rate
  burst : 0 ≤ l.burst
  pause : 0 ≤ l.blacklistFor
  covers : (l.burst : ℚ) ≤ exactSeconds l.blacklistFor * l.rate

namespace ScanEntries

/-- The bucket on which a probe draws after the expiry. -/
def bucketAt (l : ScanLimits ℚ) (x : ScanEntries ℚ) (now : Int) : TokenBucket ℚ :=
  (x.expire now).bucket.getD (newTokenBucket l.rate l.burst now)

/-- The bucket has the settings of the scanner and accounts for what was recorded. -/
structure Draws (l : ScanLimits ℚ) (since now : Int) (spent : ℚ) (b : TokenBucket ℚ) : Prop where
  rate : b.rate = l.rate
  burst : b.burst = l.burst
  past : b.last ≤ now
  metered : b.Metered since spent

/-- From the given time on, what was recorded since `since` is within the bound, and the
bucket on which the next probe draws accounts for it. -/
structure Metered (l : ScanLimits ℚ) (x : ScanEntries ℚ) (since clock : Int) (spent : ℚ) :
    Prop where
  bounded : ∀ upTo, clock ≤ upTo → since ≤ upTo →
    spent ≤ l.burst + exactSeconds (upTo - since) * l.rate
  draws : ∀ now, clock ≤ now → (x.expire now).blacklist = none →
    Draws l since now spent (x.bucketAt l now)

section Steps

variable {l : ScanLimits ℚ} {x : ScanEntries ℚ} {since clock now : Int} {spent : ℚ} {q : Probe}

/-- Nothing expires for a source that is not on the blacklist. -/
theorem expire_of_unlisted (unlisted : x.blacklist = none) : x.expire now = x := by
  simp only [expire, unlisted]

/-- A new bucket accounts for nothing spent. -/
theorem Draws.full (recovers : l.Recovers) :
    Draws l since now 0 (newTokenBucket l.rate l.burst now) :=
  ⟨rfl, rfl, le_refl _, metered_full recovers.rate (Int.cast_nonneg recovers.burst) rfl since⟩

/-- What was drawn since a time is within the burst and what was earned since. -/
theorem Draws.spent_le {b : TokenBucket ℚ} (draws : Draws l since now spent b) {upTo : Int}
    (later : now ≤ upTo) (interval : since ≤ upTo) :
    spent ≤ l.burst + exactSeconds (upTo - since) * l.rate := by
  have bound := draws.metered.spent_le interval (draws.past.trans later)
  rwa [draws.rate, draws.burst] at bound

/-- A source without entries has spent nothing. -/
theorem metered_empty (recovers : l.Recovers) : (empty : ScanEntries ℚ).Metered l since clock 0 :=
  ⟨fun _ _ interval => (Draws.full recovers).spent_le (le_refl _) interval,
    fun _ _ _ => Draws.full recovers⟩

namespace Metered

/-- The account stays right as the clock goes on. -/
theorem mono (metered : x.Metered l since clock spent) (later : clock ≤ now) :
    x.Metered l since now spent :=
  ⟨fun upTo after => metered.bounded upTo (later.trans after),
    fun t after => metered.draws t (later.trans after)⟩

/-- The expiry can be done early. -/
theorem expired (metered : x.Metered l since clock spent) :
    (x.expire clock).Metered l since clock spent := by
  refine ⟨metered.bounded, fun t after unlisted => ?_⟩
  rw [x.expire_expire after] at unlisted
  rw [bucketAt, x.expire_expire after]
  exact metered.draws t after unlisted

/-- A source that is blacklisted has no bucket; it starts with a full one after the pause. -/
theorem blacklisted (recovers : l.Recovers) (metered : x.Metered l since clock spent)
    (inactive : (x.expire clock).blacklist = none) :
    Metered l ⟨some (clock + l.blacklistFor), none, none⟩ since clock spent := by
  have draws := metered.draws clock (le_refl _) inactive
  refine ⟨metered.bounded, fun t _ unlisted => ?_⟩
  by_cases active : t < clock + l.blacklistFor
  · simp only [expire, active, ↓reduceIte, reduceCtorEq] at unlisted
  have rested : (x.bucketAt l clock).last + l.blacklistFor ≤ t := by
    have past := draws.past
    omega
  have covers := recovers.covers
  rw [← draws.burst, ← draws.rate] at covers
  have renewed := draws.metered.renew recovers.pause covers rested
  rw [draws.rate, draws.burst] at renewed
  simp only [bucketAt, expire, active, ↓reduceIte]
  exact ⟨rfl, rfl, le_refl _, renewed⟩

/-- A token is taken for a probe that is recorded. -/
theorem limited (metered : x.Metered l since clock spent)
    (inactive : (x.expire clock).blacklist = none) (ports : Option PortTimes) :
    (limit exactSeconds l { x.expire clock with ports := ports } clock).2.Metered l since clock
      (spent +
        if (limit exactSeconds l { x.expire clock with ports := ports } clock).1.disposition =
          .recorded ∧ since ≤ clock then 1 else 0) := by
  have draws := metered.draws clock (le_refl _) inactive
  obtain ⟨rate, burst, last⟩ := (x.bucketAt l clock).take_settings exactSeconds 1 clock
  have drawn (t : Int) (after : clock ≤ t) : Draws l since t _ _ :=
    ⟨rate.trans draws.rate, burst.trans draws.burst, last.le.trans after,
      draws.metered.take draws.past 1⟩
  have recorded :
      (limit exactSeconds l { x.expire clock with ports := ports } clock).1.disposition =
        .recorded ↔ ((x.bucketAt l clock).take exactSeconds 1 clock).1 = true := by
    change (if ((x.bucketAt l clock).take exactSeconds 1 clock).1 then _ else _) = _ ↔ _
    split
    next granted => exact iff_of_true rfl granted
    next refused => exact iff_of_false nofun refused
  have next (t : Int) :
      (limit exactSeconds l { x.expire clock with ports := ports } clock).2.bucketAt l t =
        ((x.bucketAt l clock).take exactSeconds 1 clock).2 := by
    rw [bucketAt, expire_of_unlisted (by exact inactive)]
    rfl
  simp only [recorded]
  refine ⟨fun upTo after interval => (drawn upTo after).spent_le (le_refl _) interval,
    fun t after _ => ?_⟩
  rw [next]
  exact drawn t after

/-- One probe keeps the account, with one more spent if it was recorded. -/
theorem probe (recovers : l.Recovers) (metered : x.Metered l since clock spent)
    (later : clock ≤ q.now) :
    (x.probe exactSeconds l q).2.Metered l since q.now
      (spent + if (x.probe exactSeconds l q).1.disposition = .recorded ∧ since ≤ q.now then 1
        else 0) := by
  replace metered := metered.mono later
  simp only [ScanEntries.probe]
  split
  · simpa only [reduceCtorEq, false_and, ↓reduceIte, add_zero] using metered.expired
  next inactive =>
    rw [Option.not_isSome_iff_eq_none] at inactive
    split
    · simpa only [reduceCtorEq, false_and, ↓reduceIte, add_zero] using metered.expired
    simp only [record]
    split
    · simpa only [reduceCtorEq, false_and, ↓reduceIte, add_zero] using
        metered.blacklisted recovers inactive
    exact metered.limited inactive _

end Metered

end Steps

end ScanEntries

/-- One more return counts if it is of the source, in the interval and recorded. -/
theorem recordedIn_cons (source : Bytes) (since upTo : Int) (x : Probe × ProbeReturn)
    (returns : List (Probe × ProbeReturn)) :
    recordedIn source since upTo (x :: returns) = recordedIn source since upTo returns +
      if x.1.source = source ∧ since ≤ x.1.now ∧ x.1.now ≤ upTo ∧ x.2.disposition = .recorded
      then 1 else 0 := by
  simp only [recordedIn, List.countP_cons, decide_eq_true_eq]

/-- Probes after the interval do not count. -/
theorem recordedIn_run_of_late (s : Scanner ℚ) (source : Bytes) {since upTo : Int}
    {probes : List Probe} (late : ∀ q ∈ probes, upTo < q.now) :
    recordedIn source since upTo (s.run exactSeconds probes) = 0 := by
  induction probes generalizing s with
  | nil => rfl
  | cons q rest ih =>
      have after := late q List.mem_cons_self
      rw [Scanner.run, recordedIn_cons,
        ih _ fun q' member => late q' (List.mem_cons_of_mem _ member),
        if_neg fun both => absurd both.2.2.1 (not_le.mpr after)]

/-- What a run records is within what is left of the bound. -/
theorem Scanner.recordedIn_run_le (s : Scanner ℚ) (recovers : s.limits.Recovers) {source : Bytes}
    {since upTo clock : Int} {spent : ℚ} (interval : since ≤ upTo) (started : clock ≤ upTo)
    (metered : (s.entries source).Metered s.limits since clock spent) {probes : List Probe}
    (ordered : probes.Pairwise (·.now ≤ ·.now)) (later : ∀ q ∈ probes, clock ≤ q.now) :
    spent + recordedIn source since upTo (s.run exactSeconds probes) ≤
      s.limits.burst + exactSeconds (upTo - since) * s.limits.rate := by
  induction probes generalizing s clock spent with
  | nil => simpa [Scanner.run, recordedIn] using metered.bounded upTo started interval
  | cons q rest ih =>
      obtain ⟨after, ordered⟩ := List.pairwise_cons.mp ordered
      by_cases late : upTo < q.now
      · have nothing : recordedIn source since upTo (s.run exactSeconds (q :: rest)) = 0 := by
          refine recordedIn_run_of_late s source (List.forall_mem_cons.mpr ⟨late, ?_⟩)
          exact fun q' member => late.trans_le (after q' member)
        rw [nothing, Nat.cast_zero, add_zero]
        exact metered.bounded upTo started interval
      · rw [not_lt] at late
        have past := later q List.mem_cons_self
        have step : ((s.probe exactSeconds q).2.entries source).Metered s.limits since q.now
            (spent + if q.source = source ∧ since ≤ q.now ∧ q.now ≤ upTo ∧
              (s.probe exactSeconds q).1.disposition = .recorded then 1 else 0) := by
          by_cases own : q.source = source
          · subst own
            have taken := metered.probe recovers past
            rw [s.probe_entries_own]
            simpa only [Scanner.probe, true_and, late, and_comm] using taken
          · rw [s.probe_entries_other exactSeconds q own]
            simpa only [own, false_and, ↓reduceIte, add_zero] using metered.mono past
        have rest_le := ih (s.probe exactSeconds q).2 recovers late step ordered after
        rw [s.probe_limits] at rest_le
        rw [Scanner.run, recordedIn_cons, Nat.cast_add, Nat.cast_ite, Nat.cast_one, Nat.cast_zero]
        linarith

/-- The default settings keep a source out for long enough to earn the burst. -/
theorem recovers_newScanner (onAnomaly : Bool) :
    (newScanner onAnomaly : Scanner ℚ).limits.Recovers where
  rate := by norm_num [newScanner, Scanner.fresh]
  burst := by norm_num [newScanner, Scanner.fresh]
  pause := by norm_num [newScanner, Scanner.fresh]
  covers := by norm_num [newScanner, Scanner.fresh, exactSeconds]

/-- With the settings of `NewScanner`, and token arithmetic without rounding, at most 20 probes
of a source and 10 for each second of an interval are recorded in it. -/
theorem recordedIn_le (onAnomaly : Bool) (source : Bytes) {probes : List Probe}
    (ordered : probes.Pairwise (·.now ≤ ·.now)) {t0 t1 : Int} (interval : t0 ≤ t1) :
    (recordedIn source t0 t1 ((newScanner onAnomaly : Scanner ℚ).run exactSeconds probes) : ℚ) ≤
      20 + 10 * exactSeconds (t1 - t0) := by
  -- the accounts are empty at any time before the probes
  obtain ⟨clock, started, later⟩ : ∃ clock ≤ t1, ∀ q ∈ probes, clock ≤ q.now := by
    cases probes with
    | nil => exact ⟨t1, le_refl _, nofun⟩
    | cons q rest =>
        refine ⟨min t1 q.now, min_le_left _ _, List.forall_mem_cons.mpr ⟨min_le_right _ _, ?_⟩⟩
        intro q' member
        exact (min_le_right _ _).trans ((List.pairwise_cons.mp ordered).1 q' member)
  have recovers := recovers_newScanner onAnomaly
  have metered : ((newScanner onAnomaly : Scanner ℚ).entries source).Metered
      (newScanner onAnomaly : Scanner ℚ).limits t0 clock 0 := ScanEntries.metered_empty recovers
  have bound := Scanner.recordedIn_run_le _ recovers interval started metered ordered later
  rw [zero_add, mul_comm] at bound
  exact bound

/-- Of 25 probes of one port at one time the burst is recorded. -/
theorem burst_recorded :
    recordedIn [1] 0 0 ((newScanner true : Scanner ℚ).run exactSeconds
        (List.replicate 25 ⟨[1], 80, false, 0⟩)) = 20 ∧
      (recordedIn [1] 0 0 ((newScanner true : Scanner ℚ).run exactSeconds
        (List.replicate 25 ⟨[1], 80, false, 0⟩)) : ℚ) ≤ 20 + 10 * exactSeconds (0 - 0) :=
  ⟨by decide +kernel, recordedIn_le true [1] (by decide) (le_refl 0)⟩

end P2pMesh

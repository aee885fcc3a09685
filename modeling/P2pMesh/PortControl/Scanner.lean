import P2pMesh.Foundation.BigEndian
import P2pMesh.Foundation.TokenBucket
import Mathlib.Data.Rat.Cast.Order
import Mathlib.Logic.Function.Basic

/-! # The scan defence

`Scanner.Probe` of `internal/portcontrol/scan.go`, over any number type for the tokens. A probe
reads and writes the entries of its own source only, and a same-room probe at most drops a
blacklist entry that has expired. The dispositions of the out-of-room probes of a source are
therefore a function of these probes (`P2pMesh.dispositions_of_deletion`). A same-room probe is
exempt unless the source is blacklisted (`P2pMesh.sameRoom_exempt_iff`).
-/

namespace P2pMesh

open Foundation

/-- The settings of a scanner; durations are in nanoseconds. -/
structure ScanLimits (K : Type*) where
  window : Int
  threshold : Int
  rate : K
  burst : Int
  blacklistFor : Int
  /-- `OnAnomaly` is set. -/
  onAnomaly : Bool

/-- `ProbeDisposition`. -/
inductive ProbeDisposition where
  | exempt
  | recorded
  | rateLimited
  | blacklisted
deriving DecidableEq

/-- The texts of the dispositions. -/
def ProbeDisposition.text : ProbeDisposition → String
  | .exempt => "exempt"
  | .recorded => "recorded"
  | .rateLimited => "rate_limited"
  | .blacklisted => "blacklisted"

/-- The ports of a source, each with the time at which it was last probed. -/
abbrev PortTimes := List (Int × Int)

/-- `set[port] = now`. -/
def PortTimes.set (ports : PortTimes) (port now : Int) : PortTimes :=
  (ports.filter fun x => x.1 ≠ port) ++ [(port, now)]

/-- The ports that were probed within the window. -/
def PortTimes.prune (ports : PortTimes) (window now : Int) : PortTimes :=
  ports.filter fun x => ¬ window < durationBetween now x.2

/-- The entries of one source in the three maps. -/
structure ScanEntries (K : Type*) where
  blacklist : Option Int
  ports : Option PortTimes
  bucket : Option (TokenBucket K)

/-- `Scanner`, over any number type. -/
structure Scanner (K : Type*) where
  limits : ScanLimits K
  blacklist : Bytes → Option Int
  ports : Bytes → Option PortTimes
  buckets : Bytes → Option (TokenBucket K)

/-- A call of `Probe`, with the reading of the clock. -/
structure Probe where
  source : Bytes
  port : Int
  sameRoom : Bool
  now : Int
deriving DecidableEq

/-- What a `Probe` returns, and its calls of `OnAnomaly`. -/
structure ProbeReturn where
  disposition : ProbeDisposition
  reports : List (Bytes × Nat)
deriving DecidableEq

section Entries

variable {K : Type*}

/-- `newTokenBucket`: a full bucket. -/
def newTokenBucket (rate burst : K) (now : Int) : TokenBucket K :=
  ⟨rate, burst, burst, now⟩

namespace ScanEntries

/-- The entries of a source that has not been seen. -/
def empty : ScanEntries K :=
  ⟨none, none, none⟩

/-- The lazy expiry of a blacklist entry, which takes the other entries with it. -/
def expire (x : ScanEntries K) (now : Int) : ScanEntries K :=
  match x.blacklist with
  | none => x
  | some deadline => if now < deadline then x else empty

/-- The ports with the one of the probe, less those that have left the window. -/
def recorded (l : ScanLimits K) (x : ScanEntries K) (q : Probe) : PortTimes :=
  ((x.ports.getD []).set q.port q.now).prune l.window q.now

/-- The entries are left as they are, or the blacklist entry is past its deadline. -/
theorem expire_cases (x : ScanEntries K) (now : Int) :
    x.expire now = x ∨ ∃ d, x.blacklist = some d ∧ d ≤ now ∧ x.expire now = empty := by
  cases deadline : x.blacklist with
  | none =>
      refine Or.inl ?_
      simp only [expire, deadline]
  | some d =>
      by_cases active : now < d
      · refine Or.inl ?_
        simp only [expire, deadline, active, ↓reduceIte]
      · refine Or.inr ⟨d, rfl, Int.not_lt.mp active, ?_⟩
        simp only [expire, deadline, active, ↓reduceIte]

/-- Expiring again, at a later time, is expiring at that time. -/
theorem expire_expire (x : ScanEntries K) {now later : Int} (clock : now ≤ later) :
    (x.expire now).expire later = x.expire later := by
  rcases x.expire_cases now with same | ⟨d, deadline, past, gone⟩
  · rw [same]
  · have finished : ¬ later < d := by omega
    have later : x.expire later = empty := by simp only [expire, deadline, finished, ↓reduceIte]
    rw [gone, later]
    rfl

/-- An entry that is left has not expired. -/
theorem expire_of_isSome {x : ScanEntries K} {now : Int}
    (listed : (x.expire now).blacklist.isSome) : x.expire now = x := by
  rcases x.expire_cases now with same | ⟨d, _, _, gone⟩
  · exact same
  · rw [gone] at listed
    cases listed

end ScanEntries

namespace Scanner

/-- A scanner that has seen no probe. -/
def fresh (l : ScanLimits K) : Scanner K :=
  ⟨l, fun _ => none, fun _ => none, fun _ => none⟩

/-- The entries of a source in the three maps. -/
def entries (s : Scanner K) (source : Bytes) : ScanEntries K :=
  ⟨s.blacklist source, s.ports source, s.buckets source⟩

/-- The scanner with other entries for a source. -/
def withEntries (s : Scanner K) (source : Bytes) (x : ScanEntries K) : Scanner K :=
  { s with
    blacklist := Function.update s.blacklist source x.blacklist
    ports := Function.update s.ports source x.ports
    buckets := Function.update s.buckets source x.bucket }

/-- Putting the entries of a source back changes nothing. -/
theorem withEntries_entries (s : Scanner K) (source : Bytes) :
    s.withEntries source (s.entries source) = s := by
  simp only [withEntries, entries, Function.update_eq_self]

end Scanner

/-- The defaults of `NewScanner`. -/
def newScanner [OfNat K 10] (onAnomaly : Bool) : Scanner K :=
  .fresh ⟨60 * 1000000000, 100, 10, 20, 5 * 60 * 1000000000, onAnomaly⟩

end Entries

section Probes

variable {K : Type*} [IntCast K] [One K] [Add K] [Sub K] [Mul K] [LT K] [DecidableLT K]
  (seconds : Int → K)

namespace ScanEntries

/-- The rate limit of a probe that does not make a scan. -/
def limit (l : ScanLimits K) (x : ScanEntries K) (now : Int) : ProbeReturn × ScanEntries K :=
  let taken := (x.bucket.getD (newTokenBucket l.rate l.burst now)).take seconds 1 now
  (⟨if taken.1 then .recorded else .rateLimited, []⟩, { x with bucket := some taken.2 })

/-- An out-of-room probe of a source that is not blacklisted. -/
def record (l : ScanLimits K) (x : ScanEntries K) (q : Probe) : ProbeReturn × ScanEntries K :=
  let ports := x.recorded l q
  if l.threshold ≤ ports.length then
    (⟨.blacklisted, if l.onAnomaly then [(q.source, ports.length)] else []⟩,
      ⟨some (q.now + l.blacklistFor), none, none⟩)
  else limit seconds l { x with ports := some ports } q.now

/-- `Probe` on the entries of its source. -/
def probe (l : ScanLimits K) (x : ScanEntries K) (q : Probe) : ProbeReturn × ScanEntries K :=
  let x := x.expire q.now
  if x.blacklist.isSome then (⟨.blacklisted, []⟩, x)
  else if q.sameRoom then (⟨.exempt, []⟩, x)
  else record seconds l x q

end ScanEntries

namespace Scanner

/-- `Probe`. -/
def probe (s : Scanner K) (q : Probe) : ProbeReturn × Scanner K :=
  let probed := (s.entries q.source).probe seconds s.limits q
  (probed.1, s.withEntries q.source probed.2)

/-- The scanner after a sequence of probes. -/
def after (s : Scanner K) (probes : List Probe) : Scanner K :=
  probes.foldl (fun s q => (s.probe seconds q).2) s

/-- The returns of a sequence of probes, each with its probe. -/
def run (s : Scanner K) : List Probe → List (Probe × ProbeReturn)
  | [] => []
  | q :: rest => (q, (s.probe seconds q).1) :: (s.probe seconds q).2.run rest

end Scanner

/-! ### One step on the entries of its source -/

namespace ScanEntries

/-- A probe does not see whether the expiry was done before. -/
theorem probe_expire (l : ScanLimits K) (x : ScanEntries K) (q : Probe) {now : Int}
    (clock : now ≤ q.now) : (x.expire now).probe seconds l q = x.probe seconds l q := by
  simp only [probe, x.expire_expire clock]

/-- A same-room probe does no more than the expiry. -/
theorem probe_sameRoom (l : ScanLimits K) (x : ScanEntries K) {q : Probe}
    (sameRoom : q.sameRoom = true) : (x.probe seconds l q).2 = x.expire q.now := by
  simp only [probe, sameRoom, ↓reduceIte]
  split <;> rfl

/-- What a same-room probe returns is decided by the blacklist entry alone. -/
theorem disposition_sameRoom (l : ScanLimits K) (x : ScanEntries K) {q : Probe}
    (sameRoom : q.sameRoom = true) :
    (x.probe seconds l q).1.disposition = .exempt ↔
      ∀ deadline ∈ x.blacklist, deadline ≤ q.now := by
  cases listed : x.blacklist with
  | none => simp [probe, expire, listed, sameRoom]
  | some deadline =>
      by_cases active : q.now < deadline
      · simp [probe, expire, listed, active]
      · simp [probe, expire, listed, active, empty, sameRoom, not_lt.mp active]

/-- The returns of a sequence of probes of one source. -/
def run (l : ScanLimits K) (x : ScanEntries K) : List Probe → List (Probe × ProbeReturn)
  | [] => []
  | q :: rest => (q, (x.probe seconds l q).1) :: run l (x.probe seconds l q).2 rest

/-- An expiry that the first probe would do anyway can be done before. -/
theorem run_expire (l : ScanLimits K) (x : ScanEntries K) {probes : List Probe} {now : Int}
    (clock : ∀ q ∈ probes, now ≤ q.now) :
    (x.expire now).run seconds l probes = x.run seconds l probes := by
  cases probes with
  | nil => rfl
  | cons q rest => simp only [run, x.probe_expire seconds l q (clock q List.mem_cons_self)]

end ScanEntries

namespace Scanner

/-- A probe leaves the limits as they are. -/
theorem probe_limits (s : Scanner K) (q : Probe) : (s.probe seconds q).2.limits = s.limits :=
  rfl

/-- A probe works on the entries of its source. -/
theorem probe_entries_own (s : Scanner K) (q : Probe) :
    (s.probe seconds q).2.entries q.source =
      ((s.entries q.source).probe seconds s.limits q).2 := by
  simp only [probe, withEntries, entries, Function.update_self]

/-- A probe leaves the entries of the other sources as they are. -/
theorem probe_entries_other (s : Scanner K) (q : Probe) {source : Bytes}
    (other : q.source ≠ source) : (s.probe seconds q).2.entries source = s.entries source := by
  simp only [probe, withEntries, entries, Function.update_of_ne other.symm]

end Scanner

/-! ### Whole runs -/

/-- The probe is by the source, from outside its room. -/
def Probe.outside (source : Bytes) (q : Probe) : Bool :=
  q.source = source ∧ q.sameRoom = false

/-- What the out-of-room probes of a source return is a run on its entries alone. -/
theorem Scanner.run_outside (s : Scanner K) (source : Bytes) {probes : List Probe}
    (clock : probes.Pairwise (·.now ≤ ·.now)) :
    (s.run seconds probes).filter (fun x => x.1.outside source) =
      (s.entries source).run seconds s.limits (probes.filter (·.outside source)) := by
  induction probes generalizing s with
  | nil => rfl
  | cons q rest ih =>
      obtain ⟨later, clock⟩ := List.pairwise_cons.mp clock
      have rest_eq := ih (s.probe seconds q).2 clock
      rw [s.probe_limits] at rest_eq
      by_cases own : q.source = source
      · subst own
        rw [s.probe_entries_own] at rest_eq
        by_cases sameRoom : q.sameRoom = true
        · -- the probe may have dropped an expired entry, which the next probe would do as well
          have skipped : q.outside q.source = false := by simp [Probe.outside, sameRoom]
          rw [ScanEntries.probe_sameRoom seconds _ _ sameRoom, ScanEntries.run_expire] at rest_eq
          · simp only [run, List.filter_cons, skipped, Bool.false_eq_true, ↓reduceIte, rest_eq]
          · intro q' kept
            exact later q' (List.mem_of_mem_filter kept)
        · have counted : q.outside q.source = true := by simp [Probe.outside, sameRoom]
          simp only [run, List.filter_cons, counted, ↓reduceIte, rest_eq, ScanEntries.run]
          rfl
      · have skipped : q.outside source = false := by simp [Probe.outside, own]
        rw [s.probe_entries_other seconds q own] at rest_eq
        simp only [run, List.filter_cons, skipped, Bool.false_eq_true, ↓reduceIte, rest_eq]

/-- Only an out-of-room probe of the source makes its blacklist entry. -/
theorem Scanner.unlisted_after (s : Scanner K) {source : Bytes} {probes : List Probe}
    (unlisted : (s.entries source).blacklist = none)
    (inside : ∀ q ∈ probes, q.outside source = false) :
    ((s.after seconds probes).entries source).blacklist = none := by
  induction probes generalizing s with
  | nil => exact unlisted
  | cons q rest ih =>
      refine ih _ ?_ fun q' later => inside q' (List.mem_cons_of_mem _ later)
      by_cases own : q.source = source
      · subst own
        have sameRoom : q.sameRoom = true := by
          simpa [Probe.outside] using inside q List.mem_cons_self
        rw [s.probe_entries_own, ScanEntries.probe_sameRoom seconds _ _ sameRoom,
          ScanEntries.expire, unlisted]
        exact unlisted
      · rw [s.probe_entries_other seconds q own]
        exact unlisted

/-- Probes of other sources and same-room probes can be deleted from a run: the out-of-room
probes of the source return what they returned. -/
theorem dispositions_of_deletion (s : Scanner K) (source : Bytes) {probes kept : List Probe}
    (clock : probes.Pairwise (·.now ≤ ·.now)) (deletion : kept.Sublist probes)
    (outside : kept.filter (·.outside source) = probes.filter (·.outside source)) :
    (s.run seconds kept).filter (fun x => x.1.outside source) =
      (s.run seconds probes).filter (fun x => x.1.outside source) := by
  rw [s.run_outside seconds source clock, s.run_outside seconds source (clock.sublist deletion),
    outside]

/-- The blacklist is consulted before the room: after any probes a same-room probe is exempt
just when its source has no blacklist entry that is still active, which is so as long as the
source has not probed from outside the room. -/
theorem sameRoom_exempt_iff (l : ScanLimits K) (probes : List Probe) (source : Bytes)
    (port now : Int) :
    ((((Scanner.fresh l).after seconds probes).probe seconds
        ⟨source, port, true, now⟩).1.disposition = .exempt ↔
      ∀ deadline ∈ ((Scanner.fresh l).after seconds probes).blacklist source, deadline ≤ now) ∧
    ((∀ q ∈ probes, q.outside source = false) →
      (((Scanner.fresh l).after seconds probes).probe seconds
        ⟨source, port, true, now⟩).1.disposition = .exempt) := by
  have decided := ScanEntries.disposition_sameRoom seconds
    ((Scanner.fresh l).after seconds probes).limits
    (((Scanner.fresh l).after seconds probes).entries source)
    (q := ⟨source, port, true, now⟩) rfl
  refine ⟨decided, fun inside => decided.mpr ?_⟩
  rw [Scanner.unlisted_after seconds (Scanner.fresh l) rfl inside]
  intro deadline listed
  cases listed

end Probes

/-- A run in which the source `[1]` is blacklisted; its same-room probe, and a probe of
another source, come after the end of the blacklisting. -/
def sampleProbes : List Probe :=
  [⟨[1], 80, false, 1⟩, ⟨[1], 81, false, 2⟩, ⟨[1], 80, true, 9⟩, ⟨[2], 80, false, 9⟩]

/-- A probe of port 82. -/
def sampleProbe : Probe :=
  ⟨[1], 82, false, 10⟩

/-- The limits of the sample runs: two ports in 60 ns blacklist a source. -/
def sampleLimits (blacklistFor : Int) : ScanLimits ℚ :=
  ⟨60, 2, 10, 20, blacklistFor, true⟩

/-- Two ports from outside the room, and the probes of the source from its own room are
dropped as blacklisted. -/
theorem sameRoom_blacklisted :
    (((Scanner.fresh (sampleLimits 5)).after TokenBucket.exactSeconds
      [⟨[1], 80, false, 1⟩, ⟨[1], 81, false, 2⟩]).probe TokenBucket.exactSeconds
        ⟨[1], 80, true, 3⟩).1.disposition = .blacklisted := by
  decide

/-- The probes of one source are decided alike without those of the others. -/
theorem sampleProbes_deletion :
    ((Scanner.fresh (sampleLimits 5)).run TokenBucket.exactSeconds
        ((sampleProbes ++ [sampleProbe]).filter (·.outside [1]))).filter
          (fun x => x.1.outside [1]) =
      ((Scanner.fresh (sampleLimits 5)).run TokenBucket.exactSeconds
        (sampleProbes ++ [sampleProbe])).filter (fun x => x.1.outside [1]) :=
  dispositions_of_deletion TokenBucket.exactSeconds _ [1] (by decide) List.filter_sublist
    (by decide)

end P2pMesh

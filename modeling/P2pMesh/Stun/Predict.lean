import P2pMesh.Foundation.BigEndian
import P2pMesh.Foundation.Int64Arith
import P2pMesh.Foundation.Sorting
import Mathlib.Data.Rat.Floor

/-! # Prediction of ports

`AnalyzePortSequence` of `internal/stun/predict.go`. Ports are `int`s with their machine
arithmetic, the mean and the variance are exact rationals, and `sort.Slice` is any function
that sorts by the timestamps.

The window of a prediction is clamped to the ports, and the predicted port is not: the window
is usable exactly when the last port and the step that follows it come to a port
(`P2pMesh.Stun.usable_analyzePortSequence_iff`). A cyclic pattern is continued with the first
delta, which is right for an even number of deltas only
(`P2pMesh.Stun.continues_analyzePortSequence_iff`). Ports that form an arithmetic progression
are predicted, unless there are fewer than five and all are the same
(`P2pMesh.Stun.analyzePortSequence_progression_iff`, which also says where the arithmetic of
`int` gives out).
-/

namespace P2pMesh.Stun

open Foundation

/-- `PortSample`. -/
structure PortSample where
  port : Int64
  destination : Bytes
  timestamp : Int
deriving DecidableEq, Repr

/-- `PortPattern`. -/
inductive PortPattern where
  | linear
  | cyclic
  | random
  | insufficient
deriving DecidableEq, Repr

/-- The texts of the patterns. -/
def PortPattern.text : PortPattern → String
  | .linear => "linear"
  | .cyclic => "cyclic"
  | .random => "random"
  | .insufficient => "insufficient"

/-- `PortPrediction`. -/
structure PortPrediction where
  pattern : PortPattern
  nextPort : Int64
  windowStart : Int64
  windowEnd : Int64
  samples : List PortSample
  deltas : List Int64
deriving DecidableEq, Repr

/-- The differences of consecutive ports. -/
def deltasOf : List PortSample → List Int64
  | first :: second :: samples => (second.port - first.port) :: deltasOf (second :: samples)
  | _ => []

/-- `mean`; the sum wraps around. -/
def mean (xs : List Int64) : ℚ :=
  if xs.length = 0 then 0
  else (xs.foldl (fun sum x => sum + x) 0).toInt / xs.length

/-- `varianceInt`. -/
def varianceInt (xs : List Int64) (m : ℚ) : ℚ :=
  if xs.length = 0 then 0
  else xs.foldl (fun sum x => sum + (x.toInt - m) * (x.toInt - m)) 0 / xs.length

/-- The conversion to `int`, which rounds towards zero. -/
def truncate (q : ℚ) : Int64 :=
  Int64.ofInt (if 0 ≤ q then q.floor else q.ceil)

/-- `absInt`. -/
def absInt (x : Int64) : Int64 :=
  if x < 0 then -x else x

/-- `clampPort`. -/
def clampPort (p : Int64) : Int64 :=
  if p < 1 then 1 else if 65535 < p then 65535 else p

/-- `isCyclic`: every delta is that of two places before. -/
def isCyclic (deltas : List Int64) : Bool :=
  if deltas.length < 4 then false
  else (List.range' 2 (deltas.length - 2)).all fun i => deltas[i]? = deltas[i - 2]?

/-- The variance is low relative to the mean. -/
def IsLinear (deltas : List Int64) : Prop :=
  let m := truncate (mean deltas)
  m ≠ 0 ∧ varianceInt deltas (mean deltas) < (absInt m).toInt * (absInt m).toInt

instance (deltas : List Int64) : Decidable (IsLinear deltas) :=
  inferInstanceAs (Decidable (_ ∧ _))

/-- The port of the last sample. -/
def lastPort (samples : List PortSample) : Int64 :=
  (samples.getLast?.map PortSample.port).getD 0

/-- The prediction for a step from the last port, with the half width of the window. -/
def predicted (pattern : PortPattern) (samples : List PortSample) (step halfW : Int64) :
    PortPrediction where
  pattern := pattern
  nextPort := lastPort samples + step
  windowStart := clampPort (lastPort samples + step - halfW)
  windowEnd := clampPort (lastPort samples + step + halfW)
  samples := samples
  deltas := deltasOf samples

/-- `AnalyzePortSequence` on samples in the order of their timestamps. -/
def analyzeSorted (samples : List PortSample) : PortPrediction :=
  let deltas := deltasOf samples
  if IsLinear deltas then
    let meanDeltaInt := truncate (mean deltas)
    predicted .linear samples meanDeltaInt (absInt meanDeltaInt * 2)
  else if isCyclic deltas then
    -- The index is zero for every length.
    let nextDelta := (deltas[deltas.length % deltas.length]?).getD 0
    predicted .cyclic samples nextDelta (absInt nextDelta)
  else ⟨.random, 0, 0, 0, samples, deltas⟩

/-- `AnalyzePortSequence`. -/
def analyzePortSequence (sorter : Sorting PortSample.timestamp) (samples : List PortSample) :
    PortPrediction :=
  if samples.length < 2 then ⟨.insufficient, 0, 0, 0, samples, []⟩
  else analyzeSorted (sorter.sort samples)

section Deltas

/-- There is one difference less than there are samples. -/
theorem length_deltasOf (samples : List PortSample) :
    (deltasOf samples).length = samples.length - 1 := by
  induction samples with
  | nil => rfl
  | cons first samples ih =>
      cases samples with
      | nil => rfl
      | cons second samples =>
          rw [deltasOf, List.length_cons, ih]
          rfl

theorem lastPort_cons_cons (first second : PortSample) (samples : List PortSample) :
    lastPort (first :: second :: samples) = lastPort (second :: samples) := by
  rw [lastPort, List.getLast?_cons_cons]
  rfl

/-- The last port is that of a sample. -/
theorem exists_lastPort {samples : List PortSample} (nonempty : samples ≠ []) :
    ∃ s ∈ samples, lastPort samples = s.port := by
  refine ⟨samples.getLast nonempty, List.getLast_mem nonempty, ?_⟩
  rw [lastPort, List.getLast?_eq_some_getLast nonempty]
  rfl

/-- The sum of the differences is the difference of the ends, also where it wraps. -/
theorem foldl_deltasOf (start : Int64) (first : PortSample) (samples : List PortSample) :
    (deltasOf (first :: samples)).foldl (fun sum x => sum + x) start =
      start + (lastPort (first :: samples) - first.port) := by
  induction samples generalizing start first with
  | nil =>
      have same : lastPort [first] = first.port := rfl
      rw [same, Int64.sub_self, Int64.add_zero]
      rfl
  | cons second samples ih =>
      rw [deltasOf, List.foldl_cons, ih, lastPort_cons_cons]
      grind

/-- The mean of the differences is that of the first and the last port. -/
theorem mean_deltasOf (first second : PortSample) (samples : List PortSample) :
    mean (deltasOf (first :: second :: samples)) =
      (lastPort (first :: second :: samples) - first.port).toInt / (samples.length + 1 : ℕ) := by
  have count : (deltasOf (first :: second :: samples)).length = samples.length + 1 :=
    length_deltasOf _
  rw [mean, if_neg (by rw [count]; exact Nat.succ_ne_zero _), foldl_deltasOf, Int64.zero_add, count]

end Deltas

section Rounding

/-- Rounding towards zero gives an integer between zero and the number. -/
theorem truncate_between {q : ℚ} (low : -2 ^ 63 ≤ q) (high : q < 2 ^ 63) :
    (0 ≤ q → 0 ≤ (truncate q).toInt ∧ ((truncate q).toInt : ℚ) ≤ q) ∧
      (q ≤ 0 → q ≤ ((truncate q).toInt : ℚ) ∧ (truncate q).toInt ≤ 0) := by
  by_cases nonneg : 0 ≤ q
  · have positive : 0 ≤ q.floor := Rat.le_floor_iff.mpr (by exact_mod_cast nonneg)
    have below : (q.floor : ℚ) ≤ q := Rat.floor_le q
    have bounded : q.floor < 2 ^ 63 := by exact_mod_cast below.trans_lt high
    have value : (truncate q).toInt = q.floor := by
      rw [truncate, if_pos nonneg]
      exact toInt_ofInt_of_fits ⟨by omega, bounded⟩
    rw [value]
    refine ⟨fun _ => ⟨positive, below⟩, fun nonpos => ?_⟩
    have zero : q = 0 := le_antisymm nonpos nonneg
    rw [zero]
    exact ⟨le_refl _, le_refl _⟩
  · have negative : q.ceil ≤ 0 := Rat.ceil_le_iff.mpr (by exact_mod_cast (not_le.mp nonneg).le)
    have above : q ≤ (q.ceil : ℚ) := Rat.le_ceil
    have bounded : -2 ^ 63 ≤ q.ceil := by exact_mod_cast low.trans above
    have value : (truncate q).toInt = q.ceil := by
      rw [truncate, if_neg nonneg]
      exact toInt_ofInt_of_fits ⟨bounded, by omega⟩
    rw [value]
    exact ⟨fun positive => absurd positive nonneg, fun _ => ⟨above, negative⟩⟩

/-- The conversion to an integer rounds towards zero. -/
theorem abs_truncate_le {q : ℚ} (low : -2 ^ 63 ≤ q) (high : q < 2 ^ 63) :
    |((truncate q).toInt : ℚ)| ≤ |q| := by
  obtain ⟨up, down⟩ := truncate_between low high
  rcases le_total 0 q with nonneg | nonpos
  · obtain ⟨positive, below⟩ := up nonneg
    rwa [abs_of_nonneg (Int.cast_nonneg positive), abs_of_nonneg nonneg]
  · obtain ⟨above, negative⟩ := down nonpos
    rw [abs_of_nonpos (Int.cast_nonpos.mpr negative), abs_of_nonpos nonpos]
    exact neg_le_neg above

/-- The conversion leaves integers as they are. -/
theorem truncate_intCast (x : Int64) : truncate (x.toInt : ℚ) = x := by
  rw [truncate, Rat.floor_intCast, Rat.ceil_intCast, ite_self, Int64.ofInt_toInt]

theorem toInt_absInt_mul_self (x : Int64) :
    (absInt x).toInt * (absInt x).toInt = x.toInt * x.toInt := by
  unfold absInt
  split
  · by_cases least : x.toInt = -2 ^ 63
    · have word : x = Int64.ofInt (-2 ^ 63) := by rw [← least, Int64.ofInt_toInt]
      rw [word]
      decide
    · have range := toInt_range x
      rw [toInt_neg_of_fits (by omega), neg_mul_neg]
  · rfl

/-- `absInt` is the absolute value, except at the least integer. -/
theorem toInt_absInt {x : Int64} (fits : -2 ^ 63 < x.toInt) : (absInt x).toInt = |x.toInt| := by
  unfold absInt
  split
  next negative =>
    rw [Int64.lt_iff_toInt_lt] at negative
    rw [toInt_neg_of_fits fits, abs_of_neg negative]
  next nonnegative =>
    rw [Int64.lt_iff_toInt_lt, not_lt] at nonnegative
    rw [abs_of_nonneg nonnegative]

theorem absInt_range {x : Int64} (small : |x.toInt| ≤ 65534) :
    0 ≤ (absInt x).toInt ∧ (absInt x).toInt ≤ 65534 := by
  have range := abs_le.mp small
  rw [toInt_absInt (by omega)]
  exact ⟨abs_nonneg _, small⟩

theorem absInt_mul_two_range {x : Int64} (small : |x.toInt| ≤ 65534) :
    0 ≤ (absInt x * 2).toInt ∧ (absInt x * 2).toInt ≤ 2 * 65534 := by
  have half := absInt_range small
  rw [toInt_mul_two_of_fits (by omega) (by omega)]
  omega

end Rounding

section Windows

/-- A prediction that a caller can use. -/
def Usable (p : PortPrediction) : Prop :=
  1 ≤ p.windowStart ∧ p.windowStart ≤ p.nextPort ∧ p.nextPort ≤ p.windowEnd ∧ p.windowEnd ≤ 65535

instance (p : PortPrediction) : Decidable (Usable p) :=
  inferInstanceAs (Decidable (_ ∧ _ ∧ _ ∧ _))

/-- `clampPort` is the nearest port number. -/
theorem toInt_clampPort (p : Int64) : (clampPort p).toInt = max 1 (min p.toInt 65535) := by
  have one : (1 : Int64).toInt = 1 := rfl
  have top : (65535 : Int64).toInt = 65535 := rfl
  unfold clampPort
  simp only [Int64.lt_iff_toInt_lt, one, top]
  split
  · omega
  · split
    · omega
    · omega

/-- A window around the port after a step is usable exactly when that is a port. -/
theorem usable_predicted_iff {pattern : PortPattern} {samples : List PortSample}
    {step halfW : Int64} (port : 1 ≤ (lastPort samples).toInt ∧ (lastPort samples).toInt ≤ 65535)
    (small : |step.toInt| ≤ 65534) (wide : 0 ≤ halfW.toInt ∧ halfW.toInt ≤ 2 * 65534) :
    Usable (predicted pattern samples step halfW) ↔
      1 ≤ (lastPort samples).toInt + step.toInt ∧
        (lastPort samples).toInt + step.toInt ≤ 65535 := by
  rw [abs_le] at small
  have next : (lastPort samples + step).toInt = (lastPort samples).toInt + step.toInt :=
    toInt_add_of_fits (by omega) (by omega)
  have start : (lastPort samples + step - halfW).toInt =
      (lastPort samples + step).toInt - halfW.toInt := toInt_sub_of_fits (by omega) (by omega)
  have stop : (lastPort samples + step + halfW).toInt =
      (lastPort samples + step).toInt + halfW.toInt := toInt_add_of_fits (by omega) (by omega)
  have one : (1 : Int64).toInt = 1 := rfl
  have top : (65535 : Int64).toInt = 65535 := rfl
  simp only [Usable, predicted, Int64.le_iff_toInt_le, toInt_clampPort, one, top, start, stop, next]
  omega

end Windows

section Analysis

/-- The three outcomes of the analysis. -/
theorem analyzeSorted_cases (samples : List PortSample) :
    (IsLinear (deltasOf samples) ∧ analyzeSorted samples =
      predicted .linear samples (truncate (mean (deltasOf samples)))
        (absInt (truncate (mean (deltasOf samples))) * 2)) ∨
    (¬ IsLinear (deltasOf samples) ∧ isCyclic (deltasOf samples) = true ∧ analyzeSorted samples =
      predicted .cyclic samples ((deltasOf samples)[0]?.getD 0)
        (absInt ((deltasOf samples)[0]?.getD 0))) ∨
    (¬ IsLinear (deltasOf samples) ∧ isCyclic (deltasOf samples) = false ∧
      analyzeSorted samples = ⟨.random, 0, 0, 0, samples, deltasOf samples⟩) := by
  by_cases linear : IsLinear (deltasOf samples)
  · exact Or.inl ⟨linear, if_pos linear⟩
  · cases cyclic : isCyclic (deltasOf samples) with
    | true =>
        refine Or.inr (Or.inl ⟨linear, rfl, ?_⟩)
        simp only [analyzeSorted, linear, cyclic, ↓reduceIte, Nat.mod_self]
    | false =>
        refine Or.inr (Or.inr ⟨linear, rfl, ?_⟩)
        simp only [analyzeSorted, linear, cyclic, ↓reduceIte, Bool.false_eq_true]

/-- Samples that give a linear or cyclic pattern are analysed in their order. -/
theorem analyzePortSequence_of_pattern {sorter : Sorting PortSample.timestamp}
    {samples : List PortSample}
    (found : (analyzePortSequence sorter samples).pattern ≠ .insufficient) :
    2 ≤ samples.length ∧
      analyzePortSequence sorter samples = analyzeSorted (sorter.sort samples) := by
  by_cases few : samples.length < 2
  · rw [analyzePortSequence, if_pos few] at found
    exact absurd rfl found
  · exact ⟨Nat.le_of_not_lt few, if_neg few⟩

/-- The step that is predicted from ports is no longer than they are apart. -/
theorem abs_truncate_mean_le {first second : PortSample} {samples : List PortSample}
    (ports : ∀ s ∈ first :: second :: samples, 1 ≤ s.port.toInt ∧ s.port.toInt ≤ 65535) :
    |(truncate (mean (deltasOf (first :: second :: samples)))).toInt| ≤ 65534 := by
  obtain ⟨last, member, lastEq⟩ := exists_lastPort (List.cons_ne_nil first (second :: samples))
  have lastRange := ports last member
  have firstRange := ports first List.mem_cons_self
  have apart : (last.port - first.port).toInt = last.port.toInt - first.port.toInt :=
    toInt_sub_of_fits (by omega) (by omega)
  have span : |(last.port - first.port).toInt| ≤ 65534 := by
    rw [apart, abs_le]
    omega
  have bound : |mean (deltasOf (first :: second :: samples))| ≤ 65534 := by
    rw [mean_deltasOf, lastEq, abs_div, Nat.abs_cast]
    have one : (1 : ℚ) ≤ ((samples.length + 1 : ℕ) : ℚ) := by exact_mod_cast Nat.le_add_left 1 _
    apply (div_le_self (abs_nonneg _) one).trans
    exact_mod_cast span
  have range := abs_le.mp bound
  have rounded := abs_truncate_le (q := mean (deltasOf (first :: second :: samples)))
    (by linarith) (by linarith)
  exact_mod_cast rounded.trans bound

/-- The step that the analysis adds to the last port of samples in the order of their timestamps:
the truncated mean of the deltas when they are linear, and else the first delta. -/
def stepOf (ordered : List PortSample) : Int64 :=
  if IsLinear (deltasOf ordered) then truncate (mean (deltasOf ordered))
  else (deltasOf ordered)[0]?.getD 0

/-- A linear or cyclic sequence of ports has a usable window exactly when the port of the last
sample and the step, the truncated mean of the deltas or the first one, come to a port. -/
theorem usable_analyzePortSequence_iff {sorter : Sorting PortSample.timestamp}
    {samples : List PortSample}
    (ports : ∀ s ∈ samples, 1 ≤ s.port.toInt ∧ s.port.toInt ≤ 65535)
    (found : (analyzePortSequence sorter samples).pattern = .linear ∨
      (analyzePortSequence sorter samples).pattern = .cyclic) :
    Usable (analyzePortSequence sorter samples) ↔
      1 ≤ (lastPort (sorter.sort samples)).toInt + (stepOf (sorter.sort samples)).toInt ∧
        (lastPort (sorter.sort samples)).toInt + (stepOf (sorter.sort samples)).toInt ≤ 65535 := by
  have sufficient : (analyzePortSequence sorter samples).pattern ≠ .insufficient := by
    rcases found with linear | cyclic
    · simp [linear]
    · simp [cyclic]
  obtain ⟨two, sorted⟩ := analyzePortSequence_of_pattern sufficient
  rw [sorted] at found ⊢
  have perm := sorter.perm samples
  have ordered : ∀ s ∈ sorter.sort samples, 1 ≤ s.port.toInt ∧ s.port.toInt ≤ 65535 :=
    fun s member => ports s (perm.mem_iff.mp member)
  rw [← perm.length_eq] at two
  generalize sorter.sort samples = list at two ordered found
  match list, two with
  | first :: second :: rest, _ =>
      obtain ⟨last, member, lastEq⟩ := exists_lastPort (List.cons_ne_nil first (second :: rest))
      have lastRange : 1 ≤ (lastPort (first :: second :: rest)).toInt ∧
          (lastPort (first :: second :: rest)).toInt ≤ 65535 := lastEq ▸ ordered last member
      rcases analyzeSorted_cases (first :: second :: rest) with
        ⟨isLinear, linear⟩ | ⟨notLinear, _, cyclic⟩ | ⟨_, _, random⟩
      · -- In range, the mean of the differences moves the last port by less than the range of
        -- ports.
        have small := abs_truncate_mean_le ordered
        rw [linear, stepOf, if_pos isLinear]
        exact usable_predicted_iff lastRange small (absInt_mul_two_range small)
      · have small : |(second.port - first.port).toInt| ≤ 65534 := by
          have firstRange := ordered first List.mem_cons_self
          have secondRange := ordered second (List.mem_cons_of_mem _ List.mem_cons_self)
          rw [toInt_sub_of_fits (by omega) (by omega), abs_le]
          omega
        have half := absInt_range small
        rw [cyclic, stepOf, if_neg notLinear]
        exact usable_predicted_iff lastRange small ⟨half.1, half.2.trans (by decide)⟩
      · rw [random] at found
        rcases found with same | same
        · cases same
        · cases same

/-- Samples of these ports, one after the other. -/
def sampleRun (ports : List Int64) : List PortSample :=
  ports.mapIdx fun i port => ⟨port, ascii "stun", i⟩

/-- The sorting function of the samples below. -/
def byInsertion : Sorting PortSample.timestamp :=
  .insertion PortSample.timestamp

/-- Ports that rise by two are continued, and so is a cycle of two steps. -/
theorem usable_rising_ports :
    Usable (analyzePortSequence byInsertion (sampleRun [40000, 40002, 40004])) ∧
      Usable (analyzePortSequence byInsertion (sampleRun [100, 110, 100, 110, 100])) :=
  ⟨(usable_analyzePortSequence_iff (by decide) (Or.inl (by decide +kernel))).mpr
      (by decide +kernel),
    (usable_analyzePortSequence_iff (by decide) (Or.inr (by decide +kernel))).mpr
      (by decide +kernel)⟩

/-- After 65530 and 65535 the port 65540 is predicted. -/
theorem unusable_past_the_last_port :
    (analyzePortSequence byInsertion (sampleRun [65530, 65535])).pattern = .linear ∧
      ¬ Usable (analyzePortSequence byInsertion (sampleRun [65530, 65535])) := by
  decide +kernel

end Analysis

section Cycles

/-- A cycle is only seen in four differences or more. -/
theorem length_of_isCyclic {deltas : List Int64} (cyclic : isCyclic deltas = true) :
    4 ≤ deltas.length := by
  by_contra short
  rw [isCyclic, if_pos (Nat.lt_of_not_le short)] at cyclic
  cases cyclic

/-- Every delta of a cyclic sequence is one of the first two. -/
theorem getElem?_of_isCyclic {deltas : List Int64} (cyclic : isCyclic deltas = true) {i : Nat}
    (inside : i < deltas.length) : deltas[i]? = deltas[i % 2]? := by
  have long := length_of_isCyclic cyclic
  rw [isCyclic, if_neg (Nat.not_lt.mpr long), List.all_eq_true] at cyclic
  induction i using Nat.strong_induction_on with
  | h i ih =>
      by_cases early : i < 2
      · rw [Nat.mod_eq_of_lt early]
      · have member : i ∈ List.range' 2 (deltas.length - 2) := by
          rw [List.mem_range'_1]
          omega
        have previous := of_decide_eq_true (cyclic i member)
        rw [previous, ih (i - 2) (by omega) (by omega)]
        congr 1
        omega

/-- The prediction of a cyclic pattern continues the cycle exactly when the number of
deltas is even or all of them are the same. -/
theorem continues_analyzePortSequence_iff {sorter : Sorting PortSample.timestamp}
    {samples : List PortSample}
    (found : (analyzePortSequence sorter samples).pattern = .cyclic) :
    let p := analyzePortSequence sorter samples
    let deltas := deltasOf (sorter.sort samples)
    p.deltas[p.deltas.length - 2]? = some (p.nextPort - lastPort p.samples) ↔
      deltas.length % 2 = 0 ∨ deltas[0]? = deltas[1]? := by
  have sufficient : (analyzePortSequence sorter samples).pattern ≠ .insufficient := by
    simp [found]
  obtain ⟨_, sorted⟩ := analyzePortSequence_of_pattern sufficient
  rw [sorted] at found ⊢
  generalize sorter.sort samples = list at found
  rcases analyzeSorted_cases list with ⟨_, linear⟩ | ⟨_, cyclic, analysed⟩ | ⟨_, _, random⟩
  · rw [linear] at found
    cases found
  · rw [analysed]
    have long := length_of_isCyclic cyclic
    obtain ⟨first, atZero⟩ : ∃ x, (deltasOf list)[0]? = some x :=
      ⟨_, List.getElem?_eq_getElem (by omega)⟩
    have step : lastPort list + first - lastPort list = first := by
      rw [Int64.add_comm, Int64.add_sub_cancel]
    change (deltasOf list)[(deltasOf list).length - 2]? =
      some (lastPort list + (deltasOf list)[0]?.getD 0 - lastPort list) ↔
        (deltasOf list).length % 2 = 0 ∨ (deltasOf list)[0]? = (deltasOf list)[1]?
    rw [getElem?_of_isCyclic cyclic (by omega), atZero, Option.getD_some, step]
    -- The last difference but one is the first or the second of the cycle, by its parity.
    rcases Nat.mod_two_eq_zero_or_one (deltasOf list).length with even | odd
    · have index : ((deltasOf list).length - 2) % 2 = 0 := by omega
      rw [index, atZero]
      exact iff_of_true rfl (Or.inl even)
    · have index : ((deltasOf list).length - 2) % 2 = 1 := by omega
      have notEven : ¬ (deltasOf list).length % 2 = 0 := by omega
      rw [index, or_iff_right notEven]
      exact eq_comm
  · rw [random] at found
    cases found

/-- Four deltas of 10 and -10 are continued by 10. -/
theorem continues_even_cycle :
    let p := analyzePortSequence byInsertion (sampleRun [100, 110, 100, 110, 100])
    p.deltas[p.deltas.length - 2]? = some (p.nextPort - lastPort p.samples) :=
  (continues_analyzePortSequence_iff (by decide +kernel)).mpr (Or.inl (by decide +kernel))

/-- Five deltas that end with 10 are continued by 10 again. -/
theorem repeats_odd_cycle :
    let p := analyzePortSequence byInsertion (sampleRun [100, 110, 100, 110, 100, 110])
    p.pattern = .cyclic ∧ p.deltas = [10, -10, 10, -10, 10] ∧
      p.nextPort - lastPort p.samples = 10 := by
  decide +kernel

end Cycles

section Progressions

variable (n : Nat) (x : Int64)

theorem foldl_add_replicate (start : Int64) :
    (List.replicate n x).foldl (fun sum x => sum + x) start =
      start + Int64.ofInt (n * x.toInt) := by
  induction n generalizing start with
  | zero => rw [Nat.cast_zero, zero_mul]; exact (Int64.add_zero start).symm
  | succ n ih =>
      rw [List.replicate_succ, List.foldl_cons, ih, Nat.cast_succ, add_mul, one_mul,
        Int64.ofInt_add, Int64.ofInt_toInt]
      grind

theorem foldl_squares_replicate (m start : ℚ) :
    (List.replicate n x).foldl (fun sum x => sum + (x.toInt - m) * (x.toInt - m)) start =
      start + n * ((x.toInt - m) * (x.toInt - m)) := by
  induction n generalizing start with
  | zero => simp
  | succ n ih =>
      rw [List.replicate_succ, List.foldl_cons, ih]
      push_cast
      ring

variable {n}

/-- The mean of one difference, repeated, is that of a sum that wraps around. -/
theorem mean_replicate (positive : 0 < n) :
    mean (List.replicate n x) = (Int64.ofInt (n * x.toInt)).toInt / n := by
  rw [mean, List.length_replicate, if_neg positive.ne', foldl_add_replicate, Int64.zero_add]

/-- The variance of one difference, repeated, is its squared distance from the mean. -/
theorem varianceInt_replicate (positive : 0 < n) (m : ℚ) :
    varianceInt (List.replicate n x) m = (x.toInt - m) * (x.toInt - m) := by
  have nonzero : (n : ℚ) ≠ 0 := Nat.cast_ne_zero.mpr positive.ne'
  rw [varianceInt, List.length_replicate, if_neg positive.ne', foldl_squares_replicate, zero_add,
    mul_div_cancel_left₀ _ nonzero]

/-- If the sum does not wrap around, the mean of one difference, repeated, is that difference. -/
theorem mean_replicate_of_fits (positive : 0 < n) (fits : FitsInt64 (n * x.toInt)) :
    mean (List.replicate n x) = x.toInt := by
  have count : (n : ℚ) ≠ 0 := Nat.cast_ne_zero.mpr positive.ne'
  rw [mean_replicate x positive, toInt_ofInt_of_fits fits, Int.cast_mul, Int.cast_natCast,
    mul_div_cancel_left₀ _ count]

theorem mean_replicate_range (positive : 0 < n) :
    -2 ^ 63 ≤ mean (List.replicate n x) ∧ mean (List.replicate n x) < 2 ^ 63 := by
  have count : (0 : ℚ) < n := Nat.cast_pos.mpr positive
  have one : (1 : ℚ) ≤ n := Nat.one_le_cast.mpr positive
  have range := toInt_range (Int64.ofInt (n * x.toInt))
  have low : (-2 ^ 63 : ℚ) ≤ (Int64.ofInt (n * x.toInt)).toInt := by exact_mod_cast range.1
  have high : ((Int64.ofInt (n * x.toInt)).toInt : ℚ) < 2 ^ 63 := by exact_mod_cast range.2
  rw [mean_replicate x positive, le_div_iff₀ count, div_lt_iff₀ count]
  exact ⟨by nlinarith, by nlinarith⟩

/-- Where the sum of equal deltas wraps, each of them is farther from the mean than zero is. -/
theorem abs_mean_replicate_le (positive : 0 < n) (wraps : ¬ FitsInt64 (n * x.toInt)) :
    |mean (List.replicate n x)| ≤ |x.toInt - mean (List.replicate n x)| := by
  obtain ⟨w, wrapped⟩ := exists_toInt_ofInt (n * x.toInt)
  have some : 1 ≤ |w| := by
    apply Int.one_le_abs
    intro zero
    apply wraps
    rw [← toInt_ofInt_eq_iff, wrapped, zero, mul_zero, sub_zero]
  have range := toInt_range (Int64.ofInt (n * x.toInt))
  have count : (0 : ℚ) < n := Nat.cast_pos.mpr positive
  have sum : n * mean (List.replicate n x) = (Int64.ofInt (n * x.toInt)).toInt := by
    rw [mean_replicate x positive, mul_div_cancel₀ _ count.ne']
  have rest : n * (x.toInt - mean (List.replicate n x)) = ((2 ^ 64 * w : ℤ) : ℚ) := by
    rw [mul_sub, sum, wrapped]
    push_cast
    ring
  have far : |(Int64.ofInt (n * x.toInt)).toInt| ≤ |2 ^ 64 * w| := by
    have power : |(2 ^ 64 : Int)| = 2 ^ 64 := rfl
    rw [abs_mul, power, abs_le]
    omega
  apply le_of_mul_le_mul_left _ count
  rw [← abs_of_pos count, ← abs_mul, ← abs_mul, sum, rest]
  exact_mod_cast far

/-- Equal deltas are linear exactly when they are not zero and their sum does not wrap. -/
theorem isLinear_replicate_iff (positive : 0 < n) :
    IsLinear (List.replicate n x) ↔ x ≠ 0 ∧ FitsInt64 (n * x.toInt) := by
  have square (m : Int64) :
      ((absInt m).toInt : ℚ) * (absInt m).toInt = (m.toInt : ℚ) * m.toInt := by
    exact_mod_cast toInt_absInt_mul_self m
  rw [IsLinear, varianceInt_replicate x positive, square]
  by_cases fits : FitsInt64 (n * x.toInt)
  · rw [mean_replicate_of_fits x positive fits, truncate_intCast, sub_self, zero_mul]
    refine and_congr_right fun nonzero => iff_of_true ?_ fits
    rw [mul_self_pos, Int.cast_ne_zero]
    intro zero
    exact nonzero (Int64.toInt_inj.mp zero)
  · refine iff_of_false ?_ fun both => fits both.2
    intro linear
    obtain ⟨low, high⟩ := mean_replicate_range x positive
    have small := (abs_truncate_le low high).trans (abs_mean_replicate_le x positive fits)
    have squares := mul_self_le_mul_self (abs_nonneg _) small
    rw [abs_mul_abs_self, abs_mul_abs_self] at squares
    exact absurd linear.2 (not_lt.mpr squares)

/-- One difference, repeated, is a cycle from four on. -/
theorem isCyclic_replicate : isCyclic (List.replicate n x) = decide (4 ≤ n) := by
  rw [isCyclic, List.length_replicate]
  by_cases short : n < 4
  · rw [if_pos short, decide_eq_false (by omega)]
  · rw [if_neg short, decide_eq_true (by omega), List.all_eq_true]
    intro i member
    rw [List.mem_range'_1] at member
    rw [decide_eq_true_iff, List.getElem?_replicate, List.getElem?_replicate, if_pos (by omega),
      if_pos (by omega)]

/-- What the analysis makes of equal deltas. -/
theorem analyzeSorted_replicate {samples : List PortSample} (positive : 0 < n)
    (deltas : deltasOf samples = List.replicate n x) :
    ((analyzeSorted samples).pattern ≠ .random ↔ 4 ≤ n ∨ x ≠ 0 ∧ FitsInt64 (n * x.toInt)) ∧
      ((analyzeSorted samples).pattern ≠ .random →
        (analyzeSorted samples).nextPort = lastPort samples + x) := by
  have cases := analyzeSorted_cases samples
  rw [deltas, isLinear_replicate_iff x positive, isCyclic_replicate] at cases
  rcases cases with ⟨linear, analysed⟩ | ⟨_, cyclic, analysed⟩ | ⟨notLinear, notCyclic, analysed⟩
  · rw [analysed, mean_replicate_of_fits x positive linear.2, truncate_intCast]
    exact ⟨iff_of_true PortPattern.noConfusion (Or.inr linear), fun _ => rfl⟩
  · have first : (List.replicate n x)[0]?.getD 0 = x := by
      rw [List.getElem?_replicate, if_pos positive, Option.getD_some]
    rw [analysed, first]
    exact ⟨iff_of_true PortPattern.noConfusion (Or.inl (of_decide_eq_true cyclic)), fun _ => rfl⟩
  · rw [analysed]
    refine ⟨iff_of_false (fun known => known rfl) ?_, fun known => absurd rfl known⟩
    rintro (long | linear)
    · exact of_decide_eq_false notCyclic long
    · exact notLinear linear

variable {d : Int} {ordered : List PortSample}

/-- The deltas of ports that form a progression. -/
theorem deltasOf_progression
    (progression : ordered.IsChain fun a b => b.port.toInt = a.port.toInt + d) :
    deltasOf ordered = List.replicate (ordered.length - 1) (Int64.ofInt d) := by
  induction ordered with
  | nil => rfl
  | cons first samples ih =>
      cases samples with
      | nil => rfl
      | cons second samples =>
          obtain ⟨step, rest⟩ := List.isChain_cons_cons.mp progression
          have word : second.port = first.port + Int64.ofInt d := by
            rw [← Int64.ofInt_toInt second.port, step, Int64.ofInt_add, Int64.ofInt_toInt]
          rw [deltasOf, ih rest, word, Int64.add_comm, Int64.add_sub_cancel]
          rfl

/-- The last port of a progression. -/
theorem toInt_lastPort_progression {first : PortSample} {samples : List PortSample}
    (progression : (first :: samples).IsChain fun a b => b.port.toInt = a.port.toInt + d) :
    (lastPort (first :: samples)).toInt = first.port.toInt + samples.length * d := by
  induction samples generalizing first with
  | nil =>
      rw [List.length_nil, Nat.cast_zero, zero_mul, add_zero]
      rfl
  | cons second samples ih =>
      obtain ⟨step, rest⟩ := List.isChain_cons_cons.mp progression
      rw [lastPort_cons_cons, ih rest, step, List.length_cons, Nat.cast_succ]
      ring

/-- If the next port of a progression fits, so does the difference. -/
theorem fits_of_next {first last : Int} {count : Nat} (firstFits : FitsInt64 first)
    (ends : last = first + (count + 1) * d) (next : FitsInt64 (last + d)) : FitsInt64 d := by
  obtain ⟨low, high⟩ := firstFits
  obtain ⟨nextLow, nextHigh⟩ := next
  rcases le_total 0 d with nonneg | nonpos
  · have grows : 0 ≤ count * d := mul_nonneg (Nat.cast_nonneg _) nonneg
    rw [add_mul, one_mul] at ends
    exact ⟨by omega, by omega⟩
  · have falls : count * d ≤ 0 := mul_nonpos_of_nonneg_of_nonpos (Nat.cast_nonneg _) nonpos
    rw [add_mul, one_mul] at ends
    exact ⟨by omega, by omega⟩

/-- The port of the first sample. -/
def firstPort (samples : List PortSample) : Int64 :=
  (samples.head?.map PortSample.port).getD 0

/-- A progression is predicted exactly when it has five samples, or its difference is not
zero and that of its ends is an `int`; and the next port is an `int` as well. -/
theorem analyzePortSequence_progression_iff {sorter : Sorting PortSample.timestamp}
    {samples : List PortSample} (several : 2 ≤ ordered.length)
    (times : ordered.Pairwise fun a b => a.timestamp < b.timestamp)
    (progression : ordered.IsChain fun a b => b.port.toInt = a.port.toInt + d)
    (perm : samples.Perm ordered) :
    let p := analyzePortSequence sorter samples
    p.pattern ≠ .random ∧ p.nextPort.toInt = (lastPort ordered).toInt + d ↔
      (5 ≤ ordered.length ∨
        d ≠ 0 ∧ FitsInt64 ((lastPort ordered).toInt - (firstPort ordered).toInt)) ∧
      FitsInt64 ((lastPort ordered).toInt + d) := by
  have enough : ¬ samples.length < 2 := by rw [perm.length_eq]; omega
  rw [analyzePortSequence, if_neg enough, sorter.sort_eq_of_strict perm times]
  match ordered, several with
  | first :: second :: rest, _ =>
      have ends := toInt_lastPort_progression progression
      have deltas : deltasOf (first :: second :: rest) =
          List.replicate (rest.length + 1) (Int64.ofInt d) := deltasOf_progression progression
      obtain ⟨known, next⟩ := analyzeSorted_replicate _ (Nat.succ_pos _) deltas
      -- If the next port does not fit, no `int` can be the prediction.
      by_cases fits : FitsInt64 ((lastPort (first :: second :: rest)).toInt + d)
      · rw [List.length_cons, Nat.cast_succ] at ends
        have word : (Int64.ofInt d).toInt = d :=
          toInt_ofInt_of_fits (fits_of_next (toInt_range _) ends fits)
        have nonzero : Int64.ofInt d ≠ 0 ↔ d ≠ 0 := by
          rw [← Int64.toInt_inj.ne, word]
          rfl
        have span : (lastPort (first :: second :: rest)).toInt -
            (firstPort (first :: second :: rest)).toInt = (rest.length + 1 : ℕ) * d := by
          rw [ends, Nat.cast_succ]
          exact add_sub_cancel_left _ _
        have long : 4 ≤ rest.length + 1 ↔ 5 ≤ (first :: second :: rest).length :=
          Nat.succ_le_succ_iff.symm
        rw [word, nonzero, ← span, long] at known
        rw [and_iff_left fits, ← known]
        refine and_iff_left_of_imp fun pattern => ?_
        rw [next pattern, toInt_add_of_fits (by rw [word]; exact fits.1)
          (by rw [word]; exact fits.2), word]
      · refine iff_of_false ?_ fun both => fits both.2
        rintro ⟨_, reached⟩
        exact fits (reached ▸ toInt_range _)

/-- The falling ports 5009, 5006 and 5003, given in another order. -/
theorem analyzePortSequence_falling :
    let p := analyzePortSequence byInsertion
      [⟨5003, [], 3⟩, ⟨5009, [], 1⟩, ⟨5006, [], 2⟩]
    p.pattern ≠ .random ∧ p.nextPort.toInt = 5000 := by
  have times : [(⟨5009, [], 1⟩ : PortSample), ⟨5006, [], 2⟩, ⟨5003, [], 3⟩].Pairwise
      fun a b => a.timestamp < b.timestamp := by decide
  have progression : [(⟨5009, [], 1⟩ : PortSample), ⟨5006, [], 2⟩, ⟨5003, [], 3⟩].IsChain
      fun a b => b.port.toInt = a.port.toInt + -3 := by decide
  exact (analyzePortSequence_progression_iff (by decide) times progression (by decide)).mpr
    (by decide)

/-- Four samples of one port. -/
theorem analyzePortSequence_constant :
    (sampleRun [5000, 5000, 5000, 5000]).Pairwise (fun a b => a.timestamp < b.timestamp) ∧
      (sampleRun [5000, 5000, 5000, 5000]).IsChain
        (fun a b => b.port.toInt = a.port.toInt + 0) ∧
      (analyzePortSequence byInsertion (sampleRun [5000, 5000, 5000, 5000])).pattern =
        .random := by
  decide +kernel

end Progressions

end P2pMesh.Stun

import P2pMesh.Foundation.BigEndian
import P2pMesh.Foundation.RingWalk
import P2pMesh.Foundation.Transition
import Mathlib.Data.Rat.Floor

/-! # Reselection of bootstrap servers

`Picker` and `ServerBackoff` of `internal/bootstrap/reselect.go`. `OnFailure` looks up the
current address in the list of candidates and goes on behind its first occurrence, so an
address that is listed twice turns the walk back. Every server is tried again and again
exactly when the list is closed: a front part without repetitions has all addresses and is
followed by the first one (`P2pMesh.Bootstrap.reaches_all_iff`).

Numbers of type `float64` are rationals, and the numbers that a random source gives are
arguments.
-/

namespace P2pMesh.Bootstrap

open Foundation

/-- The policy of the waiting times, in nanoseconds. -/
structure ServerBackoff where
  jitter : Int
  base : Int
  max : Int
  factor : ℚ
deriving DecidableEq

/-- A second in nanoseconds. -/
def second : Int := 1000000000

/-- `NewServerBackoffWith` without the random source. -/
def newServerBackoffWith (jitter base max : Int) (factor : ℚ) : ServerBackoff where
  jitter := jitter
  base := if base ≤ 0 then second else base
  max := if max ≤ 0 then 60 * second else max
  factor := factor

/-- `NewServerBackoff`. -/
def newServerBackoff : ServerBackoff :=
  newServerBackoffWith (5 * second) second (60 * second) 2

/-- The loop of `delayLocked`: `d` grows while it is below the maximum. -/
def grow (b : ServerBackoff) : Nat → ℚ → ℚ
  | 0, d => d
  | turns + 1, d => if d < b.max then grow b turns (d * b.factor) else d

/-- `delayLocked`, where `Int63n` of a bound is `draw` of it. -/
def delayLocked (b : ServerBackoff) (draw : Int → Int) (attempt : Nat) : Int :=
  if attempt = 0 then
    if b.jitter ≤ 0 then 0 else draw b.jitter
  else
    let d := min (grow b (attempt - 1) b.base) b.max
    let d := if 0 < b.jitter then d + draw b.jitter else d
    if 0 ≤ d then d.floor else d.ceil

/-- `Picker`. -/
structure Picker where
  candidates : List Bytes
  current : Bytes
  attempt : Nat
  backoff : ServerBackoff
deriving DecidableEq

/-- `NewPickerWith`. -/
def newPickerWith (candidates : List Bytes) (backoff : ServerBackoff) : Picker :=
  ⟨candidates, candidates.headD [], 0, backoff⟩

/-- `NewPicker`. -/
def newPicker (candidates : List Bytes) : Picker :=
  newPickerWith candidates newServerBackoff

/-- `Picker.OnSuccess`. -/
def onSuccess (p : Picker) : Picker :=
  { p with attempt := 0 }

/-- The index of the first candidate that is the current address, or zero. -/
def currentIndex (p : Picker) : Nat :=
  (p.candidates.findIdx? (· = p.current)).getD 0

/-- `OnFailure`, with the address and the waiting time that it returns. -/
def onFailure (p : Picker) (draw : Int → Int) : (Bytes × Int) × Picker :=
  let delay := delayLocked p.backoff draw p.attempt
  let p := { p with attempt := p.attempt + 1 }
  if p.candidates.length = 0 then (([], delay), { p with current := [] })
  else
    let current := p.candidates.getD ((currentIndex p + 1) % p.candidates.length) []
    ((current, delay), { p with current := current })

/-- What happens to a picker: a failure with a random draw, or a success. -/
inductive PickerEvent where
  | failure (draw : Int → Int)
  | success

/-- What an event does to a picker. -/
def PickerStep (before : Picker) (event : PickerEvent) (after : Picker) : Prop :=
  match event with
  | .failure draw => (onFailure before draw).2 = after
  | .success => onSuccess before = after

/-- The picker after a number of failures in a row. -/
def afterFailures (p : Picker) (draws : Nat → Int → Int) : Nat → Picker
  | 0 => p
  | calls + 1 => (onFailure (afterFailures p draws calls) (draws calls)).2

/-- As many failures in a row as there are candidates select every one of them. -/
def SelectsAll (p : Picker) : Prop :=
  ∀ (draws : Nat → Int → Int), ∀ address ∈ p.candidates, ∃ call < p.candidates.length,
    (onFailure (afterFailures p draws call) (draws call)).1.1 = address

section Walk

variable {p : Picker} {candidates : List Bytes}

/-- A failure is a step of the walk. -/
theorem onFailure_spec (nonempty : p.candidates ≠ []) (draw : Int → Int) :
    (onFailure p draw).1.1 = RingWalk.next p.candidates p.current ∧
      (onFailure p draw).2.current = RingWalk.next p.candidates p.current ∧
      (onFailure p draw).2.candidates = p.candidates := by
  have positive : 0 < p.candidates.length := List.length_pos_iff.mpr nonempty
  have chosen : p.candidates.getD ((currentIndex p + 1) % p.candidates.length) [] =
      RingWalk.next p.candidates p.current := by
    rw [currentIndex, RingWalk.findIdx?_succ_mod, RingWalk.getD_eq_next nonempty]
  have failed : onFailure p draw =
      ((p.candidates.getD ((currentIndex p + 1) % p.candidates.length) [],
          delayLocked p.backoff draw p.attempt),
        { p with
          attempt := p.attempt + 1
          current := p.candidates.getD ((currentIndex p + 1) % p.candidates.length) [] }) :=
    if_neg positive.ne'
  rw [failed, chosen]
  exact ⟨rfl, rfl, rfl⟩

/-- Each failure moves one place along the ring of candidates, which stays the same. -/
theorem afterFailures_spec (nonempty : p.candidates ≠ []) (draws : Nat → Int → Int) (calls : Nat) :
    (afterFailures p draws calls).current = (RingWalk.next p.candidates)^[calls] p.current ∧
      (afterFailures p draws calls).candidates = p.candidates := by
  induction calls with
  | zero => exact ⟨rfl, rfl⟩
  | succ calls ih =>
      obtain ⟨current, same⟩ := ih
      have step := onFailure_spec (same ▸ nonempty) (draws calls)
      rw [same, current] at step
      rw [Function.iterate_succ_apply']
      exact step.2

/-- The failures in a row select all candidates when the walk covers them. -/
theorem selectsAll_iff (nonempty : p.candidates ≠ []) :
    SelectsAll p ↔ RingWalk.Covers p.candidates p.current := by
  have selected (draws : Nat → Int → Int) (call : Nat) :
      (onFailure (afterFailures p draws call) (draws call)).1.1 =
        (RingWalk.next p.candidates)^[call + 1] p.current := by
    obtain ⟨current, same⟩ := afterFailures_spec nonempty draws call
    rw [(onFailure_spec (same ▸ nonempty) (draws call)).1, same, current,
      Function.iterate_succ_apply']
  constructor
  · intro all address member
    obtain ⟨call, inside, reached⟩ := all (fun _ _ => 0) address member
    exact ⟨call, inside, by rw [← reached, selected]⟩
  · intro covers draws address member
    obtain ⟨call, inside, reached⟩ := covers address member
    exact ⟨call, inside, by rw [selected, reached]⟩

/-- Every state of a picker stands somewhere on the walk from the first candidate. -/
theorem reachable_spec (nonempty : candidates ≠ [])
    (reached : Reachable PickerStep (newPicker candidates) p) :
    p.candidates = candidates ∧
      ∃ m, p.current = (RingWalk.next candidates)^[m] (candidates.headD []) := by
  refine reached.invariant (fun p => p.candidates = candidates ∧
    ∃ m, p.current = (RingWalk.next candidates)^[m] (candidates.headD [])) ⟨rfl, 0, rfl⟩ ?_
  rintro before event after ⟨same, m, current⟩ step
  cases event with
  | failure draw =>
      obtain ⟨_, moved, kept⟩ := onFailure_spec (same ▸ nonempty) draw
      rw [show (onFailure before draw).2 = after from step] at moved kept
      refine ⟨kept.trans same, m + 1, ?_⟩
      rw [moved, same, current, Function.iterate_succ_apply']
  | success =>
      rw [← show onSuccess before = after from step]
      exact ⟨same, m, current⟩

/-- Failures in a row are steps of the picker. -/
theorem reachable_afterFailures (p : Picker) (draws : Nat → Int → Int) (calls : Nat) :
    Reachable PickerStep p (afterFailures p draws calls) := by
  induction calls with
  | zero => exact .refl p
  | succ calls ih =>
      have taken : PickerStep (afterFailures p draws calls) (.failure (draws calls))
          (afterFailures p draws (calls + 1)) := rfl
      exact ih.tail taken

end Walk

/-- Failures reach every server, from every state, exactly when the list of candidates is
closed. -/
theorem reaches_all_iff {candidates : List Bytes} (nonempty : candidates ≠ []) :
    (∀ p, Reachable PickerStep (newPicker candidates) p → SelectsAll p) ↔
      RingWalk.Closed candidates := by
  have start : candidates[0]? = some (candidates.headD []) := by
    cases candidates with
    | nil => exact absurd rfl nonempty
    | cons first rest => rfl
  rw [← RingWalk.covers_iff start]
  constructor
  · intro all m
    have reached := reachable_afterFailures (newPicker candidates) (fun _ _ => 0) m
    obtain ⟨current, same⟩ : (afterFailures (newPicker candidates) (fun _ _ => 0) m).current =
        (RingWalk.next candidates)^[m] (candidates.headD []) ∧
          (afterFailures (newPicker candidates) (fun _ _ => 0) m).candidates = candidates :=
      afterFailures_spec nonempty (fun _ _ => 0) m
    have own : (afterFailures (newPicker candidates) (fun _ _ => 0) m).candidates ≠ [] := by
      rw [same]
      exact nonempty
    have covers := (selectsAll_iff own).mp (all _ reached)
    rwa [same, current] at covers
  · intro covers p reached
    obtain ⟨same, m, current⟩ := reachable_spec nonempty reached
    rw [selectsAll_iff (same ▸ nonempty), same, current]
    exact covers m

section Samples

/-- Four candidates, each address twice. -/
def sampleServers : List Bytes :=
  [ascii "a:1", ascii "b:1", ascii "a:1", ascii "b:1"]

/-- A list that is closed although it has repetitions. -/
theorem selectsAll_sampleServers : SelectsAll (newPicker sampleServers) := by
  have closed : RingWalk.Closed sampleServers :=
    ⟨2, by decide, by decide, by decide, by decide, by decide⟩
  exact (reaches_all_iff (by decide)).mpr closed _ (.refl _)

/-- With the first server listed twice in a row, the third is never selected. -/
theorem not_selectsAll_repeated :
    ¬ SelectsAll (newPicker [ascii "a:1", ascii "a:1", ascii "b:1"]) := by
  intro all
  obtain ⟨call, inside, selected⟩ := all (fun _ _ => 0) (ascii "b:1") (by decide)
  revert selected
  revert call
  decide

end Samples

end P2pMesh.Bootstrap

import P2pMesh.Foundation.HistoryFilter
import Mathlib.Data.List.Induction

/-! # The replay window

`replayWindow` of `internal/tunnel/tunnel.go`. A number is accepted when it is
above the highest number offered so far, or when it is at least a window size
below it (`P2pMesh.ReplayWindow.allow_iff`): the second case falls through the
window check of the source and is accepted again whenever it is offered. The
bitmap is maintained but never decides an answer.
-/

namespace P2pMesh

open Foundation

/-- `replayWindow`. The bitmap has one bit for each number of the window. -/
structure ReplayWindow where
  bitmap : List UInt64
  size : Nat
  last : UInt64
  size_pos : 0 < size
  bitmap_length : bitmap.length = (size + 63) / 64

/-- `newReplayWindow`. -/
def newReplayWindow (size : Int) : ReplayWindow where
  bitmap := List.replicate (((if size ≤ 0 then 1024 else size.toNat) + 63) / 64) 0
  size := if size ≤ 0 then 1024 else size.toNat
  last := 0
  size_pos := by
    split <;> omega
  bitmap_length := List.length_replicate

namespace ReplayWindow

/-- The shift loop of `allow`, from index `i - 1` down to zero, in place. -/
def shiftWords (words : Nat) : Nat → List UInt64 → List UInt64
  | 0, bitmap => bitmap
  | i + 1, bitmap =>
      shiftWords words i (bitmap.set i (if words ≤ i then bitmap.getD (i - words) 0 else 0))

/-- A shift keeps the number of words. -/
theorem length_shiftWords (words i : Nat) (bitmap : List UInt64) :
    (shiftWords words i bitmap).length = bitmap.length := by
  induction i generalizing bitmap with
  | zero => rfl
  | succ i ih => rw [shiftWords, ih, List.length_set]

/-- Whether the bit at distance `idx` behind `last` is set. -/
def marked (w : ReplayWindow) (idx : Nat) : Bool :=
  w.bitmap.getD (idx / 64) 0 &&& (1 <<< UInt64.ofNat (idx % 64)) != 0

/-- Set the bit at distance `idx` behind `last`. -/
def mark (w : ReplayWindow) (idx : Nat) : ReplayWindow :=
  { w with
    bitmap := w.bitmap.set (idx / 64)
      (w.bitmap.getD (idx / 64) 0 ||| (1 <<< UInt64.ofNat (idx % 64)))
    bitmap_length := by rw [List.length_set, w.bitmap_length] }

/-- Move the window up to `seq`. The bitmap moves by whole words only. -/
def advance (w : ReplayWindow) (seq : UInt64) : ReplayWindow :=
  { w with
    bitmap :=
      if w.size ≤ (seq - w.last).toNat then List.replicate w.bitmap.length 0
      else shiftWords ((seq - w.last).toNat / 64) w.bitmap.length w.bitmap
    last := seq
    bitmap_length := by
      split
      · rw [List.length_replicate, w.bitmap_length]
      · rw [length_shiftWords, w.bitmap_length] }

/-- `replayWindow.allow`, with the window it leaves. -/
def allow (w : ReplayWindow) (seq : UInt64) : Bool × ReplayWindow :=
  if seq ≤ w.last ∧ (w.last - seq).toNat < w.size then
    -- A number inside the window is dropped whether or not its bit was set.
    if w.marked (w.last - seq).toNat then (false, w)
    else (false, w.mark (w.last - seq).toNat)
  else if w.last < seq then (true, (w.advance seq).mark 0)
  else (true, w.mark 0)

/-- Every bit `allow` reads or sets lies inside the bitmap. -/
theorem word_in_range (w : ReplayWindow) {idx : Nat} (inside : idx < w.size) :
    idx / 64 < w.bitmap.length := by
  have words := w.bitmap_length
  omega

@[simp] theorem mark_last (w : ReplayWindow) (idx : Nat) : (w.mark idx).last = w.last := rfl

@[simp] theorem mark_size (w : ReplayWindow) (idx : Nat) : (w.mark idx).size = w.size := rfl

@[simp] theorem advance_last (w : ReplayWindow) (seq : UInt64) : (w.advance seq).last = seq := rfl

@[simp] theorem advance_size (w : ReplayWindow) (seq : UInt64) :
    (w.advance seq).size = w.size := rfl

/-- The three regions of `allow`: inside the window, ahead of it and far behind it. -/
theorem allow_cases (w : ReplayWindow) (seq : UInt64) :
    (seq.toNat ≤ w.last.toNat ∧ w.last.toNat < seq.toNat + w.size ∧
      w.allow seq = (false, if w.marked (w.last.toNat - seq.toNat) then w
        else w.mark (w.last.toNat - seq.toNat))) ∨
    (w.last.toNat < seq.toNat ∧ w.allow seq = (true, (w.advance seq).mark 0)) ∨
    (seq.toNat + w.size ≤ w.last.toNat ∧ w.allow seq = (true, w.mark 0)) := by
  have positive := w.size_pos
  by_cases behind : seq ≤ w.last
  · have order : seq.toNat ≤ w.last.toNat := UInt64.le_iff_toNat_le.mp behind
    have distance : (w.last - seq).toNat = w.last.toNat - seq.toNat :=
      UInt64.toNat_sub_of_le _ _ behind
    have notAhead : ¬ w.last < seq := fun ahead => by
      have := UInt64.lt_iff_toNat_lt.mp ahead
      omega
    by_cases inside : (w.last - seq).toNat < w.size
    · left
      refine ⟨order, by omega, ?_⟩
      simp only [allow, behind, inside, and_self, ↓reduceIte]
      rw [distance, apply_ite (Prod.mk false)]
    · right; right
      refine ⟨by omega, ?_⟩
      simp only [allow, behind, inside, and_false, ↓reduceIte, notAhead]
  · right; left
    have ahead : w.last < seq := UInt64.lt_iff_toNat_lt.mpr (by
      have := mt UInt64.le_iff_toNat_le.mpr behind
      omega)
    refine ⟨UInt64.lt_iff_toNat_lt.mp ahead, ?_⟩
    simp only [allow, behind, false_and, ↓reduceIte, ahead]

/-- `allow` accepts exactly the numbers ahead of the window and far behind it. -/
theorem allow_iff (w : ReplayWindow) (seq : UInt64) :
    (w.allow seq).1 = true ↔
      w.last.toNat < seq.toNat ∨ seq.toNat + w.size ≤ w.last.toNat := by
  have positive := w.size_pos
  rcases w.allow_cases seq with ⟨order, inside, result⟩ | ⟨ahead, result⟩ | ⟨far, result⟩
  · rw [result]
    simp only [Bool.false_eq_true, false_iff]
    omega
  · rw [result]
    simp only [ahead, true_or]
  · rw [result]
    simp only [far, or_true]

/-- After an offer the highest number is the maximum of the old one and the offer. -/
theorem allow_last (w : ReplayWindow) (seq : UInt64) :
    (w.allow seq).2.last.toNat = max w.last.toNat seq.toNat := by
  have positive := w.size_pos
  rcases w.allow_cases seq with ⟨order, inside, result⟩ | ⟨ahead, result⟩ | ⟨far, result⟩
  · rw [result]
    have kept : (if w.marked (w.last.toNat - seq.toNat) then w
        else w.mark (w.last.toNat - seq.toNat)).last = w.last := by
      split <;> rfl
    rw [kept]
    omega
  · rw [result]
    simp only [mark_last, advance_last]
    omega
  · rw [result]
    simp only [mark_last]
    omega

/-- A decision keeps the size of the window. -/
theorem allow_size (w : ReplayWindow) (seq : UInt64) : (w.allow seq).2.size = w.size := by
  rcases w.allow_cases seq with ⟨_, _, result⟩ | ⟨_, result⟩ | ⟨_, result⟩
  · rw [result]
    dsimp only
    split <;> rfl
  · rw [result]
    rfl
  · rw [result]
    rfl

/-- The entries of a list whose numbers `allow` accepts, offered in order. -/
def admitted {α : Type*} (seqOf : α → UInt64) : ReplayWindow → List α → List α
  | _, [] => []
  | w, entry :: rest =>
      if (w.allow (seqOf entry)).1 then
        entry :: admitted seqOf (w.allow (seqOf entry)).2 rest
      else admitted seqOf (w.allow (seqOf entry)).2 rest

/-- The window after a list of offers. -/
def afterAll (w : ReplayWindow) (seqs : List UInt64) : ReplayWindow :=
  seqs.foldl (fun current seq => (current.allow seq).2) w

@[simp] theorem afterAll_nil (w : ReplayWindow) : w.afterAll [] = w := rfl

/-- The window after one more number. -/
theorem afterAll_concat (w : ReplayWindow) (seqs : List UInt64) (seq : UInt64) :
    w.afterAll (seqs ++ [seq]) = ((w.afterAll seqs).allow seq).2 := by
  simp only [afterAll, List.foldl_append, List.foldl_cons, List.foldl_nil]

end ReplayWindow

/-- The highest of the numbers offered so far, zero before the first. -/
def highest (seqs : List UInt64) : Nat :=
  seqs.foldl (fun top seq => max top seq.toNat) 0

/-- The highest number after one more. -/
theorem highest_concat (seqs : List UInt64) (seq : UInt64) :
    highest (seqs ++ [seq]) = max (highest seqs) seq.toNat := by
  simp only [highest, List.foldl_append, List.foldl_cons, List.foldl_nil]

/-- No number is above the highest one. -/
theorem le_highest {seqs : List UInt64} {seq : UInt64} (member : seq ∈ seqs) :
    seq.toNat ≤ highest seqs := by
  induction seqs using List.reverseRecOn with
  | nil => exact (List.not_mem_nil member).elim
  | append_singleton seqs top ih =>
      rw [highest_concat]
      rcases List.mem_append.mp member with earlier | here
      · exact Nat.le_trans (ih earlier) (Nat.le_max_left _ _)
      · rw [List.mem_singleton.mp here]
        exact Nat.le_max_right _ _

/-- `seq` is above everything offered so far. -/
def Ahead (past : List UInt64) (seq : UInt64) : Prop :=
  highest past < seq.toNat

/-- `seq` is at least `size` below the highest number offered so far. -/
def FarBehind (size : Nat) (past : List UInt64) (seq : UInt64) : Prop :=
  seq.toNat + size ≤ highest past

instance (past : List UInt64) (seq : UInt64) : Decidable (Ahead past seq) :=
  inferInstanceAs (Decidable (_ < _))

instance (size : Nat) (past : List UInt64) (seq : UInt64) : Decidable (FarBehind size past seq) :=
  inferInstanceAs (Decidable (_ ≤ _))

/-- Some entry that `good` marks is offered a second time when it is far behind,
after an earlier offer at which it was ahead of the window or far behind it. -/
def FarRepeat {α : Type*} (size : Nat) (seqOf : α → UInt64) (good : α → Bool)
    (entries : List α) : Prop :=
  ∃ before entry middle after, entries = before ++ entry :: (middle ++ entry :: after) ∧
    good entry ∧
    (Ahead (before.map seqOf) (seqOf entry) ∨ FarBehind size (before.map seqOf) (seqOf entry)) ∧
    FarBehind size ((before ++ entry :: middle).map seqOf) (seqOf entry)

namespace ReplayWindow

variable {α : Type*} (seqOf : α → UInt64)

@[simp] theorem newReplayWindow_last (size : Int) : (newReplayWindow size).last = 0 := rfl

/-- The window holds the highest number offered to it. -/
theorem afterAll_last (size : Int) (seqs : List UInt64) :
    ((newReplayWindow size).afterAll seqs).last.toNat = highest seqs := by
  induction seqs using List.reverseRecOn with
  | nil => rfl
  | append_singleton seqs seq ih => rw [afterAll_concat, allow_last, ih, highest_concat]

/-- Decisions keep the size of the window. -/
theorem afterAll_size (w : ReplayWindow) (seqs : List UInt64) :
    (w.afterAll seqs).size = w.size := by
  induction seqs using List.reverseRecOn with
  | nil => rfl
  | append_singleton seqs seq ih => rw [afterAll_concat, allow_size, ih]

/-- The window refines its history: an offer is accepted exactly when the numbers
offered before leave it ahead or far behind. -/
theorem allow_afterAll_iff (size : Int) (past : List UInt64) (seq : UInt64) :
    (((newReplayWindow size).afterAll past).allow seq).1 = true ↔
      Ahead past seq ∨ FarBehind (newReplayWindow size).size past seq := by
  rw [allow_iff, afterAll_last, afterAll_size]
  rfl

/-- The admitted entries are a history filter of the offered ones. -/
theorem admitted_eq_historyFilter (size : Int) (past entries : List α) :
    admitted seqOf ((newReplayWindow size).afterAll (past.map seqOf)) entries =
      historyFilter (fun before entry => decide (Ahead (before.map seqOf) (seqOf entry) ∨
        FarBehind (newReplayWindow size).size (before.map seqOf) (seqOf entry))) past entries := by
  induction entries generalizing past with
  | nil => rfl
  | cons entry rest ih =>
      have next : (((newReplayWindow size).afterAll (past.map seqOf)).allow (seqOf entry)).2 =
          (newReplayWindow size).afterAll ((past ++ [entry]).map seqOf) := by
        rw [List.map_append, List.map_singleton, afterAll_concat]
      rw [admitted, historyFilter, next, ih]
      simp only [allow_afterAll_iff, decide_eq_true_eq]

/-- No marked entry is admitted twice exactly when none is repeated far behind the
highest number after an offer that was accepted. -/
theorem nodup_admitted_iff (size : Int) (good : α → Bool) (entries : List α) :
    ((admitted seqOf (newReplayWindow size) entries).filter good).Nodup ↔
      ¬ FarRepeat (newReplayWindow size).size seqOf good entries := by
  have filtered := admitted_eq_historyFilter seqOf size [] entries
  rw [List.map_nil, afterAll_nil] at filtered
  rw [filtered, filter_historyFilter, nodup_historyFilter_iff]
  simp only [List.nil_append, Bool.and_eq_true, decide_eq_true_eq, FarRepeat, not_exists, not_and]
  constructor
  · intro apart before entry middle after split marked first second
    exact apart before entry middle after split ⟨first, marked⟩ (Or.inr second) marked
  · rintro apart before entry middle after split ⟨first, marked⟩ again _
    refine apart before entry middle after split marked first (again.resolve_left fun ahead => ?_)
    -- The entry itself is among the offers, so it is not ahead of them.
    have offered : seqOf entry ∈ (before ++ entry :: middle).map seqOf :=
      List.mem_map_of_mem (List.mem_append_right _ List.mem_cons_self)
    exact absurd (le_highest offered) (Nat.not_le.mpr ahead)

/-- A number that is not below the window is accepted exactly when it is above the highest
one, whether or not it was offered before: the bit that tells the two apart is not
asked. -/
theorem inReach_allowed_iff (size : Int) (past : List UInt64) {seq : UInt64}
    (inReach : ((newReplayWindow size).afterAll past).last.toNat <
      seq.toNat + (newReplayWindow size).size) :
    (((newReplayWindow size).afterAll past).allow seq).1 = true ↔
      ((newReplayWindow size).afterAll past).last.toNat < seq.toNat := by
  rw [allow_iff, afterAll_size]
  exact or_iff_left (Nat.not_le.mpr inReach)

/-- The number 1 is dropped when it arrives after the number 2. -/
theorem lateNumber_dropped :
    (1 : UInt64) ∉ [2] ∧
      ((newReplayWindow 128).afterAll [2]).last.toNat < 1 + (newReplayWindow 128).size ∧
      (((newReplayWindow 128).afterAll [2]).allow 1).1 = false := by
  decide

/-- A number that skips another one is allowed. -/
theorem skippedNumber_allowed :
    (((newReplayWindow 128).afterAll [1]).allow 3).1 = true :=
  (inReach_allowed_iff 128 [1] (by decide)).mpr (by decide)

end ReplayWindow

end P2pMesh

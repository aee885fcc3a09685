import Mathlib.Algebra.Order.Field.Basic
import Mathlib.Data.Int.Cast.Lemmas
import Mathlib.Tactic.Linarith
import Mathlib.Tactic.Ring

/-! # Token buckets

A bucket is refilled at a rate up to a burst, and a request is granted when the bucket has
the amount that it asks for. The definitions are over any number type, the bound on what is
granted in an interval (`Foundation.TokenBucket.Metered.spent_le`) over an ordered field.
-/

namespace Foundation

/-- The duration between two readings of a clock in nanoseconds: their difference, unless
it is outside the range of 64 bits. -/
def durationBetween (later earlier : Int) : Int :=
  max (-2 ^ 63) (min (2 ^ 63 - 1) (later - earlier))

/-- A later time is less long ago. -/
theorem durationBetween_anti {now earlier later : Int} (clock : earlier ≤ later) :
    durationBetween now later ≤ durationBetween now earlier := by
  unfold durationBetween
  omega

/-- As the clock goes on a time is longer ago. -/
theorem durationBetween_mono {now later time : Int} (clock : now ≤ later) :
    durationBetween now time ≤ durationBetween later time := by
  unfold durationBetween
  omega

/-- A time is in a window that a duration can leave just when it is not before its start. -/
theorem durationBetween_le_iff {window now time : Int} (past : time ≤ now)
    (bounded : window < 2 ^ 63 - 1) : durationBetween now time ≤ window ↔ now - window ≤ time := by
  unfold durationBetween
  omega

/-- A bucket of tokens, over any number type. -/
structure TokenBucket (K : Type*) where
  /-- Tokens per second. -/
  rate : K
  burst : K
  tokens : K
  last : Int

namespace TokenBucket

section Operations

variable {K : Type*} [Add K] [Sub K] [Mul K] [LT K] [DecidableLT K] (seconds : Int → K)

/-- Add the tokens of the time since the last refill. -/
def refill (b : TokenBucket K) (now : Int) : TokenBucket K :=
  let tokens := b.tokens + seconds (durationBetween now b.last) * b.rate
  { b with
    tokens := if b.burst < tokens then b.burst else tokens
    last := now }

/-- Refill, and take the amount if there is as much. -/
def take (b : TokenBucket K) (amount : K) (now : Int) : Bool × TokenBucket K :=
  let filled := b.refill seconds now
  if filled.tokens < amount then (false, filled)
  else (true, { filled with tokens := filled.tokens - amount })

/-- Taking keeps the settings of the bucket and moves its time. -/
theorem take_settings (b : TokenBucket K) (amount : K) (now : Int) :
    (b.take seconds amount now).2.rate = b.rate ∧ (b.take seconds amount now).2.burst = b.burst ∧
      (b.take seconds amount now).2.last = now := by
  unfold take
  simp only
  split
  · exact ⟨rfl, rfl, rfl⟩
  · exact ⟨rfl, rfl, rfl⟩

end Operations

variable {K : Type*} [Field K]

/-- Seconds without rounding. -/
def exactSeconds (duration : Int) : K :=
  duration / 1000000000

/-- Durations are added. -/
theorem exactSeconds_add (first second : Int) :
    (exactSeconds (first + second) : K) = exactSeconds first + exactSeconds second := by
  rw [exactSeconds, Int.cast_add, add_div]
  rfl

variable [LinearOrder K] [IsStrictOrderedRing K]

/-- What was granted at `since` or later is covered by the burst and the refills since
then, less what is left in the bucket. -/
structure Metered (b : TokenBucket K) (since : Int) (spent : K) : Prop where
  rate : 0 ≤ b.rate
  burst : 0 ≤ b.burst
  tokens : 0 ≤ b.tokens
  before : b.last < since → spent = 0
  budget : since ≤ b.last →
    spent + b.tokens ≤ b.burst + exactSeconds (b.last - since) * b.rate

theorem exactSeconds_mono {shorter longer : Int} (le : shorter ≤ longer) :
    (exactSeconds shorter : K) ≤ exactSeconds longer := by
  apply div_le_div_of_nonneg_right
  · exact_mod_cast le
  · norm_num

theorem exactSeconds_nonneg {duration : Int} (nonneg : 0 ≤ duration) :
    (0 : K) ≤ exactSeconds duration := by
  have mono := exactSeconds_mono (K := K) nonneg
  rwa [exactSeconds, Int.cast_zero, zero_div] at mono

/-- The bucket after a refill has no more than the burst, and no more than it had and the
tokens of the time that passed. -/
theorem refill_tokens_le (b : TokenBucket K) (rate : 0 ≤ b.rate) {now : Int}
    (clock : b.last ≤ now) :
    (b.refill exactSeconds now).tokens ≤ b.burst ∧
      (b.refill exactSeconds now).tokens ≤
        b.tokens + exactSeconds (now - b.last) * b.rate := by
  have elapsed : durationBetween now b.last ≤ now - b.last := by
    unfold durationBetween
    omega
  have earned : (exactSeconds (durationBetween now b.last) : K) * b.rate ≤
      exactSeconds (now - b.last) * b.rate :=
    mul_le_mul_of_nonneg_right (exactSeconds_mono elapsed) rate
  simp only [refill]
  split
  · exact ⟨le_refl _, by linarith⟩
  · exact ⟨by linarith, by linarith⟩

/-- A refill never makes a bucket owe tokens. -/
theorem refill_tokens_nonneg (b : TokenBucket K) (rate : 0 ≤ b.rate) (burst : 0 ≤ b.burst)
    (tokens : 0 ≤ b.tokens) {now : Int} (clock : b.last ≤ now) :
    0 ≤ (b.refill exactSeconds now).tokens := by
  have elapsed : 0 ≤ durationBetween now b.last := by
    unfold durationBetween
    omega
  have earned : (0 : K) ≤ exactSeconds (durationBetween now b.last) * b.rate :=
    mul_nonneg (exactSeconds_nonneg elapsed) rate
  simp only [refill]
  split
  · exact burst
  · linarith

/-- A full bucket that has granted nothing. -/
theorem metered_full {b : TokenBucket K} (rate : 0 ≤ b.rate) (burst : 0 ≤ b.burst)
    (full : b.tokens = b.burst) (since : Int) : b.Metered since 0 := by
  refine ⟨rate, burst, full ▸ burst, fun _ => rfl, ?_⟩
  intro started
  have grown : (0 : K) ≤ exactSeconds (b.last - since) * b.rate :=
    mul_nonneg (exactSeconds_nonneg (by omega)) rate
  rw [full]
  linarith

namespace Metered

variable {b : TokenBucket K} {since now : Int} {spent : K}

/-- A refill keeps the account. -/
theorem refill (metered : b.Metered since spent) (clock : b.last ≤ now) :
    (b.refill exactSeconds now).Metered since spent := by
  obtain ⟨capped, earned⟩ := b.refill_tokens_le metered.rate clock
  refine ⟨metered.rate, metered.burst,
    b.refill_tokens_nonneg metered.rate metered.burst metered.tokens clock, ?_, ?_⟩
  · intro early
    exact metered.before (lt_of_le_of_lt clock early)
  · intro started
    change since ≤ now at started
    change spent + _ ≤ b.burst + exactSeconds (now - since) * b.rate
    by_cases first : b.last < since
    · -- nothing was granted yet, and the bucket is at most full
      have grown : (0 : K) ≤ exactSeconds (now - since) * b.rate :=
        mul_nonneg (exactSeconds_nonneg (by omega)) metered.rate
      rw [metered.before first]
      linarith
    · have budget := metered.budget (not_lt.mp first)
      have split : now - since = now - b.last + (b.last - since) := by omega
      rw [split, exactSeconds_add, add_mul]
      linarith

/-- A grant is paid for from the bucket. -/
theorem take (metered : b.Metered since spent) (clock : b.last ≤ now) (amount : K) :
    (b.take exactSeconds amount now).2.Metered since
      (spent + if (b.take exactSeconds amount now).1 = true ∧ since ≤ now then amount else 0) := by
  have filled := metered.refill clock
  simp only [TokenBucket.take]
  split
  · simpa only [Bool.false_eq_true, false_and, ↓reduceIte, add_zero] using filled
  next enough =>
    refine ⟨filled.rate, filled.burst, sub_nonneg.mpr (not_lt.mp enough), ?_, ?_⟩
    · intro early
      change now < since at early
      rw [if_neg fun both => absurd both.2 (not_le.mpr early), add_zero]
      exact filled.before early
    · intro started
      have budget := filled.budget started
      change since ≤ now at started
      simp only [started, and_self, ↓reduceIte]
      linarith

/-- A bucket that rests until it would be full again can be replaced by a full one. -/
theorem renew (metered : b.Metered since spent) {pause : Int} (pause_nonneg : 0 ≤ pause)
    (covers : b.burst ≤ exactSeconds pause * b.rate) (rested : b.last + pause ≤ now) :
    Metered ⟨b.rate, b.burst, b.burst, now⟩ since spent := by
  refine ⟨metered.rate, metered.burst, metered.burst, fun early => ?_, fun started => ?_⟩
  · change now < since at early
    exact metered.before (by omega)
  · change since ≤ now at started
    change spent + b.burst ≤ b.burst + exactSeconds (now - since) * b.rate
    by_cases first : b.last < since
    · have grown : (0 : K) ≤ exactSeconds (now - since) * b.rate :=
        mul_nonneg (exactSeconds_nonneg (by omega)) metered.rate
      rw [metered.before first]
      linarith
    · -- the pause earns the burst that the grants may have used
      have budget := metered.budget (not_lt.mp first)
      have tokens := metered.tokens
      have earned : (exactSeconds (pause + (b.last - since)) : K) * b.rate ≤
          exactSeconds (now - since) * b.rate :=
        mul_le_mul_of_nonneg_right (exactSeconds_mono (by omega)) metered.rate
      rw [exactSeconds_add, add_mul] at earned
      linarith

/-- What was granted in an interval that the bucket has not gone beyond. -/
theorem spent_le (metered : b.Metered since spent) {upTo : Int} (interval : since ≤ upTo)
    (clock : b.last ≤ upTo) : spent ≤ b.burst + exactSeconds (upTo - since) * b.rate := by
  have grown : (exactSeconds (b.last - since) : K) * b.rate ≤
      exactSeconds (upTo - since) * b.rate :=
    mul_le_mul_of_nonneg_right (exactSeconds_mono (by omega)) metered.rate
  by_cases first : b.last < since
  · have nonneg : (0 : K) ≤ exactSeconds (upTo - since) * b.rate :=
      mul_nonneg (exactSeconds_nonneg (by omega)) metered.rate
    have burst := metered.burst
    rw [metered.before first]
    linarith
  · have budget := metered.budget (not_lt.mp first)
    have tokens := metered.tokens
    linarith

end Metered

end TokenBucket

end Foundation

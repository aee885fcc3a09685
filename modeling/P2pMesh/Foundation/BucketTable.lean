import P2pMesh.Foundation.TokenBucket
import Mathlib.Logic.Function.Basic

/-! # Token buckets by key

A table has a token bucket for each key that was used; a bucket is full at its first use.
Each request takes one token from the bucket of its key. Along a run in which the clock does
not go back, a key is granted at most its burst and what the interval earns in any interval
(`Foundation.BucketTable.Within.bounded`), whatever the other keys ask for.
-/

namespace Foundation

open TokenBucket

/-- The settings of a bucket. -/
structure BucketSettings (K : Type*) where
  rate : K
  burst : K

/-- The buckets of the keys that were used. -/
abbrev BucketTable (Key K : Type*) := Key → Option (TokenBucket K)

/-- How often the key was granted a token at the times that are picked. -/
def grantsAt {Key : Type*} [DecidableEq Key] (picked : Int → Bool) (key : Key)
    (grants : List (Key × Int)) : Nat :=
  grants.countP fun grant => grant.1 = key && picked grant.2

/-- How often the key was granted a token in an interval. -/
def grantsIn {Key : Type*} [DecidableEq Key] (key : Key) (t0 t1 : Int)
    (grants : List (Key × Int)) : Nat :=
  grantsAt (fun t => t0 ≤ t && t ≤ t1) key grants

section Grants

variable {Key : Type*} [DecidableEq Key] {key : Key} {grants : List (Key × Int)}

/-- A grant of the key is counted if its time is picked. -/
theorem grantsAt_append_own (picked : Int → Bool) (key : Key) (grants : List (Key × Int))
    (now : Int) : grantsAt picked key (grants ++ [(key, now)]) =
      grantsAt picked key grants + if picked now then 1 else 0 := by
  simp only [grantsAt, List.countP_append, List.countP_singleton, decide_true, Bool.true_and]

/-- A grant of another key is not counted. -/
theorem grantsAt_append_other (picked : Int → Bool) {other : Key} (differs : other ≠ key)
    (now : Int) : grantsAt picked key (grants ++ [(other, now)]) = grantsAt picked key grants := by
  simp only [grantsAt, List.countP_append, List.countP_singleton, differs, decide_false,
    Bool.false_and, Bool.false_eq_true, ↓reduceIte, Nat.add_zero]

/-- More times have more grants. -/
theorem grantsAt_mono {fewer more : Int → Bool} (le : ∀ t, fewer t = true → more t = true) :
    grantsAt fewer key grants ≤ grantsAt more key grants := by
  apply List.countP_mono_left
  intro grant _ counted
  obtain ⟨own, early⟩ := Bool.and_eq_true_iff.mp counted
  exact Bool.and_eq_true_iff.mpr ⟨own, le _ early⟩

/-- A grant after an interval does not count for it. -/
theorem grantsIn_append_of_lt {other : Key} {now t0 t1 : Int} (late : t1 < now) :
    grantsIn key t0 t1 (grants ++ [(other, now)]) = grantsIn key t0 t1 grants := by
  have outside : ¬ now ≤ t1 := not_le.mpr late
  by_cases own : other = key
  · subst own
    rw [grantsIn, grantsAt_append_own]
    simp only [outside, decide_false, Bool.and_false, Bool.false_eq_true, ↓reduceIte, Nat.add_zero]
    rfl
  · exact grantsAt_append_other _ own now

end Grants

namespace BucketTable

variable {Key K : Type*}

/-- The bucket of a key: a full one if it was not used. -/
def bucketAt (settings : Key → BucketSettings K) (table : BucketTable Key K) (key : Key)
    (now : Int) : TokenBucket K :=
  (table key).getD ⟨(settings key).rate, (settings key).burst, (settings key).burst, now⟩

variable [DecidableEq Key] [Field K] [LinearOrder K]

/-- Take a token from the bucket of a key. -/
def take (settings : Key → BucketSettings K) (table : BucketTable Key K) (key : Key) (now : Int) :
    Bool × BucketTable Key K :=
  let taken := (table.bucketAt settings key now).take exactSeconds 1 now
  (taken.1, Function.update table key (some taken.2))

/-- The grants of a run after a request. -/
def grantsAfter (settings : Key → BucketSettings K) (table : BucketTable Key K)
    (grants : List (Key × Int)) (key : Key) (now : Int) : List (Key × Int) :=
  grants ++ if (table.take settings key now).1 = true then [(key, now)] else []

variable [IsStrictOrderedRing K]

/-- The bucket has its settings and accounts for the grants of its key. -/
structure Draws (settings : Key → BucketSettings K) (grants : List (Key × Int)) (clock : Int)
    (key : Key) (b : TokenBucket K) : Prop where
  rate : b.rate = (settings key).rate
  burst : b.burst = (settings key).burst
  past : b.last ≤ clock
  metered : ∀ since, b.Metered since (grantsAt (fun t => since ≤ t) key grants : Nat)

/-- What holds of a table and the grants of the run that led to it. -/
structure Within (settings : Key → BucketSettings K) (table : BucketTable Key K)
    (grants : List (Key × Int)) (clock : Int) : Prop where
  draws : ∀ key now, clock ≤ now →
    Draws settings grants now key (table.bucketAt settings key now)
  bounded : ∀ key t0 t1, t0 ≤ t1 → (grantsIn key t0 t1 grants : K) ≤
    (settings key).burst + exactSeconds (t1 - t0) * (settings key).rate

variable {settings : Key → BucketSettings K} {table : BucketTable Key K}
  {grants : List (Key × Int)} {clock now : Int}

/-- An empty table has granted nothing. -/
theorem within_empty (rate : ∀ key, 0 ≤ (settings key).rate)
    (burst : ∀ key, 0 ≤ (settings key).burst) (clock : Int) :
    Within settings (fun _ => none) [] clock := by
  refine ⟨?_, ?_⟩
  · intro key now _
    refine ⟨rfl, rfl, le_refl _, fun since => ?_⟩
    have nothing : ((grantsAt (fun t => since ≤ t) key [] : Nat) : K) = 0 := Nat.cast_zero
    rw [nothing]
    exact metered_full (rate key) (burst key) rfl since
  · intro key t0 t1 interval
    have grown : (0 : K) ≤ exactSeconds (t1 - t0) * (settings key).rate :=
      mul_nonneg (exactSeconds_nonneg (by omega)) (rate key)
    have nonneg := burst key
    change ((0 : Nat) : K) ≤ _
    rw [Nat.cast_zero]
    linarith

namespace Within

omit [IsStrictOrderedRing K] in
/-- The account stays right as the clock goes on. -/
theorem later (within : Within settings table grants clock) (le : clock ≤ now) :
    Within settings table grants now :=
  ⟨fun key t after => within.draws key t (le.trans after), within.bounded⟩

omit [IsStrictOrderedRing K] in
/-- A question leaves the bucket of its key after the draw. -/
theorem bucketAt_take_own (table : BucketTable Key K) (key : Key) (now t : Int) :
    (table.take settings key now).2.bucketAt settings key t =
      ((table.bucketAt settings key now).take exactSeconds 1 now).2 := by
  simp only [take, bucketAt, Function.update_self, Option.getD_some]

omit [IsStrictOrderedRing K] in
/-- A question leaves the other buckets as they are. -/
theorem bucketAt_take_other (table : BucketTable Key K) {key other : Key} (differs : other ≠ key)
    (now t : Int) :
    (table.take settings key now).2.bucketAt settings other t =
      table.bucketAt settings other t := by
  simp only [take, bucketAt, Function.update_of_ne differs]

/-- The bucket of the request accounts for the grant. -/
theorem draws_take (within : Within settings table grants clock) (le : clock ≤ now) (key : Key)
    (t : Int) (after : now ≤ t) :
    Draws settings (table.grantsAfter settings grants key now) t key
      ((table.take settings key now).2.bucketAt settings key t) := by
  have draws := within.draws key now le
  obtain ⟨rate, burst, last⟩ :=
    (table.bucketAt settings key now).take_settings exactSeconds 1 now
  rw [bucketAt_take_own]
  refine ⟨rate.trans draws.rate, burst.trans draws.burst, last.le.trans after, fun since => ?_⟩
  have paid := (draws.metered since).take draws.past 1
  have total : ((grantsAt (fun t => since ≤ t) key
      (table.grantsAfter settings grants key now) : Nat) : K) =
        (grantsAt (fun t => since ≤ t) key grants : Nat) +
          if ((table.bucketAt settings key now).take exactSeconds 1 now).1 = true ∧ since ≤ now
          then 1 else 0 := by
    change ((grantsAt _ key (grants ++ if
      ((table.bucketAt settings key now).take exactSeconds 1 now).1 = true then _ else _) : Nat) :
        K) = _
    cases ((table.bucketAt settings key now).take exactSeconds 1 now).1 with
    | false => simp only [Bool.false_eq_true, ↓reduceIte, List.append_nil, false_and, add_zero]
    | true =>
        simp only [↓reduceIte, grantsAt_append_own, decide_eq_true_eq, true_and, Nat.cast_add,
          Nat.cast_ite, Nat.cast_one, Nat.cast_zero]
  rw [total]
  exact paid

omit [IsStrictOrderedRing K] in
/-- A question grants nothing to the other keys. -/
theorem grantsAt_grantsAfter_other (table : BucketTable Key K) (picked : Int → Bool)
    {key other : Key} (differs : other ≠ key) (now : Int) :
    grantsAt picked other (table.grantsAfter settings grants key now) =
      grantsAt picked other grants := by
  unfold grantsAfter
  split
  · exact grantsAt_append_other picked (Ne.symm differs) now
  · rw [List.append_nil]

/-- A request keeps the accounts, at every time from its own on. -/
theorem take (within : Within settings table grants clock) (le : clock ≤ now) (key : Key) :
    Within settings (table.take settings key now).2
      (table.grantsAfter settings grants key now) now := by
  refine ⟨?_, ?_⟩
  · intro other t after
    by_cases own : other = key
    · subst own
      exact within.draws_take le other t after
    · obtain ⟨rate, burst, past, metered⟩ := within.draws other t (le.trans after)
      rw [bucketAt_take_other table own]
      refine ⟨rate, burst, past, fun since => ?_⟩
      rw [grantsAt_grantsAfter_other table _ own]
      exact metered since
  · intro other t0 t1 interval
    by_cases own : other = key
    · subst own
      by_cases late : t1 < now
      · have same : grantsIn other t0 t1 (table.grantsAfter settings grants other now) =
            grantsIn other t0 t1 grants := by
          unfold grantsAfter
          split
          · exact grantsIn_append_of_lt late
          · rw [List.append_nil]
        rw [same]
        exact within.bounded other t0 t1 interval
      · -- the interval reaches the request, so the bucket accounts for all of it
        have draws := within.draws_take le other now (le_refl _)
        have spent := (draws.metered t0).spent_le interval (draws.past.trans (not_lt.mp late))
        rw [draws.rate, draws.burst] at spent
        refine le_trans ?_ spent
        exact Nat.cast_le.mpr
          (grantsAt_mono fun t both => (Bool.and_eq_true_iff.mp both).1)
    · rw [grantsIn, grantsAt_grantsAfter_other table _ own]
      exact within.bounded other t0 t1 interval

end Within

end BucketTable

end Foundation

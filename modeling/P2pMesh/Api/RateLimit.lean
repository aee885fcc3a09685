import P2pMesh.Api.Server
import P2pMesh.Foundation.BucketTable
import Mathlib.Data.Rat.Cast.Order

/-! # The rate limiter of the management API

`tokenBucketLimiter` and `keyedLimiter` of `internal/api/support.go` and the choice of a limiter
by `RateLimitMiddleware`. Logins are limited by their source address, other requests by the
subject of their token, and those without a token by the source address again, under another
key. The limiters are a table of token buckets (`P2pMesh.Api.RateLimits.Shows.allow`), whose
arithmetic is exact here.
-/

namespace P2pMesh.Api

open Foundation TokenBucket

/-- `tokenBucketLimiter`, with `none` for the zero `Time`. -/
structure Limiter where
  /-- Permits per second. -/
  rate : ℚ
  burst : ℚ
  tokens : ℚ
  last : Option Int
deriving DecidableEq

/-- `newTokenBucketLimiter`. -/
def newTokenBucketLimiter (ratePerMinute burst : Int) : Limiter :=
  let rate := if ratePerMinute ≤ 0 then 5 else ratePerMinute
  let full := if burst ≤ 0 then rate else burst
  ⟨rate / 60, full, full, none⟩

/-- A bucket as a limiter that has been used. -/
def Limiter.ofBucket (b : TokenBucket ℚ) : Limiter :=
  ⟨b.rate, b.burst, b.tokens, some b.last⟩

/-- `tokenBucketLimiter.Allow`. -/
def Limiter.allow (l : Limiter) (now : Int) : Bool × Limiter :=
  let taken := (TokenBucket.mk l.rate l.burst l.tokens (l.last.getD now)).take exactSeconds 1 now
  (taken.1, .ofBucket taken.2)

/-- What a request is limited by. -/
inductive LimitKey where
  | login (ip : Bytes)
  | user (sub : Bytes)
  | publicIP (ip : Bytes)
deriving DecidableEq

/-- The key under which a limiter is stored. -/
def LimitKey.text : LimitKey → Bytes
  | .login ip => ascii "ip:" ++ ip
  | .user sub => ascii "u:" ++ sub
  | .publicIP ip => ascii "api-ip:" ++ ip

/-- The settings of `RateLimitMiddleware`. -/
structure RateLimitMiddleware where
  loginRate : Int
  loginBurst : Int
  apiUserRate : Int
  apiUserBurst : Int

/-- The limiters of `RateLimitMiddleware`. -/
structure RateLimits where
  ipLimits : Bytes → Option Limiter
  userLimits : Bytes → Option Limiter

/-- No limiter has been used. -/
def newRateLimits : RateLimits :=
  ⟨fun _ => none, fun _ => none⟩

/-- The middleware of `Server.Handler`, with the defaults of `NewServer`. -/
def newRateLimitMiddleware (loginRatePerMin apiUserRatePerMin : Int) : RateLimitMiddleware :=
  let login := if loginRatePerMin ≤ 0 then 5 else loginRatePerMin
  let apiUser := if apiUserRatePerMin ≤ 0 then 600 else apiUserRatePerMin
  ⟨login, login, apiUser, apiUser / 6⟩

/-- The limiter that `keyedLimiter` makes for a key that has none. -/
def RateLimitMiddleware.newLimiter (m : RateLimitMiddleware) : LimitKey → Limiter
  | .login _ => newTokenBucketLimiter m.loginRate m.loginBurst
  | .user _ => newTokenBucketLimiter m.apiUserRate m.apiUserBurst
  | .publicIP _ => newTokenBucketLimiter m.apiUserRate m.apiUserBurst

/-- The choice of a limiter: by the path, and by the claims if the token was checked. -/
def limitKey (path : Bytes) (claims : Option Claims) (ip : Bytes) : LimitKey :=
  if path = loginPath then .login ip
  else
    match claims with
    | some c => .user c.sub
    | none => .publicIP ip

namespace RateLimits

/-- The limiter of a key, in the map of its kind. -/
def find (limits : RateLimits) (key : LimitKey) : Option Limiter :=
  match key with
  | .login _ => limits.ipLimits key.text
  | .user _ => limits.userLimits key.text
  | .publicIP _ => limits.ipLimits key.text

/-- The limits with another limiter for a key. -/
def store (limits : RateLimits) (key : LimitKey) (l : Limiter) : RateLimits :=
  match key with
  | .login _ => { limits with ipLimits := Function.update limits.ipLimits key.text (some l) }
  | .user _ => { limits with userLimits := Function.update limits.userLimits key.text (some l) }
  | .publicIP _ => { limits with ipLimits := Function.update limits.ipLimits key.text (some l) }

/-- `keyedLimiter` and `Allow`. -/
def allow (m : RateLimitMiddleware) (limits : RateLimits) (key : LimitKey) (now : Int) :
    Bool × RateLimits :=
  let answer := ((limits.find key).getD (m.newLimiter key)).allow now
  (answer.1, limits.store key answer.2)

/-- Two keys that are written alike are the same key, so no two callers share a bucket by accident.
-/
theorem text_injective {key other : LimitKey} (same : key.text = other.text) : key = other := by
  cases key with
  | login ip =>
      cases other with
      | login _ => exact congrArg LimitKey.login (List.append_cancel_left same)
      | user _ => cases same
      | publicIP _ => cases same
  | user sub =>
      cases other with
      | login _ => cases same
      | user _ => exact congrArg LimitKey.user (List.append_cancel_left same)
      | publicIP _ => cases same
  | publicIP ip =>
      cases other with
      | login _ => cases same
      | user _ => cases same
      | publicIP _ => exact congrArg LimitKey.publicIP (List.append_cancel_left same)

/-- The keys of logins and of other requests do not meet, though they are in one map. -/
theorem find_store (limits : RateLimits) (key other : LimitKey) (l : Limiter) :
    (limits.store key l).find other = if other = key then some l else limits.find other := by
  have apart (index : Bytes → Option Limiter) :
      Function.update index key.text (some l) other.text =
        if other = key then some l else index other.text := by
    rw [Function.update_apply]
    by_cases same : other = key
    · rw [if_pos (congrArg LimitKey.text same), if_pos same]
    · rw [if_neg fun texts => same (text_injective texts), if_neg same]
  cases key with
  | login ip =>
      cases other with
      | login _ => exact apart limits.ipLimits
      | user _ => rfl
      | publicIP _ => exact apart limits.ipLimits
  | user sub =>
      cases other with
      | login _ => rfl
      | user _ => exact apart limits.userLimits
      | publicIP _ => rfl
  | publicIP ip =>
      cases other with
      | login _ => exact apart limits.ipLimits
      | user _ => rfl
      | publicIP _ => exact apart limits.ipLimits

end RateLimits

/-- The settings of the bucket of a key. -/
def RateLimitMiddleware.settings (m : RateLimitMiddleware) (key : LimitKey) :
    BucketSettings ℚ :=
  ⟨(m.newLimiter key).rate, (m.newLimiter key).burst⟩

/-- A limiter made by the constructor never has a negative rate or burst. -/
theorem newTokenBucketLimiter_nonneg (ratePerMinute burst : Int) :
    0 ≤ (newTokenBucketLimiter ratePerMinute burst).rate ∧
      0 ≤ (newTokenBucketLimiter ratePerMinute burst).burst := by
  have rate : (0 : Int) ≤ if ratePerMinute ≤ 0 then 5 else ratePerMinute := by
    split
    · decide
    · omega
  have full : (0 : Int) ≤
      if burst ≤ 0 then (if ratePerMinute ≤ 0 then 5 else ratePerMinute) else burst := by
    split
    · exact rate
    · omega
  exact ⟨div_nonneg (Int.cast_nonneg rate) (by norm_num), Int.cast_nonneg full⟩

/-- Whatever bucket a key selects, its rate and its burst are not negative. -/
theorem RateLimitMiddleware.settings_nonneg (m : RateLimitMiddleware) (key : LimitKey) :
    0 ≤ (m.settings key).rate ∧ 0 ≤ (m.settings key).burst := by
  cases key with
  | login _ => exact newTokenBucketLimiter_nonneg _ _
  | user _ => exact newTokenBucketLimiter_nonneg _ _
  | publicIP _ => exact newTokenBucketLimiter_nonneg _ _

namespace RateLimits

/-- The limiters are the buckets of the table. -/
def Shows (limits : RateLimits) (table : BucketTable LimitKey ℚ) : Prop :=
  ∀ key, limits.find key = (table key).map .ofBucket

/-- A limiter that was made for the request is a full bucket from now on. -/
theorem newLimiter_allow (m : RateLimitMiddleware) (key : LimitKey) (now : Int) :
    (m.newLimiter key).allow now =
      let taken := (TokenBucket.mk (m.settings key).rate (m.settings key).burst
        (m.settings key).burst now).take exactSeconds 1 now
      (taken.1, .ofBucket taken.2) := by
  cases key with
  | login _ => rfl
  | user _ => rfl
  | publicIP _ => rfl

/-- A request takes a token from the bucket of its key. -/
theorem Shows.allow {m : RateLimitMiddleware} {limits : RateLimits}
    {table : BucketTable LimitKey ℚ} (shows : limits.Shows table) (key : LimitKey) (now : Int) :
    (limits.allow m key now).1 = (table.take m.settings key now).1 ∧
      (limits.allow m key now).2.Shows (table.take m.settings key now).2 := by
  have answer : ((limits.find key).getD (m.newLimiter key)).allow now =
      let taken := (table.bucketAt m.settings key now).take exactSeconds 1 now
      (taken.1, .ofBucket taken.2) := by
    rw [shows key, BucketTable.bucketAt]
    cases table key with
    | none => exact newLimiter_allow m key now
    | some b => rfl
  unfold RateLimits.allow
  simp only [answer, BucketTable.take, true_and]
  intro other
  rw [find_store, Function.update_apply]
  split
  · rfl
  · exact shows other

/-- The limiters account for the requests that they have let through. -/
def Accounts (m : RateLimitMiddleware) (limits : RateLimits)
    (admitted : List (LimitKey × Int)) (clock : Int) : Prop :=
  ∃ table, limits.Shows table ∧ BucketTable.Within m.settings table admitted clock

/-- With no bucket made, the empty history is accounted for. -/
theorem accounts_new (m : RateLimitMiddleware) (clock : Int) :
    newRateLimits.Accounts m [] clock := by
  refine ⟨fun _ => none, fun key => ?_, ?_⟩
  · cases key with
    | login _ => rfl
    | user _ => rfl
    | publicIP _ => rfl
  · exact BucketTable.within_empty (fun key => (m.settings_nonneg key).1)
      (fun key => (m.settings_nonneg key).2) clock

/-- The requests that were let through, after another one. -/
def admittedAfter (m : RateLimitMiddleware) (limits : RateLimits)
    (admitted : List (LimitKey × Int)) (key : LimitKey) (now : Int) : List (LimitKey × Int) :=
  admitted ++ if (limits.allow m key now).1 = true then [(key, now)] else []

/-- One question to the limiter, at a time not before the last one, keeps the account. -/
theorem Accounts.allow {m : RateLimitMiddleware} {limits : RateLimits}
    {admitted : List (LimitKey × Int)} {clock now : Int}
    (accounts : limits.Accounts m admitted clock) (le : clock ≤ now) (key : LimitKey) :
    (limits.allow m key now).2.Accounts m (limits.admittedAfter m admitted key now) now := by
  obtain ⟨table, shows, within⟩ := accounts
  obtain ⟨same, next⟩ := shows.allow (m := m) key now
  refine ⟨_, next, ?_⟩
  rw [admittedAfter, same]
  exact within.take le key

/-- The account stays right as the clock goes on. -/
theorem Accounts.later {m : RateLimitMiddleware} {limits : RateLimits}
    {admitted : List (LimitKey × Int)} {clock now : Int}
    (accounts : limits.Accounts m admitted clock) (le : clock ≤ now) :
    limits.Accounts m admitted now := by
  obtain ⟨table, shows, within⟩ := accounts
  exact ⟨table, shows, within.later le⟩

/-- What is let through for a key in an interval. -/
theorem Accounts.bounded {m : RateLimitMiddleware} {limits : RateLimits}
    {admitted : List (LimitKey × Int)} {clock : Int}
    (accounts : limits.Accounts m admitted clock) (key : LimitKey) {t0 t1 : Int}
    (interval : t0 ≤ t1) :
    (grantsIn key t0 t1 admitted : ℚ) ≤
      (m.settings key).burst + exactSeconds (t1 - t0) * (m.settings key).rate := by
  obtain ⟨_, _, within⟩ := accounts
  exact within.bounded key t0 t1 interval

end RateLimits

end P2pMesh.Api

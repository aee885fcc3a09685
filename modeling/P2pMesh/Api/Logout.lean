import P2pMesh.Api.Server
import P2pMesh.Foundation.Transition

/-! # What a logout ends

The handler chain along any sequence of requests, with the tokens that a logout was
answered for and that were not issued again. A logout removes the hashes of both tokens
from the store, but the middleware never asks the store: the refresh token is refused
from then on, the access token only after its expiry (`P2pMesh.Api.ended_of_lapsed`).
-/

namespace P2pMesh.Api

open Foundation

/-- The access token of a response. -/
def Response.issuedAccess : Response → Option Bytes
  | .tokens accessToken _ => some accessToken
  | .access token => some token
  | _ => none

/-- The refresh token of a response. -/
def Response.issuedRefresh : Response → Option Bytes
  | .tokens _ refreshToken => some refreshToken
  | _ => none

/-- The response refuses the request. -/
def Response.Refuses (r : Response) : Prop :=
  ∃ status code message, r = .error status code message

/-- The store, and the tokens of logouts that were not issued since. -/
structure Ledger where
  tokens : TokenStore
  endedAccess : List Bytes
  endedRefresh : List Bytes

/-- A ledger before any logout. -/
def newLedger (tokens : TokenStore) : Ledger :=
  ⟨tokens, [], []⟩

/-- The ended tokens after a response: one that it ended is added, one that it issued
is left out. -/
def endedAfter (ended : List Bytes) (endedNow issued : Option Bytes) : List Bytes :=
  endedNow.toList ++ ended.filter fun token => issued ≠ some token

/-- The token of a request, if the response is that of a logout. -/
def Response.ends (r : Response) (token : Option Bytes) : Option Bytes :=
  if r = .loggedOut then token else none

/-- The token has expired. -/
def Expired (p : Primitives) (secret token : Bytes) (now : Int) : Prop :=
  ∃ c, readToken p secret token = .ok c ∧ c.exp ≠ 0 ∧ c.exp ≤ unix now

section

variable (p : Primitives) (h : Handler)

/-- The ledger after a request. -/
def Ledger.step (s : Ledger) (q : Request) : Ledger :=
  let served := serve p h s.tokens q
  ⟨served.2, endedAfter s.endedAccess (served.1.ends (some q.bearer)) served.1.issuedAccess,
    endedAfter s.endedRefresh (served.1.ends q.carried) served.1.issuedRefresh⟩

/-- A request as a step. -/
def Ledger.Step (before : Ledger) (q : Request) (after : Ledger) : Prop :=
  before.step p h q = after

/-- The request presents a token to a protected path. -/
def Request.Presents (q : Request) (token : Bytes) : Prop :=
  q.preflight = false ∧ isPublicPath q.path = false ∧ q.bearer = token

/-- The request is a refresh with the token. -/
def Request.Refreshes (q : Request) (token : Bytes) : Prop :=
  q.preflight = false ∧ q.path = refreshPath ∧ q.refreshRequest = some token

/-- A request with a token that was ended is refused. -/
structure EndedRefused (s : Ledger) (q : Request) : Prop where
  access : ∀ token ∈ s.endedAccess, q.Presents token → (serve p h s.tokens q).1.Refuses
  refresh : ∀ token ∈ s.endedRefresh, q.Refreshes token → (serve p h s.tokens q).1.Refuses

/-- The request is a login with the credentials of the administrator. -/
def Request.LogsIn (q : Request) : Prop :=
  q.preflight = false ∧ q.limited = false ∧ q.path = loginPath ∧
    ∃ r, q.loginRequest = some r ∧ r.username = h.adminUser ∧ r.username ≠ [] ∧
      r.password ≠ [] ∧ p.checkPassHash h.adminHash r.password = true

/-- An ended access token is presented after its expiry only, and the refresh token for the
claims of a login has the hash of no other one that was ended. -/
structure Lapsed (s : Ledger) (q : Request) : Prop where
  access : ∀ token ∈ s.endedAccess, q.Presents token → Expired p h.authSecret token q.authNow.val
  refresh : q.LogsIn p h → ∀ issued, issueToken p h.secret (loginClaims h q) = .ok issued →
    ∀ token ∈ s.endedRefresh, p.tokenHash issued = p.tokenHash token → issued = token

/-- Ended access tokens passed the middleware once, and the store has no ended refresh
token. -/
structure Ended (s : Ledger) : Prop where
  access : ∀ token ∈ s.endedAccess,
    ∃ c, readToken p h.authSecret token = .ok c ∧ c.typ = Api.access
  refresh : ∀ token ∈ s.endedRefresh, s.tokens (p.tokenHash token) = none

end

variable {p : Primitives} {h : Handler}

/-- A token on the list of ended tokens was ended by this request, or was ended before and is not
issued again by it. -/
theorem mem_endedAfter {ended : List Bytes} {endedNow issued : Option Bytes} {token : Bytes}
    (member : token ∈ endedAfter ended endedNow issued) :
    endedNow = some token ∨ (token ∈ ended ∧ issued ≠ some token) := by
  rcases List.mem_append.mp member with now | before
  · exact Or.inl (Option.mem_toList.mp now)
  · obtain ⟨old, kept⟩ := List.mem_filter.mp before
    exact Or.inr ⟨old, of_decide_eq_true kept⟩

theorem notPublic_of_logout {q : Request} (path : q.path = logoutPath) :
    isPublicPath q.path = false := by
  rw [path]
  rfl

/-- A bearer token that passes the middleware. -/
theorem readToken_of_passed {q : Request} (notPublic : isPublicPath q.path = false)
    (passed : refusal p h q = none) :
    ∃ c, readToken p h.authSecret q.bearer = .ok c ∧ c.typ = access ∧ q.bearer ≠ [] := by
  simp only [refusal, notPublic, Bool.false_eq_true, ↓reduceIte] at passed
  split at passed
  · cases passed
  next given =>
    split at passed
    · cases passed
    next c verified =>
      split at passed
      · cases passed
      next typed =>
        unfold verifyToken at verified
        split at verified
        · cases verified
        next read =>
          split at verified
          · cases verified
          · cases verified
            exact ⟨c, read, of_not_not typed, given⟩

/-- What the middleware refuses is the server's answer, unless the request is a preflight. -/
theorem refuses_of_refusal {tokens : TokenStore} {q : Request} {r : Response}
    (notPreflight : q.preflight = false) (refused : refusal p h q = some r) :
    (serve p h tokens q).1.Refuses := by
  obtain ⟨message, rfl⟩ := refusal_error refused
  simp only [serve, notPreflight, Bool.false_eq_true, ↓reduceIte, refused]
  exact ⟨_, _, _, rfl⟩

/-- A token past its expiry does not get through the middleware outside the public paths. -/
theorem refusal_of_expired {q : Request} (notPublic : isPublicPath q.path = false)
    (expired : Expired p h.authSecret q.bearer q.authNow.val) : ∃ r, refusal p h q = some r := by
  obtain ⟨c, read, carries, late⟩ := expired
  have verified : verifyToken p h.authSecret q.bearer q.authNow.val = .error .expired := by
    simp only [verifyToken, read, ne_eq, carries, not_false_eq_true, late, and_self, ↓reduceIte]
  simp only [refusal, notPublic, Bool.false_eq_true, ↓reduceIte, verified]
  split
  · exact ⟨_, rfl⟩
  · exact ⟨_, rfl⟩

/-- A request that passes the middleware and the rate limit reaches its handler. -/
theorem serve_of_passed {tokens : TokenStore} {q : Request} (notPreflight : q.preflight = false)
    (passed : refusal p h q = none) (unlimited : q.limited = false) :
    serve p h tokens q = route p h tokens q := by
  simp only [serve, notPreflight, Bool.false_eq_true, ↓reduceIte, passed, unlimited]

/-- The refresh path is public: the middleware lets every request to it through. -/
theorem refusal_of_refreshes {q : Request} {token : Bytes} (refreshes : q.Refreshes token) :
    refusal p h q = none := by
  rw [refusal, refreshes.2.1]
  rfl

/-- A request to refresh, within the rate limit, is answered by `handleRefresh`. -/
theorem serve_of_refreshes {tokens : TokenStore} {q : Request} {token : Bytes}
    (refreshes : q.Refreshes token) (unlimited : q.limited = false) :
    serve p h tokens q = handleRefresh p h tokens q := by
  have differs : refreshPath ≠ loginPath := by decide
  rw [serve_of_passed refreshes.1 (refusal_of_refreshes refreshes) unlimited]
  simp only [route, refreshes.2.1, differs, ↓reduceIte]

/-- A refresh token that the store does not know is refused. -/
theorem refuses_of_unknown {tokens : TokenStore} {q : Request} {token : Bytes}
    (refreshes : q.Refreshes token) (unknown : tokens (p.tokenHash token) = none) :
    (serve p h tokens q).1.Refuses := by
  cases limit : q.limited with
  | true =>
      simp only [serve, refreshes.1, Bool.false_eq_true, ↓reduceIte,
        refusal_of_refreshes refreshes, limit]
      exact ⟨_, _, _, rfl⟩
  | false =>
      have invalid : tokens.valid p token q.storeNow = (false, tokens) := by
        simp only [TokenStore.valid, unknown]
      rw [serve_of_refreshes refreshes limit]
      simp only [handleRefresh, refreshes.2.2, invalid, Bool.false_eq_true, ↓reduceIte]
      exact ⟨_, _, _, rfl⟩

/-- A request does not bring a hash into the store unless it is a login. -/
theorem Effect.unknown {tokens : TokenStore} {q : Request} {served : Response × TokenStore}
    (effect : Effect p h tokens q served) {key : Bytes} (unknown : tokens key = none)
    (fresh : ∀ issued, served.1.issuedRefresh = some issued → key ≠ p.tokenHash issued) :
    served.2 key = none := by
  cases effect with
  | unchanged r noLogin noLogout => exact unknown
  | login accessToken refreshToken named accessIssued refreshIssued =>
      have kept := tokens.add_apply p refreshToken h.refreshTTL q.storeNow key
      rw [if_neg (fresh refreshToken rfl), unknown] at kept
      exact kept
  | forget token expires message known expired =>
      have kept := tokens.revoke_apply p token key
      rw [unknown, ite_self] at kept
      exact kept
  | logout path passed => rw [logout_snd_apply, unknown, ite_self]

theorem ends_eq_some {r : Response} {endedNow : Option Bytes} {token : Bytes}
    (ends : r.ends endedNow = some token) : r = .loggedOut ∧ endedNow = some token := by
  unfold Response.ends at ends
  split at ends
  · next loggedOut => exact ⟨loggedOut, ends⟩
  · cases ends

/-- Only a logout that passed the middleware is answered with `loggedOut`, and the store is then
the one `logout` leaves. -/
theorem Effect.of_loggedOut {tokens : TokenStore} {q : Request} {served : Response × TokenStore}
    (effect : Effect p h tokens q served) (loggedOut : served.1 = .loggedOut) :
    q.path = logoutPath ∧ refusal p h q = none ∧ served.2 = (Api.logout p tokens q).2 := by
  cases effect with
  | unchanged r noLogin noLogout => exact absurd loggedOut noLogout
  | login => cases loggedOut
  | forget => cases loggedOut
  | logout path passed => exact ⟨path, passed, rfl⟩

/-- Both tokens of a login are issued, and the store has the refresh token from then on. -/
theorem Effect.of_tokens {tokens : TokenStore} {q : Request} {served : Response × TokenStore}
    (effect : Effect p h tokens q served) {accessToken refreshToken : Bytes}
    (isLogin : served.1 = .tokens accessToken refreshToken) :
    h.adminUser ≠ [] ∧
      issueToken p h.secret (claimsFor h.adminUser admin q.handlerNow h.accessTTL access) =
        .ok accessToken ∧
      issueToken p h.secret (loginClaims h q) = .ok refreshToken ∧
      served.2 = tokens.add p refreshToken h.refreshTTL q.storeNow := by
  cases effect with
  | unchanged r noLogin noLogout => exact absurd isLogin (noLogin _ _)
  | login accessToken refreshToken named accessIssued refreshIssued =>
      cases isLogin
      exact ⟨named, accessIssued, refreshIssued, rfl⟩
  | forget => cases isLogin
  | logout path passed =>
      rw [logout_fst] at isLogin
      cases isLogin

/-- A response that issues a refresh token is a pair of tokens. -/
theorem tokens_of_issuedRefresh {r : Response} {token : Bytes}
    (issued : r.issuedRefresh = some token) : ∃ accessToken, r = .tokens accessToken token := by
  cases r with
  | tokens accessToken refreshToken =>
      cases issued
      exact ⟨accessToken, rfl⟩
  | noContent => cases issued
  | error => cases issued
  | access => cases issued
  | loggedOut => cases issued
  | served => cases issued

/-- The refresh handler issues an access token only. -/
theorem issuedRefresh_handleRefresh (p : Primitives) (h : Handler) (tokens : TokenStore)
    (q : Request) : (handleRefresh p h tokens q).1.issuedRefresh = none := by
  unfold handleRefresh
  split
  · rfl
  · split
    · unfold exchange
      split
      · rfl
      · split
        · rfl
        · split <;> rfl
    · rfl

/-- The login handler issues a refresh token for the credentials of the administrator only. -/
theorem credentials_of_issuedRefresh {tokens : TokenStore} {q : Request} {token : Bytes}
    (issued : (login p h tokens q).1.issuedRefresh = some token) :
    ∃ r, q.loginRequest = some r ∧ r.username = h.adminUser ∧ r.username ≠ [] ∧
      r.password ≠ [] ∧ p.checkPassHash h.adminHash r.password = true := by
  unfold login at issued
  split at issued
  · cases issued
  next r decoded =>
    split at issued
    · cases issued
    next given =>
      split at issued
      · cases issued
      next known =>
        rw [not_or] at given
        rw [not_or, ne_eq, not_not, Bool.not_eq_true', Bool.not_eq_false] at known
        exact ⟨r, decoded, known.1, given.1, given.2, known.2⟩

/-- A refresh token is issued for a login only. -/
theorem logsIn_of_issuedRefresh {tokens : TokenStore} {q : Request} {token : Bytes}
    (issued : (serve p h tokens q).1.issuedRefresh = some token) : q.LogsIn p h := by
  unfold serve at issued
  split at issued
  · cases issued
  next notPreflight =>
    split at issued
    · next refused refuses =>
        obtain ⟨message, rfl⟩ := refusal_error refuses
        cases issued
    split at issued
    · cases issued
    next unlimited =>
      unfold route at issued
      split at issued
      · next path =>
          exact ⟨Bool.eq_false_of_not_eq_true notPreflight, Bool.eq_false_of_not_eq_true unlimited,
            path, credentials_of_issuedRefresh issued⟩
      · split at issued
        · rw [issuedRefresh_handleRefresh] at issued
          cases issued
        · split at issued
          · rw [logout_fst] at issued
            cases issued
          · cases issued

/-- A logout removes the refresh token that it carries. -/
theorem Effect.removed {tokens : TokenStore} {q : Request} {served : Response × TokenStore}
    (effect : Effect p h tokens q served) {token : Bytes}
    (ends : served.1.ends q.carried = some token) : served.2 (p.tokenHash token) = none := by
  obtain ⟨loggedOut, carried⟩ := ends_eq_some ends
  obtain ⟨_, _, after⟩ := effect.of_loggedOut loggedOut
  rw [after, logout_snd_apply, if_pos (Or.inr ⟨token, carried, rfl⟩)]

/-- One request keeps ended sessions ended, when an ended access token it presents has expired
and no other token it issues has the hash of an ended one. -/
theorem Ended.step {s : Ledger} (ended : Ended p h s) {q : Request} (lapsed : Lapsed p h s q) :
    Ended p h (s.step p h q) := by
  have effect := serve_effect p h s.tokens q
  constructor
  · intro token member
    rcases mem_endedAfter member with now | ⟨before, _⟩
    · obtain ⟨loggedOut, same⟩ := ends_eq_some now
      obtain ⟨path, passed, _⟩ := effect.of_loggedOut loggedOut
      obtain ⟨c, read, typed, _⟩ := readToken_of_passed (notPublic_of_logout path) passed
      cases same
      exact ⟨c, read, typed⟩
    · exact ended.access token before
  · intro token member
    rcases mem_endedAfter member with now | ⟨before, notIssued⟩
    · exact effect.removed now
    · refine effect.unknown (ended.refresh token before) fun issued isIssued sameHash => ?_
      obtain ⟨accessToken, isLogin⟩ := tokens_of_issuedRefresh isIssued
      obtain ⟨_, _, refreshIssued, _⟩ := effect.of_tokens isLogin
      have same := lapsed.refresh (logsIn_of_issuedRefresh isIssued) issued refreshIssued token
        before sameHash.symm
      rw [isIssued, same] at notIssued
      exact notIssued rfl

/-- No session has ended when the server starts. -/
theorem ended_newLedger (tokens : TokenStore) : Ended p h (newLedger tokens) :=
  ⟨nofun, nofun⟩

/-- Behind the middleware a protected path is served. -/
theorem route_of_protected {tokens : TokenStore} {q : Request}
    (notPublic : isPublicPath q.path = false) :
    (route p h tokens q).1 = if q.path = logoutPath then .loggedOut else .served := by
  simp only [isPublicPath, Bool.or_eq_false_iff, decide_eq_false_iff_not] at notPublic
  simp only [route, notPublic.1, notPublic.2, ↓reduceIte]
  split
  · exact logout_fst p tokens q
  · rfl

/-- The middleware refuses no access token that can be read and has not expired. -/
theorem refusal_eq_none {q : Request} {c : Claims} (notPublic : isPublicPath q.path = false)
    (read : readToken p h.authSecret q.bearer = .ok c) (typed : c.typ = access)
    (fresh : ¬ (c.exp ≠ 0 ∧ c.exp ≤ unix q.authNow.val)) : refusal p h q = none := by
  have given : q.bearer ≠ [] := by
    intro empty
    rw [empty] at read
    cases read
  simp only [refusal, notPublic, Bool.false_eq_true, ↓reduceIte, given, verifyToken, read,
    fresh, typed, ne_eq, not_true_eq_false]

/-- An access token that passed the middleware is refused later exactly when it has
expired. -/
theorem refuses_iff_expired {tokens : TokenStore} {q : Request} {token : Bytes} {c : Claims}
    (read : readToken p h.authSecret token = .ok c) (typed : c.typ = access)
    (presents : q.Presents token) (unlimited : q.limited = false) :
    (serve p h tokens q).1.Refuses ↔ Expired p h.authSecret token q.authNow.val := by
  obtain ⟨notPreflight, notPublic, rfl⟩ := presents
  refine ⟨fun refuses => ?_, fun expired => ?_⟩
  · by_contra current
    have fresh : ¬ (c.exp ≠ 0 ∧ c.exp ≤ unix q.authNow.val) :=
      fun late => current ⟨c, read, late.1, late.2⟩
    have passed : refusal p h q = none := refusal_eq_none notPublic read typed fresh
    obtain ⟨status, code, message, isError⟩ := refuses
    rw [serve_of_passed notPreflight passed unlimited, route_of_protected notPublic] at isError
    split at isError
    · cases isError
    · cases isError
  · obtain ⟨r, refused⟩ := refusal_of_expired notPublic expired
    exact refuses_of_refusal notPreflight refused

/-- Along every sequence of requests that present ended access tokens after their expiry
only, tokens that a logout ended are refused until they are issued again. A request that
presents an ended access token before its expiry is not refused for it. -/
theorem ended_of_lapsed {tokens : TokenStore} {s : Ledger}
    (reached : Reachable (Guarded (Ledger.Step p h) (Lapsed p h)) (newLedger tokens) s)
    (q : Request) :
    (Lapsed p h s q → EndedRefused p h s q) ∧
      ∀ token ∈ s.endedAccess, q.Presents token → q.limited = false →
        ((serve p h s.tokens q).1.Refuses ↔ Expired p h.authSecret token q.authNow.val) := by
  have ended : Ended p h s := by
    refine reached.invariant (Ended p h) (ended_newLedger tokens) ?_
    rintro before q after ended ⟨lapsed, rfl⟩
    exact ended.step lapsed
  refine ⟨fun lapsed => ⟨?_, ?_⟩, ?_⟩
  · intro token member presents
    have expired := lapsed.access token member presents
    obtain ⟨notPreflight, notPublic, same⟩ := presents
    rw [← same] at expired
    obtain ⟨r, refused⟩ := refusal_of_expired notPublic expired
    exact refuses_of_refusal notPreflight refused
  · intro token member refreshes
    exact refuses_of_unknown refreshes (ended.refresh token member)
  · intro token member presents unlimited
    obtain ⟨c, read, typed⟩ := ended.access token member
    exact refuses_iff_expired read typed presents unlimited

/-- A run of requests that meet the condition is prolonged by one more of them. -/
theorem Ledger.step_of_lapsed {tokens : TokenStore} {s : Ledger}
    (reached : Reachable (Guarded (Ledger.Step p h) (Lapsed p h)) (newLedger tokens) s)
    (q : Request) (lapsed : Lapsed p h s q) :
    Reachable (Guarded (Ledger.Step p h) (Lapsed p h)) (newLedger tokens) (s.step p h q) :=
  reached.guardedTail rfl lapsed

/-- Before the first logout every request meets the condition. -/
theorem lapsed_of_none {s : Ledger} (access : s.endedAccess = []) (refresh : s.endedRefresh = [])
    (q : Request) : Lapsed p h s q := by
  constructor
  · rw [access]
    exact nofun
  · rw [refresh]
    exact fun _ _ _ => nofun

/-- A logout ends its two tokens. -/
theorem Ledger.mem_ended {s : Ledger} {q : Request}
    (loggedOut : (serve p h s.tokens q).1 = .loggedOut) :
    q.bearer ∈ (s.step p h q).endedAccess ∧
      ∀ token, q.carried = some token → token ∈ (s.step p h q).endedRefresh := by
  simp only [Ledger.step, endedAfter, Response.ends, loggedOut, ↓reduceIte, Option.toList_some]
  refine ⟨List.mem_append_left _ List.mem_cons_self, fun token carried => ?_⟩
  rw [carried]
  exact List.mem_append_left _ List.mem_cons_self

/-- The access token of the sample login. -/
def sampleAccess : Bytes :=
  sampleResponse.issuedAccess.getD []

/-- The refresh token of the sample login. -/
def sampleRefresh : Bytes :=
  sampleResponse.issuedRefresh.getD []

/-- A logout with both tokens of the login in the second 1000. -/
def sampleLogout : Request :=
  sampleRequest logoutPath (bearerHeader sampleAccess) (refreshBody sampleRefresh) 1001

/-- The ledger after the login. -/
def sampleLedger : Ledger :=
  (newLedger fun _ => none).step samplePrimitives sampleHandler (sampleLogin 1000)

/-- The claims of the access token. -/
def sampleClaims : Claims :=
  ⟨ascii "admin", ascii "admin", 1000, 87400, access⟩

/-- The sample access token is read back as the claims it was signed for. -/
theorem readToken_sampleAccess :
    readToken samplePrimitives sampleHandler.authSecret sampleAccess = .ok sampleClaims := by
  decide +kernel

theorem sampleAccess_ne_nil : sampleAccess ≠ [] := by
  intro empty
  have read := readToken_sampleAccess
  rw [empty] at read
  cases read

/-- The access token passes the middleware until its expiry. -/
theorem sampleAccess_passes {path : Bytes} (notPublic : isPublicPath path = false)
    (body : Bytes) {seconds : UInt32} (early : seconds < 87400) :
    refusal samplePrimitives sampleHandler
      (sampleRequest path (bearerHeader sampleAccess) body seconds) = none := by
  refine refusal_eq_none notPublic (c := sampleClaims) ?_ rfl ?_
  · rw [bearer_bearerHeader sampleAccess_ne_nil]
    exact readToken_sampleAccess
  · rintro ⟨_, late⟩
    have expired : (87400 : Int) ≤ seconds.toNat := late.trans_eq (unix_clock seconds)
    have bound : seconds.toNat < 87400 := UInt32.lt_iff_toNat_lt.mp early
    omega

theorem sampleRefresh_plain : Json.isPlain sampleRefresh = true := by
  decide +kernel

/-- The sample logout carries the sample refresh token in its body. -/
theorem sampleLogout_carried : sampleLogout.carried = some sampleRefresh := by
  have read : sampleLogout.refreshRequest = some sampleRefresh :=
    refreshRequest_refreshBody sampleRefresh_plain _ _ _
  have given : sampleRefresh ≠ [] := by decide +kernel
  rw [Request.carried, read, Option.filter_some, if_pos (decide_eq_true given)]

/-- The sample logout is accepted whatever the token store holds. -/
theorem sampleLogout_loggedOut (tokens : TokenStore) :
    (serve samplePrimitives sampleHandler tokens sampleLogout).1 = .loggedOut := by
  have passed : refusal samplePrimitives sampleHandler sampleLogout = none :=
    sampleAccess_passes rfl _ (by decide)
  rw [serve_of_passed rfl passed rfl, route_of_protected rfl]
  rfl

/-- The sample logout ends both tokens of its session. -/
theorem sampleLogout_ends :
    sampleAccess ∈ (sampleLedger.step samplePrimitives sampleHandler sampleLogout).endedAccess ∧
      sampleRefresh ∈
        (sampleLedger.step samplePrimitives sampleHandler sampleLogout).endedRefresh := by
  obtain ⟨bearer, carried⟩ := Ledger.mem_ended (sampleLogout_loggedOut sampleLedger.tokens)
  constructor
  · rwa [sampleLogout, bearer_bearerHeader sampleAccess_ne_nil] at bearer
  · exact carried _ sampleLogout_carried

/-- After the logout the list of nodes is served to its access token. -/
theorem loggedOutToken_served :
    let loggedOut := sampleLedger.step samplePrimitives sampleHandler sampleLogout
    let listNodes := sampleRequest (ascii "/api/v1/nodes") (bearerHeader sampleAccess) [] 1002
    sampleAccess ∈ loggedOut.endedAccess ∧ listNodes.Presents sampleAccess ∧
      (serve samplePrimitives sampleHandler loggedOut.tokens listNodes).1 = .served := by
  intro loggedOut listNodes
  have passed : refusal samplePrimitives sampleHandler listNodes = none :=
    sampleAccess_passes rfl [] (by decide)
  refine ⟨sampleLogout_ends.1, ⟨rfl, rfl, bearer_bearerHeader sampleAccess_ne_nil _ _ _⟩, ?_⟩
  rw [serve_of_passed rfl passed rfl, route_of_protected rfl]
  rfl

/-- After the logout its refresh token is refused. -/
theorem loggedOutRefresh_refused :
    (serve samplePrimitives sampleHandler
      (sampleLedger.step samplePrimitives sampleHandler sampleLogout).tokens
      (sampleRequest refreshPath [] (refreshBody sampleRefresh) 1002)).1.Refuses := by
  have noneEnded : sampleLedger.endedAccess = [] ∧ sampleLedger.endedRefresh = [] := by
    decide +kernel
  have loggedIn : Reachable (Guarded (Ledger.Step samplePrimitives sampleHandler)
      (Lapsed samplePrimitives sampleHandler)) (newLedger fun _ => none) sampleLedger :=
    Ledger.step_of_lapsed (.refl _) (sampleLogin 1000) (lapsed_of_none rfl rfl _)
  have loggedOut := Ledger.step_of_lapsed loggedIn sampleLogout
    (lapsed_of_none noneEnded.1 noneEnded.2 _)
  refine ((ended_of_lapsed loggedOut _).1 ⟨?_, ?_⟩).refresh sampleRefresh sampleLogout_ends.2
    ⟨rfl, rfl, refreshRequest_refreshBody sampleRefresh_plain _ _ _⟩
  · intro token _ presents
    cases presents.2.1
  · intro _ issued _ token _ sameHash
    exact sameHash

end P2pMesh.Api

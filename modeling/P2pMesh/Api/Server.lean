import P2pMesh.Api.Token
import P2pMesh.Foundation.CaseMap
import Mathlib.Logic.Function.Basic

/-! # The handler chain of the management API

`NewServer`, `Server.Handler`, the middleware and the `/auth` handlers of `internal/api`,
with the store of refresh tokens as the state. The answer of the rate limiter and the
clock readings of a request are part of the request. What a request can do to the store
is said once (`P2pMesh.Api.serve_effect`).
-/

namespace P2pMesh.Api

open Foundation

/-- A reading of a clock, in nanoseconds since the epoch. -/
abbrev Instant := { ns : Int // -(2 ^ 62 * 1000000000) ≤ ns ∧ ns < 2 ^ 62 * 1000000000 }

/-- `time.Duration`. -/
abbrev Duration := { ns : Int // -2 ^ 63 ≤ ns ∧ ns < 2 ^ 63 }

/-- The fields of `api.Config` that the tokens depend on. -/
structure Config where
  secret : Bytes
  accessTTL : Duration
  refreshTTL : Duration

/-- The fields of `api.Deps` that the tokens depend on. -/
structure Deps where
  secret : Bytes
  adminUser : Bytes
  adminHash : Bytes
  accessTTL : Duration
  refreshTTL : Duration

/-- The settings of the handler chain. -/
structure Handler where
  authSecret : Bytes
  secret : Bytes
  adminUser : Bytes
  adminHash : Bytes
  accessTTL : Duration
  refreshTTL : Duration

/-- A day. -/
def defaultAccessTTL : Duration :=
  ⟨24 * 3600 * 1000000000, by decide⟩

/-- A week. -/
def defaultRefreshTTL : Duration :=
  ⟨7 * 24 * 3600 * 1000000000, by decide⟩

/-- A duration that is not positive stands for the default. -/
def orDefault (ttl fallback : Duration) : Duration :=
  if ttl.val ≤ 0 then fallback else ttl

/-- The configuration that `NewServer` keeps. -/
def newServer (cfg : Config) : Config :=
  { cfg with
    accessTTL := orDefault cfg.accessTTL defaultAccessTTL
    refreshTTL := orDefault cfg.refreshTTL defaultRefreshTTL }

/-- `Server.Handler`. The middleware has the secret of the configuration, the handlers
have that of the dependencies if there is one. -/
def newHandler (cfg : Config) (d : Deps) : Handler where
  authSecret := (newServer cfg).secret
  secret := if d.secret.length = 0 then (newServer cfg).secret else d.secret
  adminUser := d.adminUser
  adminHash := d.adminHash
  accessTTL := orDefault d.accessTTL (newServer cfg).accessTTL
  refreshTTL := orDefault d.refreshTTL (newServer cfg).refreshTTL

/-- The expiry of each known refresh token, by its hash. -/
abbrev TokenStore := Bytes → Option Int

namespace TokenStore

variable (p : Primitives)

/-- `tokenStore.add`. -/
def add (tokens : TokenStore) (token : Bytes) (ttl : Duration) (now : Instant) : TokenStore :=
  Function.update tokens (p.tokenHash token) (some (now.val + ttl.val))

/-- `tokenStore.revoke`. -/
def revoke (tokens : TokenStore) (token : Bytes) : TokenStore :=
  Function.update tokens (p.tokenHash token) none

/-- `tokenStore.valid`; an expired token is forgotten. -/
def valid (tokens : TokenStore) (token : Bytes) (now : Instant) : Bool × TokenStore :=
  match tokens (p.tokenHash token) with
  | none => (false, tokens)
  | some expires => if expires < now.val then (false, tokens.revoke p token) else (true, tokens)

end TokenStore

/-- A request, with the answer of the rate limiter and what the clocks of the middleware,
the token store and the handler read, the last one twice. -/
structure Request where
  preflight : Bool
  path : Bytes
  authorization : Bytes
  body : Bytes
  limited : Bool
  authNow : Instant
  storeNow : Instant
  handlerNow : Instant
  issueNow : Instant

/-- What the handlers of `/auth` and the middleware answer. -/
inductive Response where
  | noContent
  | error (status : Nat) (code message : String)
  | tokens (accessToken refreshToken : Bytes)
  | access (token : Bytes)
  | loggedOut
  | served
deriving DecidableEq

/-- The path of `login`. -/
def loginPath : Bytes := ascii "/api/v1/auth/login"

/-- The path of `refresh`. -/
def refreshPath : Bytes := ascii "/api/v1/auth/refresh"

/-- The path of `logout`. -/
def logoutPath : Bytes := ascii "/api/v1/auth/logout"

/-- `isPublicPath`: the paths that need no token. -/
def isPublicPath (path : Bytes) : Bool :=
  path = loginPath || path = refreshPath

/-- `bearer`: the token of the `Authorization` header. -/
def Request.bearer (q : Request) : Bytes :=
  if 7 < q.authorization.length ∧
      (q.authorization.take 7).map CaseMap.lowerByte = ascii "bearer " then
    q.authorization.drop 7
  else []

/-- The body of a login. -/
structure LoginRequest where
  username : Bytes
  password : Bytes

/-- The members of the body of a login. -/
def loginField (name : List Char) : Option (LoginRequest → Json.Value → Option LoginRequest) :=
  if name = "USERNAME".toList then
    some fun r v => (v.setString r.username).map fun username => { r with username := username }
  else if name = "PASSWORD".toList then
    some fun r v => (v.setString r.password).map fun password => { r with password := password }
  else none

/-- The body of a login; `none` when `Decode` returns an error. -/
def Request.loginRequest (q : Request) : Option LoginRequest :=
  (Json.readFirst q.body).bind fun read => read.1.record loginField ⟨[], []⟩

/-- The member of a body that has a refresh token. -/
def refreshField (name : List Char) : Option (Bytes → Json.Value → Option Bytes) :=
  if name = "REFRESH_TOKEN".toList then some fun token v => v.setString token else none

/-- The refresh token in a body; `none` when `Decode` returns an error. -/
def Request.refreshRequest (q : Request) : Option Bytes :=
  (Json.readFirst q.body).bind fun read => read.1.record refreshField []

/-- The claims of a token that is issued at a time for a duration. -/
def claimsFor (sub role : Bytes) (now : Instant) (ttl : Duration) (typ : Bytes) : Claims :=
  ⟨sub, role, unix now.val, unix (now.val + ttl.val), typ⟩

/-- The role of every token that is issued. -/
def admin : Bytes := ascii "admin"

/-- An answer with the status 401. -/
def unauthorized (message : String) : Response :=
  .error 401 "UNAUTHORIZED" message

/-- An answer with the status 400. -/
def badRequest (message : String) : Response :=
  .error 400 "BAD_REQUEST" message

/-- An answer with the status 500. -/
def internal (message : String) : Response :=
  .error 500 "INTERNAL" message

section

variable (p : Primitives) (h : Handler) (tokens : TokenStore) (q : Request)

/-- `login`. -/
def login : Response × TokenStore :=
  match q.loginRequest with
  | none => (badRequest "malformed body", tokens)
  | some r =>
      if r.username = [] ∨ r.password = [] then
        (badRequest "username and password required", tokens)
      else if r.username ≠ h.adminUser ∨ !p.checkPassHash h.adminHash r.password then
        (unauthorized "invalid credentials", tokens)
      else
        match issueToken p h.secret
            (claimsFor r.username admin q.handlerNow h.accessTTL access) with
        | .error _ => (internal "issue access token", tokens)
        | .ok accessToken =>
            match issueToken p h.secret
                (claimsFor r.username admin q.handlerNow h.refreshTTL refresh) with
            | .error _ => (internal "issue refresh token", tokens)
            | .ok refreshToken =>
                (.tokens accessToken refreshToken,
                  tokens.add p refreshToken h.refreshTTL q.storeNow)

/-- `refresh` for a token that the store knows. -/
def exchange (token : Bytes) : Response :=
  match verifyToken p h.secret token q.handlerNow.val with
  | .error _ => unauthorized "invalid refresh token"
  | .ok c =>
      if c.typ ≠ refresh then unauthorized "invalid refresh token"
      else
        match issueToken p h.secret (claimsFor c.sub c.role q.issueNow h.accessTTL access) with
        | .error _ => internal "issue access token"
        | .ok accessToken => .access accessToken

/-- `refresh`. -/
def handleRefresh : Response × TokenStore :=
  match q.refreshRequest with
  | none => (badRequest "malformed body", tokens)
  | some token =>
      if (tokens.valid p token q.storeNow).1 then (exchange p h q token, tokens)
      else
        (unauthorized "refresh token unknown or expired", (tokens.valid p token q.storeNow).2)

/-- The refresh token that a logout carries in its body. -/
def Request.carried : Option Bytes :=
  q.refreshRequest.filter (· ≠ [])

/-- What `logout` revokes. -/
def revokeBearer : TokenStore :=
  if q.bearer ≠ [] then tokens.revoke p q.bearer else tokens

/-- `logout`. -/
def logout : Response × TokenStore :=
  match q.carried with
  | some token => (.loggedOut, (revokeBearer p tokens q).revoke p token)
  | none => (.loggedOut, revokeBearer p tokens q)

/-- `AuthMiddleware`: the answer to a request that it does not pass on. -/
def refusal : Option Response :=
  if isPublicPath q.path then none
  else if q.bearer = [] then some (unauthorized "missing bearer token")
  else
    match verifyToken p h.authSecret q.bearer q.authNow.val with
    | .error err => some (unauthorized err.text)
    | .ok c =>
        if c.typ ≠ access then some (unauthorized "refresh token cannot access the API")
        else none

/-- The handlers behind the middleware. Those of the other paths do not use the store of
tokens. -/
def route : Response × TokenStore :=
  if q.path = loginPath then login p h tokens q
  else if q.path = refreshPath then handleRefresh p h tokens q
  else if q.path = logoutPath then logout p tokens q
  else (.served, tokens)

/-- The handler chain: preflight requests, authentication, the rate limit, the routes. -/
def serve : Response × TokenStore :=
  if q.preflight then (.noContent, tokens)
  else
    match refusal p h q with
    | some refused => (refused, tokens)
    | none =>
        if q.limited then (.error 429 "RATE_LIMITED" "too many requests", tokens)
        else route p h tokens q

/-- The claims of the refresh token that a login of the administrator returns. -/
def loginClaims : Claims :=
  claimsFor h.adminUser admin q.handlerNow h.refreshTTL refresh

/-- What a request can do to the store of tokens. -/
inductive Effect : Response × TokenStore → Prop where
  | unchanged (r : Response) (noLogin : ∀ a b, r ≠ .tokens a b) (noLogout : r ≠ .loggedOut) :
      Effect (r, tokens)
  | login (accessToken refreshToken : Bytes) (named : h.adminUser ≠ [])
      (accessIssued : issueToken p h.secret
        (claimsFor h.adminUser admin q.handlerNow h.accessTTL access) = .ok accessToken)
      (refreshIssued : issueToken p h.secret (loginClaims h q) = .ok refreshToken) :
      Effect (.tokens accessToken refreshToken, tokens.add p refreshToken h.refreshTTL q.storeNow)
  | forget (token : Bytes) (expires : Int) (message : String)
      (known : tokens (p.tokenHash token) = some expires) (expired : expires < q.storeNow.val) :
      Effect (unauthorized message, tokens.revoke p token)
  | logout (path : q.path = logoutPath) (passed : refusal p h q = none) :
      Effect (logout p tokens q)

end

/-- Revoking clears the entry of the token's hash and no other. -/
theorem TokenStore.revoke_apply (p : Primitives) (tokens : TokenStore) (token key : Bytes) :
    tokens.revoke p token key = if key = p.tokenHash token then none else tokens key :=
  Function.update_apply _ _ _ _

/-- Adding sets the entry of the token's hash and no other. -/
theorem TokenStore.add_apply (p : Primitives) (tokens : TokenStore) (token : Bytes)
    (ttl : Duration) (now : Instant) (key : Bytes) :
    tokens.add p token ttl now key =
      if key = p.tokenHash token then some (now.val + ttl.val) else tokens key :=
  Function.update_apply _ _ _ _

/-- The bearer token is revoked only when the request carries one. -/
theorem revokeBearer_apply (p : Primitives) (tokens : TokenStore) (q : Request) (key : Bytes) :
    revokeBearer p tokens q key =
      if q.bearer ≠ [] ∧ key = p.tokenHash q.bearer then none else tokens key := by
  unfold revokeBearer
  by_cases given : q.bearer ≠ []
  · simp only [given, not_false_eq_true, ↓reduceIte, true_and, tokens.revoke_apply, ne_eq]
  · simp only [given, ↓reduceIte, false_and]

/-- Logging out is answered with success whatever was revoked. -/
theorem logout_fst (p : Primitives) (tokens : TokenStore) (q : Request) :
    (logout p tokens q).1 = .loggedOut := by
  unfold logout
  split
  · rfl
  · rfl

/-- A logout removes the hashes of its two tokens. -/
theorem logout_snd_apply (p : Primitives) (tokens : TokenStore) (q : Request) (key : Bytes) :
    (logout p tokens q).2 key =
      if (q.bearer ≠ [] ∧ key = p.tokenHash q.bearer) ∨
        (∃ token, q.carried = some token ∧ key = p.tokenHash token) then none
      else tokens key := by
  unfold logout
  cases q.carried with
  | none =>
      simp only [revokeBearer_apply, reduceCtorEq, false_and, exists_false, or_false]
  | some token =>
      simp only [TokenStore.revoke_apply, revokeBearer_apply, Option.some.injEq, exists_eq_left']
      by_cases same : key = p.tokenHash token
      · simp only [same, ↓reduceIte, or_true]
      · simp only [same, ↓reduceIte, or_false]

/-- A login has one of the effects a request may have. -/
theorem login_effect (p : Primitives) (h : Handler) (tokens : TokenStore) (q : Request) :
    Effect p h tokens q (login p h tokens q) := by
  unfold login
  split
  · exact .unchanged _ nofun nofun
  next r decoded =>
    split
    · exact .unchanged _ nofun nofun
    next given =>
      split
      · exact .unchanged _ nofun nofun
      next known =>
        have same : r.username = h.adminUser := of_not_not fun differs => known (Or.inl differs)
        split
        · exact .unchanged _ nofun nofun
        next accessToken accessIssued =>
          split
          · exact .unchanged _ nofun nofun
          next refreshToken refreshIssued =>
            rw [same] at accessIssued refreshIssued given
            exact .login accessToken refreshToken (fun empty => given (Or.inl empty)) accessIssued
              refreshIssued

/-- Exchanging a refresh token hands out no pair of tokens and logs nobody out. -/
theorem exchange_cases (p : Primitives) (h : Handler) (q : Request) (token : Bytes) :
    (∀ a b, exchange p h q token ≠ .tokens a b) ∧ exchange p h q token ≠ .loggedOut := by
  unfold exchange
  split
  · exact ⟨nofun, nofun⟩
  · split
    · exact ⟨nofun, nofun⟩
    · split
      · exact ⟨nofun, nofun⟩
      · exact ⟨nofun, nofun⟩

/-- A refresh has one of the effects a request may have. -/
theorem handleRefresh_effect (p : Primitives) (h : Handler) (tokens : TokenStore) (q : Request) :
    Effect p h tokens q (handleRefresh p h tokens q) := by
  unfold handleRefresh
  split
  · exact .unchanged _ nofun nofun
  next token decoded =>
    split
    · obtain ⟨noLogin, noLogout⟩ := exchange_cases p h q token
      exact .unchanged _ noLogin noLogout
    next invalid =>
      unfold TokenStore.valid at invalid ⊢
      cases known : tokens (p.tokenHash token) with
      | none => exact .unchanged _ nofun nofun
      | some expires =>
          simp only [known] at invalid ⊢
          split at invalid
          · next expired =>
              simp only [expired, ↓reduceIte]
              exact .forget token expires _ known expired
          · exact absurd rfl invalid

/-- The middleware refuses with the status for an unauthorised request. -/
theorem refusal_error {p : Primitives} {h : Handler} {q : Request} {r : Response}
    (refused : refusal p h q = some r) : ∃ message, r = unauthorized message := by
  unfold refusal at refused
  split at refused
  · cases refused
  · split at refused
    · cases refused
      exact ⟨_, rfl⟩
    · split at refused
      · cases refused
        exact ⟨_, rfl⟩
      · split at refused
        · cases refused
          exact ⟨_, rfl⟩
        · cases refused

/-- Every request has one of the effects of `Effect`, whichever handler serves it. -/
theorem serve_effect (p : Primitives) (h : Handler) (tokens : TokenStore) (q : Request) :
    Effect p h tokens q (serve p h tokens q) := by
  unfold serve
  split
  · exact .unchanged _ nofun nofun
  · split
    · next refused isRefused =>
        obtain ⟨message, rfl⟩ := refusal_error isRefused
        exact .unchanged _ nofun nofun
    · next passed =>
        split
        · exact .unchanged _ nofun nofun
        · unfold route
          split
          · exact login_effect p h tokens q
          · split
            · exact handleRefresh_effect p h tokens q
            · split
              · next path => exact .logout path passed
              · exact .unchanged _ nofun nofun

/-- The claims the handlers sign are within the ranges a token can carry. -/
theorem claimsFor_proper {sub typ : Bytes} (role : Bytes) (now : Instant) (ttl : Duration)
    (named : sub ≠ []) (typed : typ = access ∨ typ = refresh) :
    (claimsFor sub role now ttl typ).Proper := by
  have nowRange := now.property
  have ttlRange := ttl.property
  refine ⟨?_, ?_, named, typed⟩
  · simp only [claimsFor, unix]
    omega
  · simp only [claimsFor, unix]
    omega

/-- Primitives for concrete runs: signatures are short, and a token is its own hash. -/
def samplePrimitives : Primitives where
  hmacSHA256 secret message := secret ++ message.take 4
  tokenHash token := token
  checkPassHash hash password := hash = password

/-- A server with one secret and the default lifetimes. -/
def sampleHandler : Handler :=
  newHandler ⟨ascii "key", ⟨0, by decide⟩, ⟨0, by decide⟩⟩
    ⟨[], ascii "admin", ascii "pw", ⟨0, by decide⟩, ⟨0, by decide⟩⟩

/-- A time in seconds since the epoch. -/
def clock (seconds : UInt32) : Instant :=
  ⟨seconds.toNat * 1000000000, by
    have small := seconds.toNat_lt
    omega⟩

theorem unix_clock (seconds : UInt32) : unix (clock seconds).val = seconds.toNat :=
  Int.mul_ediv_cancel _ (by decide)

/-- A request in which all clocks show the same second. -/
def sampleRequest (path authorization body : Bytes) (seconds : UInt32) : Request :=
  ⟨false, path, authorization, body, false, clock seconds, clock seconds, clock seconds,
    clock seconds⟩

/-- A login of the administrator. -/
def sampleLogin (seconds : UInt32) : Request :=
  sampleRequest loginPath [] (ascii "\x7b\"username\":\"admin\",\"password\":\"pw\"\x7d") seconds

/-- The response to a login in the second 1000. -/
def sampleResponse : Response :=
  (serve samplePrimitives sampleHandler (fun _ => none) (sampleLogin 1000)).1

/-- The header that carries a token. -/
def bearerHeader (token : Bytes) : Bytes :=
  ascii "Bearer " ++ token

/-- A header written for a token is read back as that token. -/
theorem bearer_bearerHeader {token : Bytes} (nonempty : token ≠ []) (path body : Bytes)
    (seconds : UInt32) : (sampleRequest path (bearerHeader token) body seconds).bearer = token := by
  have size : 7 < (bearerHeader token).length := by
    rw [bearerHeader, List.length_append]
    exact Nat.lt_add_of_pos_right (List.length_pos_iff.mpr nonempty)
  have scheme : ((bearerHeader token).take 7).map CaseMap.lowerByte = ascii "bearer " := by
    have front : (bearerHeader token).take 7 = ascii "Bearer " := List.take_left' rfl
    rw [front]
    decide
  simp only [Request.bearer, sampleRequest, size, scheme, and_self, ↓reduceIte]
  exact List.drop_left' rfl

/-- The body that carries a refresh token. -/
def refreshBody (token : Bytes) : Bytes :=
  ascii "\x7b\"refresh_token\":\"" ++ token ++ ascii "\"\x7d"

/-- A token that needs no escapes is read from the body as it is. -/
theorem refreshRequest_refreshBody {token : Bytes} (plain : Json.isPlain token = true)
    (path authorization : Bytes) (seconds : UInt32) :
    (sampleRequest path authorization (refreshBody token) seconds).refreshRequest =
      some token := by
  have name : Json.quote (ascii "refresh_token") = "\"refresh_token\"".toList := by
    decide +kernel
  have folded : (Json.clean (ascii "refresh_token")).map Json.foldRune =
      "REFRESH_TOKEN".toList := by
    decide +kernel
  have opening : encodeRunes "\x7b\"refresh_token\":\"".toList =
      ascii "\x7b\"refresh_token\":\"" := by
    decide +kernel
  have closing : encodeRunes "\"\x7d".toList = ascii "\"\x7d" := by decide +kernel
  have text : Json.writeObject [(ascii "refresh_token", Json.quote token)] =
      "\x7b\"refresh_token\":\"".toList ++ (Json.clean token ++ "\"\x7d".toList) := by
    rw [Json.writeObject, Json.writeMembers, Json.writeMember, name, Json.quote_of_plain plain]
    simp
  have body : encodeRunes (Json.writeObject [(ascii "refresh_token", Json.quote token)]) =
      refreshBody token := by
    rw [text, encodeRunes, List.flatMap_append, List.flatMap_append, ← encodeRunes, ← encodeRunes,
      ← encodeRunes, opening, closing, Json.encodeRunes_clean_of_plain plain, refreshBody,
      List.append_assoc]
  have read := Json.readFirst_writeObject
    [⟨ascii "refresh_token", _, _, Json.reads_quote token⟩] (List.cons_ne_nil _ _)
  simp only [List.map_cons, List.map_nil, Json.Member.written, Json.Member.read, body] at read
  simp only [Request.refreshRequest, sampleRequest, read, Option.bind_some, Json.Value.record,
    Json.setMembers, Json.setMember_eq refreshField folded rfl, Json.Value.setString,
    Json.encodeRunes_clean_of_plain plain]

end P2pMesh.Api

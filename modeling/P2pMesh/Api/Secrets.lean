import P2pMesh.Api.Logout

/-! # The two secrets of a server

The handlers sign tokens with the secret of `Deps` if there is one, the middleware checks
them with that of `Config`, and only the signing refuses an empty secret. One secret is used
throughout exactly when that of `Config` is not empty and signs the tokens of logins as the
other does (`P2pMesh.Api.oneSecret_iff`).
-/

namespace P2pMesh.Api

open Foundation

/-- The token of the claims under a secret, empty or not. -/
def signedToken (p : Primitives) (secret : Bytes) (c : Claims) : Bytes :=
  signedPart c ++ [dot] ++ Base64.encode (p.hmacSHA256 secret (signedPart c))

/-- The claims of the access token that a login of the administrator returns. -/
def accessClaims (h : Handler) (q : Request) : Claims :=
  claimsFor h.adminUser admin q.handlerNow h.accessTTL access

section

variable (p : Primitives) (h : Handler)

/-- A request that is not for a public path presents the token. -/
structure Request.Shows (q : Request) (token : Bytes) : Prop where
  path : isPublicPath q.path = false
  bearer : q.bearer = token

/-- The access token of a login is accepted until it expires, and nothing is accepted with
an empty secret. -/
structure OneSecret : Prop where
  accepted : ∀ (tokens : TokenStore) (q : Request) (accessToken refreshToken : Bytes),
    (serve p h tokens q).1 = .tokens accessToken refreshToken →
      ∀ later : Request, later.Shows accessToken →
        unix later.authNow.val < (accessClaims h q).exp → refusal p h later = none
  rejected : h.authSecret = [] → ∀ (q : Request) (token : Bytes), q.Shows token →
    refusal p h q ≠ none

/-- The secret of the middleware signs the access token of every login as that of the
handlers does. -/
def SignsAlike : Prop :=
  ∀ (tokens : TokenStore) (q : Request) (accessToken refreshToken : Bytes),
    (serve p h tokens q).1 = .tokens accessToken refreshToken →
      p.hmacSHA256 h.authSecret (signedPart (accessClaims h q)) =
        p.hmacSHA256 h.secret (signedPart (accessClaims h q))

end

variable {p : Primitives} {h : Handler}

/-- A token passes the check with another secret exactly when that signs it alike. -/
theorem readToken_signedToken {c : Claims} (proper : c.Proper) (secret other : Bytes) :
    readToken p other (signedToken p secret c) =
      if p.hmacSHA256 other (signedPart c) = p.hmacSHA256 secret (signedPart c) then .ok c.cleaned
      else .error .signature := by
  unfold readToken signedToken
  rw [splitOn_signedPart]
  simp only [Base64.decode_encode, Option.some.injEq, readClaims_marshalClaims proper,
    ← signedPart.eq_1, eq_comm]

theorem signedToken_ne_nil (secret : Bytes) (c : Claims) : signedToken p secret c ≠ [] := by
  rw [signedToken, List.append_assoc]
  exact List.append_ne_nil_of_right_ne_nil _ (List.cons_ne_nil _ _)

/-- What the middleware makes of a token before its expiry. -/
theorem refusal_signedToken {c : Claims} (proper : c.Proper) (typed : c.typ = access)
    {secret : Bytes} {q : Request} (shows : q.Shows (signedToken p secret c))
    (early : unix q.authNow.val < c.exp) :
    refusal p h q = none ↔
      p.hmacSHA256 h.authSecret (signedPart c) = p.hmacSHA256 secret (signedPart c) := by
  have fresh : ¬ (c.cleaned.exp ≠ 0 ∧ c.cleaned.exp ≤ unix q.authNow.val) :=
    fun expired => Int.not_le.mpr early expired.2
  have cleaned : c.cleaned.typ = access := (typ_cleaned proper).trans typed
  simp only [refusal, shows.path, Bool.false_eq_true, ↓reduceIte, shows.bearer,
    signedToken_ne_nil, verifyToken, readToken_signedToken proper]
  by_cases alike : p.hmacSHA256 h.authSecret (signedPart c) = p.hmacSHA256 secret (signedPart c)
  · simp only [alike, ↓reduceIte, fresh, cleaned, ne_eq, not_true_eq_false]
  · simp only [alike, ↓reduceIte, reduceCtorEq]

/-- The access token of a login. -/
theorem Effect.granted {tokens : TokenStore} {q : Request} {served : Response × TokenStore}
    (effect : Effect p h tokens q served) {accessToken refreshToken : Bytes}
    (isLogin : served.1 = .tokens accessToken refreshToken) :
    (accessClaims h q).Proper ∧ 0 < (accessClaims h q).exp ∧
      accessToken = signedToken p h.secret (accessClaims h q) := by
  obtain ⟨named, accessIssued, _⟩ := effect.of_tokens isLogin
  obtain ⟨_, positive, token⟩ := issueToken_eq_ok accessIssued
  exact ⟨claimsFor_proper admin _ _ named (.inl rfl), positive, token⟩

/-- A request that presents a token at the epoch. -/
def showing (token : Bytes) : Request :=
  sampleRequest logoutPath (bearerHeader token) [] 0

/-- The request `showing` a token carries that token in its header. -/
theorem shows_showing {token : Bytes} (nonempty : token ≠ []) : (showing token).Shows token :=
  ⟨rfl, bearer_bearerHeader nonempty _ _ _⟩

/-- The claims of a token that anyone can sign with the empty secret. -/
def forgedClaims : Claims :=
  ⟨admin, admin, 0, 1, access⟩

/-- The claims signed in the counterexample are ones the code itself could have issued. -/
theorem forgedClaims_proper : forgedClaims.Proper :=
  ⟨by decide, by decide, by decide, .inl rfl⟩

/-- With an empty secret the middleware accepts a token that was signed with it. -/
theorem refusal_forged (keyless : h.authSecret = []) :
    refusal p h (showing (signedToken p [] forgedClaims)) = none := by
  have early : unix (showing (signedToken p [] forgedClaims)).authNow.val < forgedClaims.exp :=
    Int.zero_lt_one
  rw [refusal_signedToken forgedClaims_proper rfl (shows_showing (signedToken_ne_nil _ _)) early,
    keyless]

/-- Every access token the server hands out is accepted until it expires, exactly when both secrets
sign alike. -/
theorem accepted_iff_signsAlike :
    (∀ (tokens : TokenStore) (q : Request) (accessToken refreshToken : Bytes),
      (serve p h tokens q).1 = .tokens accessToken refreshToken →
        ∀ later : Request, later.Shows accessToken →
          unix later.authNow.val < (accessClaims h q).exp → refusal p h later = none) ↔
      SignsAlike p h := by
  constructor
  · intro accepted tokens q accessToken refreshToken isLogin
    obtain ⟨proper, positive, rfl⟩ := (serve_effect p h tokens q).granted isLogin
    have shows := shows_showing (signedToken_ne_nil (p := p) h.secret (accessClaims h q))
    exact (refusal_signedToken proper rfl shows positive).mp
      (accepted tokens q _ _ isLogin _ shows positive)
  · intro alike tokens q accessToken refreshToken isLogin later shows early
    obtain ⟨proper, _, rfl⟩ := (serve_effect p h tokens q).granted isLogin
    exact (refusal_signedToken proper rfl shows early).mpr (alike tokens q _ _ isLogin)

/-- Two secrets that sign alike serve as one. -/
theorem oneSecret_of_signsAlike (keyed : h.authSecret ≠ []) (alike : SignsAlike p h) :
    OneSecret p h :=
  ⟨accepted_iff_signsAlike.mpr alike, fun empty => absurd empty keyed⟩

/-- With one secret for both sides, the secret is not empty. -/
theorem OneSecret.keyed (one : OneSecret p h) : h.authSecret ≠ [] := by
  intro empty
  exact one.rejected empty _ _ (shows_showing (signedToken_ne_nil [] forgedClaims))
    (refusal_forged empty)

/-- A server uses one real secret exactly when the secret of its configuration is not empty
and signs the access tokens of logins as that of the handlers does. It does so if the
dependencies have no secret, or the same one. -/
theorem oneSecret_iff (p : Primitives) (cfg : Config) (d : Deps) :
    (OneSecret p (newHandler cfg d) ↔ cfg.secret ≠ [] ∧ SignsAlike p (newHandler cfg d)) ∧
      (d.secret = [] ∨ d.secret = cfg.secret → SignsAlike p (newHandler cfg d)) := by
  refine ⟨⟨fun one => ⟨one.keyed, accepted_iff_signsAlike.mp one.accepted⟩, ?_⟩, ?_⟩
  · rintro ⟨keyed, alike⟩
    exact oneSecret_of_signsAlike keyed alike
  · intro shared tokens q _ _ _
    have same : (newHandler cfg d).secret = (newHandler cfg d).authSecret := by
      change (if d.secret.length = 0 then cfg.secret else d.secret) = cfg.secret
      rcases shared with empty | equal
      · rw [empty, List.length_nil, if_pos rfl]
      · rw [equal, ite_self]
    rw [same]

theorem zero_inRange : -2 ^ 63 ≤ (0 : Int) ∧ (0 : Int) < 2 ^ 63 := by
  decide

/-- Lifetimes that are not set. -/
def unsetTTL : Duration :=
  ⟨0, zero_inRange⟩

/-- A server with a secret in its configuration and one in its dependencies. -/
def secretsHandler (secret depsSecret : Bytes) : Handler :=
  newHandler ⟨secret, unsetTTL, unsetTTL⟩ ⟨depsSecret, admin, ascii "pw", unsetTTL, unsetTTL⟩

/-- With two secrets the access token of a login is refused at once, and with an empty one in
the configuration a token that was signed without a secret is accepted. -/
theorem twoSecrets_refuse_login :
    (∃ accessToken refreshToken,
      (serve samplePrimitives (secretsHandler (ascii "key") (ascii "other")) (fun _ => none)
        (sampleLogin 1000)).1 = .tokens accessToken refreshToken ∧
      (showing accessToken).Shows accessToken ∧
      unix (showing accessToken).authNow.val <
        (accessClaims (secretsHandler (ascii "key") (ascii "other")) (sampleLogin 1000)).exp ∧
      refusal samplePrimitives (secretsHandler (ascii "key") (ascii "other"))
        (showing accessToken) ≠ none) ∧
    refusal samplePrimitives (secretsHandler [] (ascii "other"))
      (showing (signedToken samplePrimitives [] forgedClaims)) = none := by
  refine ⟨?_, refusal_forged rfl⟩
  have returned : (serve samplePrimitives (secretsHandler (ascii "key") (ascii "other"))
      (fun _ => none) (sampleLogin 1000)).1.issuedRefresh.isSome = true := by
    decide +kernel
  obtain ⟨refreshToken, issued⟩ := Option.isSome_iff_exists.mp returned
  obtain ⟨accessToken, isLogin⟩ := tokens_of_issuedRefresh issued
  obtain ⟨proper, positive, rfl⟩ := (serve_effect _ _ _ _).granted isLogin
  have shows := shows_showing (signedToken_ne_nil (p := samplePrimitives) (ascii "other")
    (accessClaims (secretsHandler (ascii "key") (ascii "other")) (sampleLogin 1000)))
  refine ⟨_, _, isLogin, shows, positive, ?_⟩
  intro passed
  have alike := (refusal_signedToken proper rfl shows positive).mp passed
  have differs := congrArg List.head? alike
  exact absurd differs (by decide)

/-- A server with a secret in its configuration only uses it throughout. -/
theorem configSecret_oneSecret : OneSecret samplePrimitives (secretsHandler (ascii "key") []) :=
  (oneSecret_iff samplePrimitives ⟨ascii "key", unsetTTL, unsetTTL⟩
    ⟨[], admin, ascii "pw", unsetTTL, unsetTTL⟩).1.mpr
      ⟨by decide, (oneSecret_iff _ _ _).2 (.inl rfl)⟩

end P2pMesh.Api

import P2pMesh.Api.Logout
import Mathlib.Data.List.Nodup

/-! # Sessions

The handler chain along any sequence of requests, with the session that each login opened
and the sessions that were logged out of. A session has no name but its refresh token, and
that is a function of the times of the login: two logins in one second share it, and
logging out of one ends the other. If no two logins have the same times, every session
can be refreshed until it expires or is logged out of (`P2pMesh.Api.usable_of_apart`).
-/

namespace P2pMesh.Api

open Foundation

/-- The refresh token that a login returned, and what the handler's clock read. -/
structure Session where
  refreshToken : Bytes
  issuedAt : Instant

/-- The store, the last reading of its clock, the sessions in the order of their logins,
and the places of those that were logged out of. -/
structure Sessions where
  tokens : TokenStore
  now : Instant
  sessions : List Session
  ended : List Nat

/-- No session has been opened. -/
def newSessions (tokens : TokenStore) (now : Instant) : Sessions :=
  ⟨tokens, now, [], []⟩

/-- The refresh tokens of all sessions. -/
def Sessions.refreshTokens (s : Sessions) : List Bytes :=
  s.sessions.map Session.refreshToken

/-- A request, and the session that it logs out of. -/
structure Turn where
  request : Request
  leaves : Option Nat

/-- The session that a response opens. -/
def Response.opens (r : Response) (q : Request) : Option Session :=
  r.issuedRefresh.map fun token => ⟨token, q.handlerNow⟩

section

variable (p : Primitives) (h : Handler)

/-- A session is left by a logout with its refresh token, and a logout with the refresh
token of a session leaves one. -/
structure Turn.Fits (s : Sessions) (t : Turn) : Prop where
  carried : ∀ place, t.leaves = some place → ∃ token, s.refreshTokens[place]? = some token ∧
    (serve p h s.tokens t.request).1.ends t.request.carried = some token
  left : ∀ token ∈ s.refreshTokens,
    (serve p h s.tokens t.request).1.ends t.request.carried = some token → t.leaves ≠ none

/-- A turn may open a session and may end one. -/
def Sessions.step (s : Sessions) (t : Turn) : Sessions :=
  let served := serve p h s.tokens t.request
  ⟨served.2, t.request.storeNow, s.sessions ++ (served.1.opens t.request).toList,
    t.leaves.toList ++ s.ended⟩

/-- A turn as a step. -/
def Sessions.Step (before : Sessions) (t : Turn) (after : Sessions) : Prop :=
  t.Fits p h before ∧ before.step p h t = after

/-- The claims of a session's refresh token. -/
def Session.claims (x : Session) : Claims :=
  claimsFor h.adminUser admin x.issuedAt h.refreshTTL refresh

/-- The request comes after all others, and its readings of the clock are in order. -/
structure Sessions.Followed (s : Sessions) (q : Request) : Prop where
  since : s.now.val ≤ q.storeNow.val
  checked : q.storeNow.val ≤ q.handlerNow.val
  issued : q.handlerNow.val ≤ q.issueNow.val

/-- Every refresh with the token of the session is answered with an access token until
the session expires. -/
def Sessions.Usable (s : Sessions) (x : Session) : Prop :=
  ∀ q : Request, q.Refreshes x.refreshToken → q.limited = false → s.Followed q →
    unix q.handlerNow.val < (x.claims h).exp →
      ∃ token, (serve p h s.tokens q).1 = .access token

/-- A login at the time of the request is in the same second as that of the session, and
so are their expiries. -/
def Session.SameTimes (x : Session) (q : Request) : Prop :=
  (x.claims h).iat = (loginClaims h q).iat ∧ (x.claims h).exp = (loginClaims h q).exp

/-- The clock does not go back, no login has the times of an earlier one, and no token of
a logout has the hash of another session's token. -/
structure Sessions.Apart (s : Sessions) (t : Turn) : Prop where
  clock : s.now.val ≤ t.request.storeNow.val
  login : ∀ x, (serve p h s.tokens t.request).1.opens t.request = some x →
    x.issuedAt.val ≤ t.request.storeNow.val ∧ ∀ y ∈ s.sessions, ¬ y.SameTimes h t.request
  hashes : ∀ x ∈ s.sessions, ∀ token,
    token = t.request.bearer ∨ t.request.carried = some token →
      p.tokenHash token = p.tokenHash x.refreshToken → token = x.refreshToken

/-- What a login leaves behind. -/
structure Session.Issued (x : Session) : Prop where
  named : h.adminUser ≠ []
  issued : issueToken p h.secret (x.claims h) = .ok x.refreshToken
  accessExpires : 0 < unix (x.issuedAt.val + h.accessTTL.val)

/-- The store has the token of the session up to its expiry. -/
def Session.Kept (x : Session) (tokens : TokenStore) (now : Instant) : Prop :=
  (∃ expires, tokens (p.tokenHash x.refreshToken) = some expires ∧
    x.issuedAt.val + h.refreshTTL.val ≤ expires) ∨ x.issuedAt.val + h.refreshTTL.val < now.val

/-- The sessions have different refresh tokens, and those that were not ended are kept. -/
structure Sessions.Independent (s : Sessions) : Prop where
  issued : ∀ x ∈ s.sessions, x.Issued p h
  past : ∀ x ∈ s.sessions, x.issuedAt.val ≤ s.now.val
  distinct : s.refreshTokens.Nodup
  kept : ∀ place x, s.sessions[place]? = some x → place ∉ s.ended → x.Kept p h s.tokens s.now

end

variable {p : Primitives} {h : Handler}

theorem unix_mono {earlier later : Int} (le : earlier ≤ later) : unix earlier ≤ unix later :=
  Int.ediv_le_ediv (by decide) le

/-- The claims of an issued session are ones a token can carry. -/
theorem Session.Issued.proper {x : Session} (issued : x.Issued p h) : (x.claims h).Proper :=
  claimsFor_proper admin _ _ issued.named (Or.inr rfl)

/-- A refresh with a token that the store has is answered with an access token. -/
theorem Session.Issued.usable {x : Session} (issued : x.Issued p h) {s : Sessions}
    (past : x.issuedAt.val ≤ s.now.val) (kept : x.Kept p h s.tokens s.now) : s.Usable p h x := by
  rintro q refreshes unlimited ⟨since, checked, handled⟩ early
  have inTime : q.handlerNow.val < x.issuedAt.val + h.refreshTTL.val := by
    by_contra late
    exact Int.not_le.mpr early (unix_mono (Int.not_lt.mp late))
  rcases kept with ⟨expires, known, covers⟩ | expired
  · have current : ¬ expires < q.storeNow.val := by omega
    have valid : (s.tokens.valid p x.refreshToken q.storeNow).1 = true := by
      simp only [TokenStore.valid, known, current, ↓reduceIte]
    have verified := verifyToken_issueToken issued.proper issued.issued early
    have typed : (x.claims h).cleaned.typ = refresh := typ_cleaned issued.proper
    obtain ⟨keyed, _, _⟩ := issueToken_eq_ok issued.issued
    have positive : 0 < unix (q.issueNow.val + h.accessTTL.val) := by
      refine Int.lt_of_lt_of_le issued.accessExpires (unix_mono ?_)
      omega
    rw [serve_of_refreshes refreshes unlimited]
    simp only [handleRefresh, refreshes.2.2, valid, ↓reduceIte, exchange, verified, typed, ne_eq,
      not_true_eq_false, issueToken, claimsFor, List.length_eq_zero_iff, keyed,
      Int.not_le.mpr positive]
    exact ⟨_, rfl⟩
  · omega

/-- A login opens a session, and the store has its token from then on. -/
theorem Effect.opened {tokens : TokenStore} {q : Request} {served : Response × TokenStore}
    (effect : Effect p h tokens q served) {x : Session} (opens : served.1.opens q = some x) :
    x.Issued p h ∧ x.claims h = loginClaims h q ∧
      served.2 (p.tokenHash x.refreshToken) = some (q.storeNow.val + h.refreshTTL.val) := by
  obtain ⟨token, issued, rfl⟩ := Option.map_eq_some_iff.mp opens
  obtain ⟨accessToken, isLogin⟩ := tokens_of_issuedRefresh issued
  obtain ⟨named, accessIssued, refreshIssued, after⟩ := effect.of_tokens isLogin
  refine ⟨⟨named, refreshIssued, (issueToken_eq_ok accessIssued).2.1⟩, rfl, ?_⟩
  rw [after, TokenStore.add_apply, if_pos rfl]

/-- The bearer token of a logout is not the refresh token of a session. -/
theorem Session.Issued.ne_bearer {x : Session} (issued : x.Issued p h) {q : Request}
    (path : q.path = logoutPath) (passed : refusal p h q = none) : q.bearer ≠ x.refreshToken := by
  intro same
  obtain ⟨c, read, typed, _⟩ := readToken_of_passed (notPublic_of_logout path) passed
  rw [same] at read
  have claims := claims_of_readToken issued.proper issued.issued read
  have refreshes : c.typ = refresh := by
    rw [claims]
    exact typ_cleaned issued.proper
  rw [typed] at refreshes
  exact absurd refreshes (by decide)

/-- A request leaves the token of a session in the store, unless it is a logout that
carries the token. -/
theorem Effect.kept {tokens : TokenStore} {q : Request} {served : Response × TokenStore}
    (effect : Effect p h tokens q served) {x : Session} (issued : x.Issued p h) {now : Instant}
    (kept : x.Kept p h tokens now) (past : x.issuedAt.val ≤ now.val)
    (clock : now.val ≤ q.storeNow.val)
    (hashes : ∀ token, token = q.bearer ∨ q.carried = some token →
      p.tokenHash token = p.tokenHash x.refreshToken → token = x.refreshToken)
    (stays : served.1.ends q.carried ≠ some x.refreshToken) : x.Kept p h served.2 q.storeNow := by
  rcases kept with ⟨expires, known, covers⟩ | expired
  · cases effect with
    | unchanged r noLogin noLogout => exact Or.inl ⟨expires, known, covers⟩
    | login accessToken refreshToken named accessIssued refreshIssued =>
        have after := tokens.add_apply p refreshToken h.refreshTTL q.storeNow
          (p.tokenHash x.refreshToken)
        split at after
        · exact Or.inl ⟨_, after, by omega⟩
        · exact Or.inl ⟨expires, after.trans known, covers⟩
    | forget token expiry message found expired =>
        have after := tokens.revoke_apply p token (p.tokenHash x.refreshToken)
        split at after
        · next same =>
            -- the store's own expiry is not before that of the session
            rw [← same, known, Option.some.injEq] at found
            exact Or.inr (by omega)
        · exact Or.inl ⟨expires, after.trans known, covers⟩
    | logout path passed =>
        refine Or.inl ⟨expires, ?_, covers⟩
        rw [logout_snd_apply, if_neg, known]
        rintro (⟨_, same⟩ | ⟨token, carried, same⟩)
        · exact issued.ne_bearer path passed (hashes _ (Or.inl rfl) same.symm)
        · apply stays
          rw [logout_fst, Response.ends, if_pos rfl, carried,
            hashes token (Or.inr carried) same.symm]
  · exact Or.inr (Int.lt_of_lt_of_le expired clock)

/-- A session of the next state was open before or is opened by this request. -/
theorem Sessions.mem_step {s : Sessions} {t : Turn} {x : Session}
    (member : x ∈ (s.step p h t).sessions) :
    x ∈ s.sessions ∨ (serve p h s.tokens t.request).1.opens t.request = some x := by
  rcases List.mem_append.mp member with old | opened
  · exact Or.inl old
  · exact Or.inr (Option.mem_toList.mp opened)

/-- The sessions keep their places in the record. -/
theorem Sessions.getElem?_step {s : Sessions} {t : Turn} {place : Nat} {x : Session}
    (found : s.sessions[place]? = some x) : (s.step p h t).sessions[place]? = some x := by
  rw [Sessions.step, List.getElem?_append_left (List.getElem?_eq_some_iff.mp found).1, found]

/-- A login has the token of a session exactly when it has its times. -/
theorem Session.Issued.sameTimes_iff {x y : Session} (issued : x.Issued p h)
    (other : y.Issued p h) {q : Request} (claims : y.claims h = loginClaims h q) :
    x.SameTimes h q ↔ x.refreshToken = y.refreshToken := by
  unfold Session.SameTimes
  rw [← claims]
  constructor
  · intro same
    have sameClaims : x.claims h = y.claims h := by
      rw [Session.claims, Session.claims, claimsFor, claimsFor, Claims.mk.injEq]
      exact ⟨rfl, rfl, same.1, same.2, rfl⟩
    have again := other.issued
    rw [← sameClaims, issued.issued] at again
    exact Except.ok.inj again
  · intro same
    have again := other.issued
    rw [← same] at again
    exact times_eq_of_issueToken issued.proper other.proper issued.issued again

/-- A logout for another session carries another token. -/
theorem Sessions.Independent.stays {s : Sessions} (independent : s.Independent p h) {t : Turn}
    (fits : t.Fits p h s) {place : Nat} {x : Session} (found : s.sessions[place]? = some x)
    (other : t.leaves ≠ some place) :
    (serve p h s.tokens t.request).1.ends t.request.carried ≠ some x.refreshToken := by
  intro carried
  have here : s.refreshTokens[place]? = some x.refreshToken := by
    rw [Sessions.refreshTokens, List.getElem?_map, found, Option.map_some]
  obtain ⟨left, leaves⟩ :=
    Option.ne_none_iff_exists'.mp (fits.left _ (List.mem_of_getElem? here) carried)
  obtain ⟨token, there, ended⟩ := fits.carried left leaves
  rw [carried] at ended
  cases ended
  have inRange := (List.getElem?_eq_some_iff.mp there).1
  have same : left = place :=
    (List.getElem?_inj inRange independent.distinct).mp (there.trans here.symm)
  rw [same] at leaves
  exact other leaves

/-- A login that has other times than the sessions has another token. -/
theorem Sessions.Independent.distinct_step {s : Sessions} (independent : s.Independent p h)
    {t : Turn} (apart : s.Apart p h t) : (s.step p h t).refreshTokens.Nodup := by
  rw [Sessions.refreshTokens, Sessions.step, List.map_append]
  cases opens : (serve p h s.tokens t.request).1.opens t.request with
  | none =>
      rw [Option.toList_none, List.map_nil, List.append_nil]
      exact independent.distinct
  | some x =>
      refine List.nodup_append.mpr ⟨independent.distinct, List.nodup_singleton _, ?_⟩
      intro token member fresh isFresh same
      rw [List.mem_singleton.mp isFresh] at same
      obtain ⟨y, old, rfl⟩ := List.mem_map.mp member
      obtain ⟨issued, claims, _⟩ := (serve_effect p h s.tokens t.request).opened opens
      apply (apart.login x opens).2 y old
      exact ((independent.issued y old).sameTimes_iff issued claims).mpr same

/-- One request, apart from the other sessions, keeps the sessions independent. -/
theorem Sessions.Independent.step {s : Sessions} (independent : s.Independent p h) {t : Turn}
    (fits : t.Fits p h s) (apart : s.Apart p h t) : (s.step p h t).Independent p h := by
  have effect := serve_effect p h s.tokens t.request
  constructor
  · intro x member
    rcases Sessions.mem_step member with old | opens
    · exact independent.issued x old
    · exact (effect.opened opens).1
  · intro x member
    rcases Sessions.mem_step member with old | opens
    · exact (independent.past x old).trans apart.clock
    · exact (apart.login x opens).1
  · exact independent.distinct_step apart
  · intro place x found stays
    rw [Sessions.step, List.getElem?_append] at found
    rw [Sessions.step, List.mem_append, Option.mem_toList, not_or] at stays
    obtain ⟨other, stillOpen⟩ := stays
    split at found
    · have member := List.mem_of_getElem? found
      refine effect.kept (independent.issued x member) (independent.kept place x found stillOpen)
        (independent.past x member) apart.clock (apart.hashes x member) ?_
      exact independent.stays fits found other
    · have opens := Option.mem_toList.mp (List.mem_of_getElem? found)
      have inTime := (apart.login x opens).1
      refine Or.inl ⟨_, (effect.opened opens).2.2, ?_⟩
      omega

/-- With no session open there is nothing to keep apart. -/
theorem independent_newSessions (tokens : TokenStore) (now : Instant) :
    (newSessions tokens now).Independent p h := by
  refine ⟨?_, ?_, List.nodup_nil, ?_⟩
  · exact fun x member => absurd member List.not_mem_nil
  · exact fun x member => absurd member List.not_mem_nil
  · intro place x found
    cases found

/-- Along every sequence of requests in which no two logins have the same times, every
session that was not logged out of can be refreshed until its expiry. A login has other
times than all earlier ones exactly when its refresh token is a new one. -/
theorem usable_of_apart {tokens : TokenStore} {now : Instant} {s : Sessions}
    (reached : Reachable (Guarded (Sessions.Step p h) (Sessions.Apart p h))
      (newSessions tokens now) s) :
    (∀ place x, s.sessions[place]? = some x → place ∉ s.ended → s.Usable p h x) ∧
      ∀ q x, (serve p h s.tokens q).1.opens q = some x →
        ((∀ y ∈ s.sessions, ¬ y.SameTimes h q) ↔ x.refreshToken ∉ s.refreshTokens) := by
  have independent : s.Independent p h := by
    refine reached.invariant (Sessions.Independent p h) (independent_newSessions tokens now) ?_
    rintro before t after independent ⟨apart, fits, rfl⟩
    exact independent.step fits apart
  refine ⟨fun place x found stays => ?_, fun q x opens => ?_⟩
  · have member := List.mem_of_getElem? found
    exact (independent.issued x member).usable (independent.past x member)
      (independent.kept place x found stays)
  · obtain ⟨issued, claims, _⟩ := (serve_effect p h s.tokens q).opened opens
    have sameTimes (y : Session) (member : y ∈ s.sessions) :=
      (independent.issued y member).sameTimes_iff issued claims
    constructor
    · intro differ known
      obtain ⟨y, member, same⟩ := List.mem_map.mp known
      exact differ y member ((sameTimes y member).mpr same)
    · intro fresh y member same
      apply fresh
      rw [← (sameTimes y member).mp same]
      exact List.mem_map_of_mem member

/-- A logout with the refresh token of a session ends every session with the token. -/
theorem Sessions.refuses_of_ends {s : Sessions} {t : Turn} {token : Bytes}
    (ends : (serve p h s.tokens t.request).1.ends t.request.carried = some token) {q : Request}
    (refreshes : q.Refreshes token) : (serve p h (s.step p h t).tokens q).1.Refuses :=
  refuses_of_unknown refreshes ((serve_effect p h s.tokens t.request).removed ends)

/-- A request that fits the state is a step of it. -/
theorem Turn.Fits.step {s : Sessions} {t : Turn} (fits : t.Fits p h s) :
    Sessions.Step p h s t (s.step p h t) :=
  ⟨fits, rfl⟩

/-- A request that is no logout fits every state. -/
theorem Turn.fits_of_path (s : Sessions) {q : Request} (path : q.path ≠ logoutPath) :
    Turn.Fits p h s ⟨q, none⟩ := by
  refine ⟨nofun, fun token _ ends => ?_⟩
  exact absurd ((serve_effect p h s.tokens q).of_loggedOut (ends_eq_some ends).1).1 path

/-- A session carries the time at which the handler that opened it ran. -/
theorem issuedAt_of_opens {r : Response} {q : Request} {x : Session} (opens : r.opens q = some x) :
    x.issuedAt = q.handlerNow := by
  obtain ⟨token, _, rfl⟩ := Option.map_eq_some_iff.mp opens
  rfl

/-- Two logins, the second one in the second 1000. -/
def sampleSessions (seconds : UInt32) : Sessions :=
  ((newSessions (fun _ => none) (clock 0)).step samplePrimitives sampleHandler
    ⟨sampleLogin seconds, none⟩).step samplePrimitives sampleHandler ⟨sampleLogin 1000, none⟩

/-- The logout of the second session. -/
def sampleTurn : Turn :=
  ⟨sampleLogout, some 1⟩

theorem clock_mono {earlier later : UInt32} (le : earlier ≤ later) :
    (clock earlier).val ≤ (clock later).val := by
  have toNat := UInt32.le_iff_toNat_le.mp le
  simp only [clock]
  omega

/-- The lifetime of a session is a week. -/
theorem exp_sample {x : Session} {seconds : UInt32} (issuedAt : x.issuedAt = clock seconds) :
    (x.claims sampleHandler).exp = seconds.toNat + 604800 := by
  have ttl : sampleHandler.refreshTTL.val = 604800 * 1000000000 := rfl
  simp only [Session.claims, claimsFor, issuedAt, ttl, unix, clock]
  omega

/-- What can be refreshed, can be refreshed in the second 1002. -/
theorem Sessions.Usable.sample {s : Sessions} {x : Session}
    (usable : s.Usable samplePrimitives sampleHandler x) (last : s.now = clock 1001)
    {seconds : UInt32} (issuedAt : x.issuedAt = clock seconds) (recent : 900 ≤ seconds)
    {body : Bytes}
    (carries : (sampleRequest refreshPath [] body 1002).refreshRequest = some x.refreshToken) :
    ∃ token, (serve samplePrimitives sampleHandler s.tokens
      (sampleRequest refreshPath [] body 1002)).1 = .access token := by
  refine usable _ ⟨rfl, rfl, carries⟩ rfl ⟨?_, le_rfl, le_rfl⟩ ?_
  · rw [last]
    exact clock_mono (by decide)
  · have since := UInt32.le_iff_toNat_le.mp recent
    rw [exp_sample issuedAt]
    change unix (clock 1002).val < _
    rw [unix_clock]
    simp only [UInt32.reduceToNat] at since ⊢
    omega

/-- The sample login fits every state. -/
theorem sampleLogin_fits (s : Sessions) (seconds : UInt32) :
    Turn.Fits samplePrimitives sampleHandler s ⟨sampleLogin seconds, none⟩ :=
  Turn.fits_of_path s (by decide : loginPath ≠ logoutPath)

/-- The sample turn ends the session of the sample refresh token. -/
theorem sampleTurn_ends (s : Sessions) :
    (serve samplePrimitives sampleHandler s.tokens sampleTurn.request).1.ends
      sampleTurn.request.carried = some sampleRefresh := by
  rw [sampleTurn, Response.ends, sampleLogout_loggedOut, if_pos rfl, sampleLogout_carried]

/-- The two sample sessions were opened at the two sample times. -/
theorem issuedAt_sampleSessions {seconds : UInt32} {x : Session}
    (member : x ∈ (sampleSessions seconds).sessions) :
    x.issuedAt = clock seconds ∨ x.issuedAt = clock 1000 := by
  rcases Sessions.mem_step member with first | opens
  · rcases Sessions.mem_step first with before | opens
    · cases before
    · exact Or.inl (issuedAt_of_opens opens)
  · exact Or.inr (issuedAt_of_opens opens)

/-- The logout is for the second session, and the first one is not left. -/
theorem sampleSessions_first {seconds : UInt32} (recent : 900 ≤ seconds) {older : Bytes}
    (tokens : (sampleSessions seconds).refreshTokens = [older, sampleRefresh]) :
    sampleTurn.Fits samplePrimitives sampleHandler (sampleSessions seconds) ∧
      0 ∉ ((sampleSessions seconds).step samplePrimitives sampleHandler sampleTurn).ended ∧
      ∃ x issued, (sampleSessions seconds).sessions[0]? = some x ∧ x.refreshToken = older ∧
        x.issuedAt = clock issued ∧ 900 ≤ issued := by
  have first : (sampleSessions seconds).refreshTokens[0]? = some older := by
    rw [tokens]
    rfl
  have second : (sampleSessions seconds).refreshTokens[1]? = some sampleRefresh := by
    rw [tokens]
    rfl
  refine ⟨⟨fun place leaves => ?_, fun _ _ _ => Option.some_ne_none 1⟩, ?_, ?_⟩
  · cases leaves
    exact ⟨sampleRefresh, second, sampleTurn_ends _⟩
  · change 0 ∉ [1]
    decide
  · rw [Sessions.refreshTokens, List.getElem?_map] at first
    obtain ⟨x, found, token⟩ := Option.map_eq_some_iff.mp first
    rcases issuedAt_sampleSessions (List.mem_of_getElem? found) with issuedAt | issuedAt
    · exact ⟨x, seconds, found, token, issuedAt, recent⟩
    · exact ⟨x, 1000, found, token, issuedAt, by decide⟩

/-- Two logins in one second: logging out of the second session ends the first. -/
theorem sameSecondLogins_dependent :
    let s := (sampleSessions 1000).step samplePrimitives sampleHandler sampleTurn
    Reachable (Sessions.Step samplePrimitives sampleHandler)
        (newSessions (fun _ => none) (clock 0)) s ∧
      ∃ x, s.sessions[0]? = some x ∧ 0 ∉ s.ended ∧ ¬ s.Usable samplePrimitives sampleHandler x := by
  have shared : (sampleSessions 1000).refreshTokens = [sampleRefresh, sampleRefresh] := by
    decide +kernel
  obtain ⟨fits, stays, x, issued, found, token, issuedAt, recent⟩ :=
    sampleSessions_first (by decide) shared
  have carries : (sampleRequest refreshPath [] (refreshBody sampleRefresh) 1002).refreshRequest =
      some x.refreshToken := by
    rw [token]
    exact refreshRequest_refreshBody sampleRefresh_plain _ _ _
  have ends := sampleTurn_ends (sampleSessions 1000)
  rw [← token] at ends
  refine ⟨?_, x, Sessions.getElem?_step found, stays, fun usable => ?_⟩
  · exact (((Reachable.refl _).tail (sampleLogin_fits _ 1000).step).tail
      (sampleLogin_fits _ 1000).step).tail fits.step
  · obtain ⟨granted, isGranted⟩ := usable.sample rfl issuedAt recent carries
    obtain ⟨status, code, message, refused⟩ := Sessions.refuses_of_ends ends ⟨rfl, rfl, carries⟩
    rw [isGranted] at refused
    cases refused

/-- The refresh token of a login in the second 900. -/
def olderRefresh : Bytes :=
  (serve samplePrimitives sampleHandler (fun _ => none) (sampleLogin 900)).1.issuedRefresh.getD []

/-- A request in another second than all logins. -/
theorem sampleRequest_apart {s : Sessions} {path authorization body : Bytes} {seconds : UInt32}
    {leaves : Option Nat} (since : s.now.val ≤ (clock seconds).val)
    (differ : ∀ x ∈ s.sessions, unix x.issuedAt.val ≠ seconds.toNat) :
    s.Apart samplePrimitives sampleHandler
      ⟨sampleRequest path authorization body seconds, leaves⟩ := by
  refine ⟨since, fun x opens => ⟨?_, ?_⟩, fun _ _ _ _ sameHash => sameHash⟩
  · rw [issuedAt_of_opens opens]
    exact le_rfl
  · intro y member same
    exact differ y member (same.1.trans (unix_clock seconds))

/-- The sample state with two sessions is reached by two logins. -/
theorem sampleSessions_reached :
    Reachable (Guarded (Sessions.Step samplePrimitives sampleHandler)
        (Sessions.Apart samplePrimitives sampleHandler))
      (newSessions (fun _ => none) (clock 0)) (sampleSessions 900) := by
  have first : (newSessions (fun _ => none) (clock 0)).Apart samplePrimitives sampleHandler
      ⟨sampleLogin 900, none⟩ :=
    sampleRequest_apart (clock_mono (by decide)) fun x member => absurd member List.not_mem_nil
  have second : ((newSessions (fun _ => none) (clock 0)).step samplePrimitives sampleHandler
      ⟨sampleLogin 900, none⟩).Apart samplePrimitives sampleHandler ⟨sampleLogin 1000, none⟩ := by
    refine sampleRequest_apart (clock_mono (by decide)) fun x member => ?_
    rcases Sessions.mem_step member with before | opens
    · cases before
    · rw [issuedAt_of_opens opens]
      change unix (clock 900).val ≠ _
      rw [unix_clock]
      decide
  exact ((Reachable.refl _).guardedTail (sampleLogin_fits _ 900).step first).guardedTail
    (sampleLogin_fits _ 1000).step second

/-- Logins in the seconds 900 and 1000, and a logout of the second session: the first one
can be refreshed. -/
theorem otherSession_refreshed :
    ∃ token, (serve samplePrimitives sampleHandler
      ((sampleSessions 900).step samplePrimitives sampleHandler sampleTurn).tokens
      (sampleRequest refreshPath [] (refreshBody olderRefresh) 1002)).1 = .access token := by
  have tokens : (sampleSessions 900).refreshTokens = [olderRefresh, sampleRefresh] := by
    decide +kernel
  have plain : Json.isPlain olderRefresh = true := by decide +kernel
  obtain ⟨fits, stays, x, issued, found, token, issuedAt, recent⟩ :=
    sampleSessions_first (by decide) tokens
  have apart : (sampleSessions 900).Apart samplePrimitives sampleHandler sampleTurn := by
    refine sampleRequest_apart (clock_mono (by decide)) fun x member => ?_
    rcases issuedAt_sampleSessions member with same | same
    · rw [same, unix_clock]
      decide
    · rw [same, unix_clock]
      decide
  have usable := (usable_of_apart (sampleSessions_reached.guardedTail fits.step apart)).1 0 x
    (Sessions.getElem?_step found) stays
  apply usable.sample rfl issuedAt recent
  rw [token]
  exact refreshRequest_refreshBody plain _ _ _

end P2pMesh.Api

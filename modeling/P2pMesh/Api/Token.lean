import P2pMesh.Foundation.Base64
import P2pMesh.Foundation.Json

/-! # Tokens of the management API

`IssueToken` and `VerifyToken` of `internal/api/jwt.go`. The keyed hash is a parameter;
base64 and JSON are not. A token is read back as the claims it was issued for
(`P2pMesh.Api.readToken_issueToken`), whatever secret it is checked with if it passes
the check.
-/

namespace P2pMesh.Api

open Foundation

/-- HMAC-SHA-256, the hexadecimal SHA-256 of a token, and the comparison of a password
with a bcrypt hash. -/
structure Primitives where
  hmacSHA256 (secret message : Bytes) : Bytes
  tokenHash (token : Bytes) : Bytes
  checkPassHash (hash password : Bytes) : Bool

/-- The claims of a token. -/
structure Claims where
  sub : Bytes
  role : Bytes
  iat : Int
  exp : Int
  typ : Bytes
deriving DecidableEq

/-- What a token is refused for. -/
inductive TokenError where
  | emptySecret
  | noExpiry
  | malformed
  | signature
  | malformedBody
  | malformedClaims
  | noSubject
  | noType
  | expired
deriving DecidableEq

/-- The texts of the errors. -/
def TokenError.text : TokenError → String
  | .emptySecret => "api: empty JWT secret"
  | .noExpiry => "api: token must carry an expiry"
  | .malformed => "api: malformed token"
  | .signature => "api: invalid token signature"
  | .malformedBody => "api: malformed token body"
  | .malformedClaims => "api: malformed token claims"
  | .noSubject => "api: token has no subject"
  | .noType => "api: token has no type"
  | .expired => "api: token expired"

/-- The type of an access token. -/
def access : Bytes := ascii "access"

/-- The type of a refresh token. -/
def refresh : Bytes := ascii "refresh"

/-- `Time.Unix`, of a time in nanoseconds since the epoch. -/
def unix (time : Int) : Int :=
  time / 1000000000

/-- `json.Marshal` of claims. -/
def marshalClaims (c : Claims) : Bytes :=
  encodeRunes (Json.writeObject [(ascii "sub", Json.quote c.sub), (ascii "role", Json.quote c.role),
    (ascii "iat", Json.decimal c.iat), (ascii "exp", Json.decimal c.exp),
    (ascii "typ", Json.quote c.typ)])

/-- The fields of claims by their folded names. -/
def claimsField (name : List Char) : Option (Claims → Json.Value → Option Claims) :=
  if name = ['S', 'U', 'B'] then
    some fun c v => (v.setString c.sub).map fun sub => { c with sub := sub }
  else if name = ['R', 'O', 'L', 'E'] then
    some fun c v => (v.setString c.role).map fun role => { c with role := role }
  else if name = ['I', 'A', 'T'] then
    some fun c v => (v.setInt64 c.iat).map fun iat => { c with iat := iat }
  else if name = ['E', 'X', 'P'] then
    some fun c v => (v.setInt64 c.exp).map fun exp => { c with exp := exp }
  else if name = ['T', 'Y', 'P'] then
    some fun c v => (v.setString c.typ).map fun typ => { c with typ := typ }
  else none

/-- `json.Unmarshal` into claims; `none` when it returns an error. -/
def unmarshalClaims (body : Bytes) : Option Claims :=
  (Json.readText body).bind (Json.Value.record claimsField ⟨[], [], 0, 0, []⟩)

/-- The header of every token. -/
def jwtHeader : Bytes :=
  ascii "\x7b\"alg\":\"HS256\",\"typ\":\"JWT\"\x7d"

/-- The part of a token that is signed. -/
def signedPart (c : Claims) : Bytes :=
  Base64.encode jwtHeader ++ [dot] ++ Base64.encode (marshalClaims c)

/-- `IssueToken`. -/
def issueToken (p : Primitives) (secret : Bytes) (c : Claims) : Except TokenError Bytes :=
  if secret.length = 0 then .error .emptySecret
  else if c.exp ≤ 0 then .error .noExpiry
  else .ok (signedPart c ++ [dot] ++ Base64.encode (p.hmacSHA256 secret (signedPart c)))

/-- The claims of a token that has been found authentic. -/
def readClaims (body : Bytes) : Except TokenError Claims :=
  match Base64.decode body with
  | none => .error .malformedBody
  | some body =>
      match unmarshalClaims body with
      | none => .error .malformedClaims
      | some c =>
          if c.sub = [] then .error .noSubject
          else if c.typ ≠ access ∧ c.typ ≠ refresh then .error .noType
          else .ok c

/-- `VerifyToken` up to the expiry. -/
def readToken (p : Primitives) (secret token : Bytes) : Except TokenError Claims :=
  match token.splitOn dot with
  | [header, body, signature] =>
      if Base64.decode signature = some (p.hmacSHA256 secret (header ++ [dot] ++ body)) then
        readClaims body
      else .error .signature
  | _ => .error .malformed

/-- `VerifyToken` at a time. -/
def verifyToken (p : Primitives) (secret token : Bytes) (now : Int) : Except TokenError Claims :=
  match readToken p secret token with
  | .error err => .error err
  | .ok c => if c.exp ≠ 0 ∧ c.exp ≤ unix now then .error .expired else .ok c

/-- The claims as they are read back: names that are not UTF-8 were written with
replacement characters. -/
def Claims.cleaned (c : Claims) : Claims :=
  { c with
    sub := encodeRunes (Json.clean c.sub)
    role := encodeRunes (Json.clean c.role)
    typ := encodeRunes (Json.clean c.typ) }

/-- The times fit into 64 bits, there is a subject, and the type is one of the two. -/
structure Claims.Proper (c : Claims) : Prop where
  iat : -2 ^ 63 ≤ c.iat ∧ c.iat < 2 ^ 63
  exp : -2 ^ 63 ≤ c.exp ∧ c.exp < 2 ^ 63
  sub : c.sub ≠ []
  typ : c.typ = access ∨ c.typ = refresh

/-- Claims survive their JSON form, up to the bytes that JSON replaces in a text. -/
theorem unmarshalClaims_marshalClaims {c : Claims} (proper : c.Proper) :
    unmarshalClaims (marshalClaims c) = some c.cleaned := by
  have read := Json.readText_writeObject
    [⟨ascii "sub", _, _, Json.reads_quote c.sub⟩, ⟨ascii "role", _, _, Json.reads_quote c.role⟩,
      ⟨ascii "iat", _, _, Json.reads_decimal c.iat⟩, ⟨ascii "exp", _, _, Json.reads_decimal c.exp⟩,
      ⟨ascii "typ", _, _, Json.reads_quote c.typ⟩] (List.cons_ne_nil _ _)
  have names : (Json.clean (ascii "sub")).map Json.foldRune = ['S', 'U', 'B'] ∧
      (Json.clean (ascii "role")).map Json.foldRune = ['R', 'O', 'L', 'E'] ∧
      (Json.clean (ascii "iat")).map Json.foldRune = ['I', 'A', 'T'] ∧
      (Json.clean (ascii "exp")).map Json.foldRune = ['E', 'X', 'P'] ∧
      (Json.clean (ascii "typ")).map Json.foldRune = ['T', 'Y', 'P'] := by
    decide
  obtain ⟨sub, role, iat, exp, typ⟩ := names
  have iatValue := Json.parseInt64_decimal proper.iat.1 proper.iat.2
  have expValue := Json.parseInt64_decimal proper.exp.1 proper.exp.2
  simp only [List.map_cons, List.map_nil, Json.Member.written, Json.Member.read] at read
  rw [unmarshalClaims, marshalClaims, read, Option.bind_some, Json.Value.record]
  simp only [Json.setMembers, Json.setMember_eq claimsField sub rfl,
    Json.setMember_eq claimsField role rfl, Json.setMember_eq claimsField iat rfl,
    Json.setMember_eq claimsField exp rfl, Json.setMember_eq claimsField typ rfl,
    Json.Value.setString, Json.Value.setInt64, iatValue, expValue, Option.map_some,
    Option.bind_some]
  rfl

/-- The type of a proper token has nothing for JSON to replace. -/
theorem typ_cleaned {c : Claims} (proper : c.Proper) : c.cleaned.typ = c.typ := by
  apply Json.encodeRunes_clean
  rcases proper.typ with same | same
  · rw [same]
    decide
  · rw [same]
    decide

/-- The payload of a written token is read back as its claims. -/
theorem readClaims_marshalClaims {c : Claims} (proper : c.Proper) :
    readClaims (Base64.encode (marshalClaims c)) = .ok c.cleaned := by
  have subject : c.cleaned.sub ≠ [] := Json.encodeRunes_clean_ne_nil proper.sub
  have typed : ¬ (c.cleaned.typ ≠ access ∧ c.cleaned.typ ≠ refresh) := by
    rw [typ_cleaned proper]
    rcases proper.typ with same | same
    · exact fun other => other.1 same
    · exact fun other => other.2 same
  simp only [readClaims, Base64.decode_encode, unmarshalClaims_marshalClaims proper, subject, typed,
    ↓reduceIte]

/-- A token is issued only under a secret and with an expiry, and is the signed part with its
signature. -/
theorem issueToken_eq_ok {p : Primitives} {secret token : Bytes} {c : Claims}
    (issued : issueToken p secret c = .ok token) :
    secret ≠ [] ∧ 0 < c.exp ∧
      token = signedPart c ++ [dot] ++ Base64.encode (p.hmacSHA256 secret (signedPart c)) := by
  unfold issueToken at issued
  split at issued
  · cases issued
  next nonempty =>
    split at issued
    · cases issued
    next positive =>
      cases issued
      refine ⟨?_, Int.not_le.mp positive, rfl⟩
      intro empty
      exact nonempty (congrArg List.length empty)

/-- The parts of an issued token. -/
theorem splitOn_signedPart (c : Claims) (signature : Bytes) :
    (signedPart c ++ [dot] ++ Base64.encode signature).splitOn dot =
      [Base64.encode jwtHeader, Base64.encode (marshalClaims c), Base64.encode signature] := by
  have undotted (bytes : Bytes) : dot ∉ Base64.encode bytes := Base64.not_mem_encode rfl bytes
  have joined : signedPart c ++ [dot] ++ Base64.encode signature = [dot].intercalate
      [Base64.encode jwtHeader, Base64.encode (marshalClaims c), Base64.encode signature] := by
    simp [signedPart, List.intercalate, List.intersperse]
  rw [joined]
  apply List.splitOn_intercalate
  · simp only [List.mem_cons, List.not_mem_nil, or_false, forall_eq_or_imp, forall_eq]
    exact ⟨undotted _, undotted _, undotted _⟩
  · exact List.cons_ne_nil _ _

/-- A token is read back as the claims it was issued for. -/
theorem readToken_issueToken {p : Primitives} {secret token : Bytes} {c : Claims}
    (proper : c.Proper) (issued : issueToken p secret c = .ok token) :
    readToken p secret token = .ok c.cleaned := by
  obtain ⟨_, _, rfl⟩ := issueToken_eq_ok issued
  unfold readToken
  rw [splitOn_signedPart]
  simp only [Base64.decode_encode, signedPart, ↓reduceIte]
  exact readClaims_marshalClaims proper

/-- Whatever secret an issued token passes the check with, its claims are those it was
issued for. -/
theorem claims_of_readToken {p : Primitives} {secret other token : Bytes} {c read : Claims}
    (proper : c.Proper) (issued : issueToken p secret c = .ok token)
    (passed : readToken p other token = .ok read) : read = c.cleaned := by
  obtain ⟨_, _, rfl⟩ := issueToken_eq_ok issued
  unfold readToken at passed
  rw [splitOn_signedPart] at passed
  simp only at passed
  split at passed
  · rw [readClaims_marshalClaims proper] at passed
    exact (Except.ok.inj passed).symm
  · cases passed

/-- Tokens that were issued for different times differ. -/
theorem times_eq_of_issueToken {p : Primitives} {secret token : Bytes} {c other : Claims}
    (proper : c.Proper) (otherProper : other.Proper) (issued : issueToken p secret c = .ok token)
    (again : issueToken p secret other = .ok token) : c.iat = other.iat ∧ c.exp = other.exp := by
  have read := readToken_issueToken proper issued
  rw [readToken_issueToken otherProper again] at read
  have same : other.cleaned = c.cleaned := Except.ok.inj read
  exact ⟨(congrArg Claims.iat same).symm, (congrArg Claims.exp same).symm⟩

/-- An issued token is accepted before its expiry. -/
theorem verifyToken_issueToken {p : Primitives} {secret token : Bytes} {c : Claims}
    (proper : c.Proper) (issued : issueToken p secret c = .ok token) {now : Int}
    (early : unix now < c.exp) : verifyToken p secret token now = .ok c.cleaned := by
  have fresh : ¬ (c.cleaned.exp ≠ 0 ∧ c.cleaned.exp ≤ unix now) :=
    fun expired => Int.not_le.mpr early expired.2
  simp only [verifyToken, readToken_issueToken proper issued, fresh, ↓reduceIte]

end P2pMesh.Api

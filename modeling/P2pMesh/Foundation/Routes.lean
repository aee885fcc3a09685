import P2pMesh.Foundation.Hex

/-! # Routes of an HTTP server

How `http.ServeMux` finds the handler of a request. The path of a request is cut at its slashes
before the percent escapes are decoded, so a decoded segment may have a slash in it. A path that
is not clean is redirected, unless the method is `CONNECT`; a pattern for `GET` is one for `HEAD`
as well. No two of the routes match the same path with the same method.

The decoded path of a request that is served by a route is that of the route, with the values of
its wildcards filled in (`Foundation.Routes.urlPath_of_found`).
-/

namespace Foundation.Routes

/-- The byte before a segment of a path. -/
def slash : UInt8 := 47

/-- The byte before an escaped byte. -/
def percent : UInt8 := 37

/-- `url.PathUnescape`, where a percent sign without two digits stands for itself. -/
def unescape : Bytes → Bytes
  | c :: hi :: lo :: rest =>
      if c = percent then
        match Hex.pair hi lo with
        | .ok byte => byte :: unescape rest
        | .error _ => c :: unescape (hi :: lo :: rest)
      else c :: unescape (hi :: lo :: rest)
  | short => short

/-- The path with the given segments. -/
def pathText (segments : List Bytes) : Bytes :=
  segments.flatMap fun segment => slash :: segment

/-- `URL.Path`, of the segments of the escaped path. -/
def urlPath (segments : List Bytes) : Bytes :=
  unescape (pathText segments)

/-- `cleanPath` leaves the path as it is; the empty path is cleaned to a slash. -/
def isClean (segments : List Bytes) : Bool :=
  segments ≠ [] && segments.dropLast.all (· ≠ []) &&
    segments.all fun s => s ≠ ascii "." ∧ s ≠ ascii ".."

/-- A segment of a pattern. -/
inductive Part where
  | literal (text : Bytes)
  | wildcard

/-- A pattern of `ServeMux.Handle`. -/
structure Pattern where
  /-- A pattern without a method is one for all methods. -/
  method : Option Bytes
  parts : List Part

/-- The values of the wildcards of a path that matches. A wildcard does not match a trailing
slash, nor an escaped one. -/
def matchParts : List Part → List Bytes → Option (List Bytes)
  | [], [] => some []
  | .literal text :: parts, segment :: rest =>
      if unescape segment = text then matchParts parts rest else none
  | .wildcard :: parts, segment :: rest =>
      if segment ≠ [] ∧ unescape segment ≠ [slash] then
        (matchParts parts rest).map (unescape segment :: ·)
      else none
  | _, _ => none

/-- The segments of a pattern with the given values. -/
def fill : List Part → List Bytes → List Bytes
  | [], _ => []
  | .literal text :: parts, values => text :: fill parts values
  | .wildcard :: parts, value :: values => value :: fill parts values
  | .wildcard :: _, [] => []

/-- The pattern is one for the method. -/
def Pattern.serves (pattern : Pattern) (method : Bytes) : Bool :=
  match pattern.method with
  | none => true
  | some own => own = method || (method = ascii "HEAD" && own = ascii "GET")

/-- What the multiplexer does with a request. -/
inductive Dispatch (Handler : Type*) where
  | redirect
  | found (handler : Handler) (values : List Bytes)
  | methodNotAllowed
  | notFound

variable {Handler : Type*}

/-- The handler and the values of a route that serves the request. -/
def lookup (method : Bytes) (segments : List Bytes) (route : Pattern × Handler) :
    Option (Handler × List Bytes) :=
  if route.1.serves method then (matchParts route.1.parts segments).map (route.2, ·) else none

/-- `ServeMux.findHandler`. -/
def dispatch (routes : List (Pattern × Handler)) (method : Bytes) (segments : List Bytes) :
    Dispatch Handler :=
  if method ≠ ascii "CONNECT" ∧ isClean segments = false then .redirect
  else
    match routes.findSome? (lookup method segments) with
    | some (handler, values) => .found handler values
    | none =>
        if routes.any fun route => (matchParts route.1.parts segments).isSome then
          .methodNotAllowed
        else .notFound

theorem unescape_cons {c : UInt8} (plain : c ≠ percent) (rest : Bytes) :
    unescape (c :: rest) = c :: unescape rest := by
  match rest with
  | [] => rfl
  | [_] => rfl
  | _ :: _ :: _ => rw [unescape, if_neg plain]

/-- An escape is read as its byte. -/
theorem unescape_escape {hi lo byte : UInt8} (read : Hex.pair hi lo = .ok byte) (rest : Bytes) :
    unescape (percent :: hi :: lo :: rest) = byte :: unescape rest := by
  rw [unescape, if_pos rfl, read]

/-- A percent sign without two digits stays. -/
theorem unescape_percent {hi lo c : UInt8} (failed : Hex.pair hi lo = .error c) (rest : Bytes) :
    unescape (percent :: hi :: lo :: rest) = percent :: unescape (hi :: lo :: rest) := by
  rw [unescape, if_pos rfl, failed]

/-- A slash is no digit, so no escape goes across segments. -/
theorem pair_slash (hi : UInt8) : ∃ c, Hex.pair hi slash = .error c := by
  have none : Hex.value slash = none := by decide
  unfold Hex.pair
  cases Hex.value hi with
  | none => exact ⟨hi, rfl⟩
  | some high => exact ⟨slash, by rw [none]⟩

/-- A slash is no digit, so no escape goes beyond it. -/
theorem unescape_slash (before after : Bytes) :
    unescape (before ++ slash :: after) = unescape before ++ slash :: unescape after := by
  have plain : slash ≠ percent := by decide
  induction size : before.length using Nat.strong_induction_on generalizing before with
  | _ n ih =>
  match before with
  | [] => exact unescape_cons plain after
  | c :: rest =>
      have tail := ih rest.length (by rw [← size]; exact Nat.lt_succ_self _) rest rfl
      by_cases escape : c = percent
      · subst escape
        match rest with
        | [] =>
            -- the escape would have to begin with the slash
            match after with
            | [] => rfl
            | lo :: more =>
                have failed : Hex.pair slash lo = .error slash := rfl
                exact (unescape_percent failed more).trans (congrArg _ tail)
        | [hi] =>
            obtain ⟨c, failed⟩ := pair_slash hi
            exact (unescape_percent failed after).trans (congrArg _ tail)
        | hi :: lo :: more =>
            cases outcome : Hex.pair hi lo with
            | error c =>
                rw [unescape_percent outcome]
                exact (unescape_percent outcome _).trans (congrArg _ tail)
            | ok byte =>
                have shorter := ih more.length
                  (by rw [← size]; simp only [List.length_cons]; omega) more rfl
                rw [unescape_escape outcome]
                exact (unescape_escape outcome _).trans (congrArg _ shorter)
      · rw [unescape_cons escape, List.cons_append, List.cons_append, ← tail]
        exact unescape_cons escape _

/-- The path is decoded segment by segment. -/
theorem urlPath_eq (segments : List Bytes) :
    urlPath segments = pathText (segments.map unescape) := by
  have cut (before : Bytes) (segments : List Bytes) :
      unescape (before ++ pathText segments) =
        unescape before ++ pathText (segments.map unescape) := by
    induction segments generalizing before with
    | nil => simp [pathText]
    | cons segment rest ih =>
        rw [pathText, List.flatMap_cons, ← pathText, List.cons_append, unescape_slash, ih]
        rfl
  exact cut [] segments

/-- The segments that match a pattern are those of the pattern with the values filled in. -/
theorem map_unescape_of_match {parts : List Part} {segments values : List Bytes}
    (matched : matchParts parts segments = some values) :
    segments.map unescape = fill parts values := by
  induction parts generalizing segments values with
  | nil =>
      cases segments with
      | nil => rfl
      | cons segment rest => cases matched
  | cons part parts ih =>
      cases segments with
      | nil => cases part <;> cases matched
      | cons segment rest =>
          cases part with
          | literal text =>
              rw [matchParts] at matched
              split at matched
              next same => rw [List.map_cons, same, fill, ih matched]
              · cases matched
          | wildcard =>
              rw [matchParts] at matched
              split at matched
              · obtain ⟨more, found, rfl⟩ := Option.map_eq_some_iff.mp matched
                rw [List.map_cons, fill, ih found]
              · cases matched

/-- The route that serves a request. -/
theorem exists_route_of_found {routes : List (Pattern × Handler)} {method : Bytes}
    {segments values : List Bytes} {handler : Handler}
    (found : dispatch routes method segments = .found handler values) :
    ∃ pattern, (pattern, handler) ∈ routes ∧ pattern.serves method = true ∧
      matchParts pattern.parts segments = some values := by
  unfold dispatch at found
  split at found
  · cases found
  · split at found
    next chosen values' isFirst =>
      cases found
      obtain ⟨route, member, looked⟩ := List.exists_of_findSome?_eq_some isFirst
      unfold lookup at looked
      split at looked
      next serves =>
        obtain ⟨_, matched, same⟩ := Option.map_eq_some_iff.mp looked
        cases same
        exact ⟨route.1, member, serves, matched⟩
      · cases looked
    · split at found
      · cases found
      · cases found

/-- The decoded path of a request that is served is that of a route with its values. -/
theorem urlPath_of_found {routes : List (Pattern × Handler)} {method : Bytes}
    {segments values : List Bytes} {handler : Handler}
    (found : dispatch routes method segments = .found handler values) :
    ∃ pattern, (pattern, handler) ∈ routes ∧ pattern.serves method = true ∧
      urlPath segments = pathText (fill pattern.parts values) := by
  obtain ⟨pattern, member, serves, matched⟩ := exists_route_of_found found
  exact ⟨pattern, member, serves, by rw [urlPath_eq, map_unescape_of_match matched]⟩

/-- The segments of a path are found again if there is no slash in them. -/
theorem pathText_injective {left right : List Bytes} (leftPlain : ∀ s ∈ left, slash ∉ s)
    (rightPlain : ∀ s ∈ right, slash ∉ s) (same : pathText left = pathText right) :
    left = right := by
  have apart {segment : Bytes} (plain : slash ∉ segment) (rest : List Bytes) :
      (segment ++ pathText rest).takeWhile (· ≠ slash) = segment ∧
        (segment ++ pathText rest).dropWhile (· ≠ slash) = pathText rest := by
    have all : ∀ c ∈ segment, decide (c ≠ slash) = true := by
      intro c member
      exact decide_eq_true fun isSlash => plain (isSlash ▸ member)
    rw [List.takeWhile_append_of_pos all, List.dropWhile_append_of_pos all]
    cases rest with
    | nil => exact ⟨List.append_nil _, rfl⟩
    | cons _ _ => exact ⟨List.append_nil _, rfl⟩
  induction left generalizing right with
  | nil =>
      cases right with
      | nil => rfl
      | cons _ _ => cases same
  | cons segment rest ih =>
      cases right with
      | nil => cases same
      | cons other others =>
          obtain ⟨leftHead, leftRest⟩ := List.forall_mem_cons.mp leftPlain
          obtain ⟨rightHead, rightRest⟩ := List.forall_mem_cons.mp rightPlain
          have tails : segment ++ pathText rest = other ++ pathText others :=
            (List.cons.injEq _ _ _ _ ▸ same).2
          have first := apart leftHead rest
          rw [tails, (apart rightHead others).1, (apart rightHead others).2] at first
          rw [← first.1, ih leftRest rightRest first.2.symm]

/-- A path is clean if its decoded segments are names. -/
theorem isClean_of_names {segments : List Bytes} (some : segments ≠ [])
    (names : ∀ s ∈ segments.map unescape, s ≠ [] ∧ s ≠ ascii "." ∧ s ≠ ascii "..") :
    isClean segments = true := by
  have name {segment : Bytes} (member : segment ∈ segments) :=
    names _ (List.mem_map_of_mem member)
  rw [isClean, decide_eq_true some, Bool.true_and]
  refine Bool.and_eq_true_iff.mpr ⟨List.all_eq_true.mpr ?_, List.all_eq_true.mpr ?_⟩
  · intro segment member
    apply decide_eq_true
    intro empty
    apply (name (List.dropLast_subset _ member)).1
    rw [empty]
    rfl
  · intro segment member
    obtain ⟨_, dot, dots⟩ := name member
    apply decide_eq_true
    refine ⟨fun isDot => dot ?_, fun isDots => dots ?_⟩
    · rw [isDot]
      rfl
    · rw [isDots]
      rfl

/-- A route without wildcards matches the segments that decode to it. -/
theorem matchParts_literals (texts segments : List Bytes) :
    matchParts (texts.map .literal) segments =
      if segments.map unescape = texts then some [] else none := by
  induction texts generalizing segments with
  | nil =>
      cases segments with
      | nil => rfl
      | cons _ _ => rfl
  | cons text texts ih =>
      cases segments with
      | nil => rfl
      | cons segment rest =>
          rw [List.map_cons, matchParts, ih, List.map_cons]
          simp only [List.cons.injEq, ite_and]

/-- A request is handed to the route that is found for its decoded segments, if these are names
without a slash. -/
theorem dispatch_of_urlPath {routes : List (Pattern × Handler)} {method : Bytes}
    {segments texts values : List Bytes} {handler : Handler} (some : texts ≠ [])
    (plain : ∀ s ∈ segments.map unescape, slash ∉ s)
    (names : ∀ s ∈ texts, slash ∉ s ∧ s ≠ [] ∧ s ≠ ascii "." ∧ s ≠ ascii "..")
    (path : urlPath segments = pathText texts)
    (first : segments.map unescape = texts →
      routes.findSome? (lookup method segments) = Option.some (handler, values)) :
    dispatch routes method segments = .found handler values := by
  rw [urlPath_eq] at path
  have decoded := pathText_injective plain (fun s member => (names s member).1) path
  have clean : isClean segments = true := by
    apply isClean_of_names
    · rintro rfl
      exact some decoded.symm
    · rw [decoded]
      exact fun s member => (names s member).2
  simp only [dispatch, clean, Bool.true_eq_false, and_false, ↓reduceIte, first decoded]

end Foundation.Routes

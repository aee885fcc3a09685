import P2pMesh.Api.RateLimit
import P2pMesh.Foundation.Routes
import P2pMesh.Foundation.Transition
import P2pMesh.Storage.Database
import P2pMesh.Storage.Listing

/-! # The management API

The routes and the handlers of `internal/api` for nodes, rooms, port rules, servers and
statistics, behind the whole chain of middleware: preflight requests, authentication, the rate
limit and the audit trail. A request carries what the clocks read while it is handled and the
errors of the database, if there are any. What a request can do is said once
(`P2pMesh.Api.serveHttp_cases`).

Along any run the database is what the writes of audited requests make of it, and each of them
came with the access token of the user in the trail (`P2pMesh.Api.changes_accounted`). The logins
that are let through from an address are bounded in every interval
(`P2pMesh.Api.logins_bounded`). On the tokens the server acts as `P2pMesh.Api.serve` does
(`P2pMesh.Api.tokens_serveHttp`).
-/

namespace P2pMesh.Api

open Foundation

/-- A request as the server reads it. -/
structure HttpRequest where
  method : Bytes
  /-- The parts of the escaped path behind its slashes. -/
  segments : List Bytes
  /-- The query parameter `nodeId`. -/
  nodeId : Bytes
  authorization : Bytes
  body : Bytes
  /-- What `clientIP` gives for the connection. -/
  clientIP : Bytes
  authNow : Instant
  storeNow : Instant
  handlerNow : Instant
  issueNow : Instant
  limitNow : Int
  auditNow : Int
  dbNow : Nat
  /-- The error of the first statement of the handler. -/
  dbErr : Option String
  /-- The error of the second statement of `statsOverview`. -/
  roomsErr : Option String

/-- `r.URL.Path`. -/
def HttpRequest.path (q : HttpRequest) : Bytes :=
  Routes.urlPath q.segments

/-- What the middleware and the handlers of `/auth` read of the request. -/
def HttpRequest.request (q : HttpRequest) (limited : Bool) : Request where
  preflight := q.method = ascii "OPTIONS"
  path := q.path
  authorization := q.authorization
  body := q.body
  limited := limited
  authNow := q.authNow
  storeNow := q.storeNow
  handlerNow := q.handlerNow
  issueNow := q.issueNow

/-- A server, as `listServers` reports it. -/
structure ServerInfo where
  id : Bytes
  addr : Bytes
  isRoot : Bool
  lastSeen : Bytes

/-- What `statsOverview` reports; a NAT type that no node has is not mentioned. -/
structure Overview where
  nodeTotal : Nat
  nodeOnline : Nat
  roomTotal : Nat
  natTypes : Bytes → Nat

/-- What the handlers and the multiplexer answer. -/
inductive Reply where
  | basic (r : Response)
  | nodes (rows : List Node)
  | node (row : Node)
  | nodeStatus (id status : Bytes)
  | deleted
  | rooms (rows : List Room)
  | members (rows : List Node)
  | rules (rows : List StoredRule)
  | rule (rule : StoredRule)
  | servers (rows : List ServerInfo)
  | overview (o : Overview)
  | redirect
  | methodNotAllowed
  | notFound

/-- The status of a response. -/
def Response.status : Response → Nat
  | .noContent => 204
  | .error status _ _ => status
  | _ => 200

/-- The status of a reply; the multiplexer redirects with a status that keeps the method. -/
def Reply.status : Reply → Nat
  | .basic r => r.status
  | .redirect => 307
  | .methodNotAllowed => 405
  | .notFound => 404
  | _ => 200

/-- The handlers that routes lead to. -/
inductive Endpoint where
  | login
  | refresh
  | logout
  | listNodes
  | nodeDetail
  | nodeStatus
  | deleteNode
  | listRooms
  | roomMembers
  | listPorts
  | addPort
  | deletePort
  | listServers
  | statsOverview
deriving DecidableEq

/-- A pattern below `/api/v1`. -/
def pattern (method : Option String) (parts : List Routes.Part) : Routes.Pattern :=
  ⟨method.map ascii, .literal (ascii "api") :: .literal (ascii "v1") :: parts⟩

/-- The routes that `Server.Handler` registers. -/
def routes : List (Routes.Pattern × Endpoint) :=
  let auth := .literal (ascii "auth")
  let nodes := .literal (ascii "nodes")
  let rooms := .literal (ascii "rooms")
  let ports := .literal (ascii "ports")
  [(pattern none [auth, .literal (ascii "login")], .login),
    (pattern none [auth, .literal (ascii "refresh")], .refresh),
    (pattern none [auth, .literal (ascii "logout")], .logout),
    (pattern (some "GET") [nodes], .listNodes),
    (pattern (some "GET") [nodes, .wildcard], .nodeDetail),
    (pattern (some "PUT") [nodes, .wildcard, .literal (ascii "status")], .nodeStatus),
    (pattern (some "DELETE") [nodes, .wildcard], .deleteNode),
    (pattern (some "GET") [rooms], .listRooms),
    (pattern (some "GET") [rooms, .wildcard, .literal (ascii "members")], .roomMembers),
    (pattern (some "GET") [ports], .listPorts),
    (pattern (some "POST") [ports], .addPort),
    (pattern (some "DELETE") [ports, .wildcard], .deletePort),
    (pattern (some "GET") [.literal (ascii "servers")], .listServers),
    (pattern (some "GET") [.literal (ascii "stats"), .literal (ascii "overview")], .statsOverview)]

/-- Newer rooms come first. -/
def roomAge (r : Room) : Int :=
  -r.createdAt

/-- The settings of the server, the order of rows with the same time of creation, and how a
`time.Time` is read from JSON. -/
structure Management where
  handler : Handler
  limits : RateLimitMiddleware
  auditMax : Nat
  servers : Option (List ServerInfo)
  nodeOrder : Sorting Node.age
  roomOrder : Sorting roomAge
  readTime : Json.Value → Option Nat

/-- An entry of the audit log. -/
structure AuditEntry where
  at_ : Int
  user : Bytes
  method : Bytes
  path : Bytes
  status : Nat
  clientIP : Bytes
deriving DecidableEq

/-- What the requests change. -/
structure Backend where
  tokens : TokenStore
  limits : RateLimits
  audit : List AuditEntry
  db : Database

/-- `MemAuditLog.Record`. -/
def record (max : Nat) (entries : List AuditEntry) (e : AuditEntry) : List AuditEntry :=
  let all := entries ++ [e]
  if 0 < max ∧ max < all.length then all.drop (all.length - max) else all

/-- The member of a body that sets a status. -/
def statusField (name : List Char) : Option (Bytes → Json.Value → Option Bytes) :=
  if name = "STATUS".toList then some fun status v => v.setString status else none

/-- The body of `nodeStatus`; `none` when `Decode` returns an error. -/
def HttpRequest.statusRequest (q : HttpRequest) : Option Bytes :=
  (Json.readFirst q.body).bind fun read => read.1.record statusField []

/-- A boolean field of a struct. -/
def setBool (old : Bool) : Json.Value → Option Bool
  | .null => some old
  | .bool value => some value
  | _ => none

/-- The fields of `storage.PortRule` by their folded names. -/
def ruleField (readTime : Json.Value → Option Nat) (name : List Char) :
    Option (StoredRule → Json.Value → Option StoredRule) :=
  if name = "ID".toList then
    some fun r v => (v.setString r.id).map fun id => { r with id := id }
  else if name = "NODE_ID".toList then
    some fun r v => (v.setString r.nodeID).map fun nodeID => { r with nodeID := nodeID }
  else if name = "PROTOCOL".toList then
    some fun r v => (v.setString r.protocol).map fun protocol => { r with protocol := protocol }
  else if name = "LOCAL_PORT".toList then
    some fun r v => (v.setInt64 r.localPort).map fun port => { r with localPort := port }
  else if name = "VIRTUAL_PORT".toList then
    some fun r v => (v.setInt64 r.virtualPort).map fun port => { r with virtualPort := port }
  else if name = "DESCRIPTION".toList then
    some fun r v => (v.setString r.description).map fun text => { r with description := text }
  else if name = "ALLOWED_ROOMS".toList then
    some fun r v => (v.setString r.allowedRooms).map fun rooms => { r with allowedRooms := rooms }
  else if name = "ENABLED".toList then
    some fun r v => (setBool r.enabled v).map fun enabled => { r with enabled := enabled }
  else if name = "CREATED_AT".toList then
    some fun r v =>
      match v with
      | .null => some r
      | v => (readTime v).map fun time => { r with createdAt := some time }
  else none

/-- The body of `addPort`; `none` when `Decode` returns an error. -/
def HttpRequest.ruleRequest (readTime : Json.Value → Option Nat) (q : HttpRequest) :
    Option StoredRule :=
  (Json.readFirst q.body).bind fun read =>
    read.1.record (ruleField readTime) ⟨[], [], [], 0, 0, [], [], false, none⟩

/-- `statsOverview` of what was listed. -/
def overviewOf (nodes : List Node) (rooms : List Room) : Overview where
  nodeTotal := nodes.length
  nodeOnline := nodes.countP fun n => n.status = ascii "online"
  roomTotal := rooms.length
  natTypes type := if type = [] then 0 else nodes.countP fun n => n.natType = type

section Handlers

variable (m : Management) (db : Database) (q : HttpRequest)

/-- The answer when the database gave an error, and otherwise. -/
def unlessFailed (err : Option String) (reply : Reply) : Reply :=
  match err with
  | some text => .basic (internal text)
  | none => reply

/-- `ListNodes` without a filter. -/
def allNodes : List Node :=
  (db.nodes.listNodes m.nodeOrder ⟨[], [], 0, 0⟩).getD []

/-- `ListRooms`. -/
def allRooms : List Room :=
  m.roomOrder.sort db.rooms.rows

/-- `listNodes`. -/
def listNodes : Reply :=
  unlessFailed q.dbErr (.nodes (allNodes m db))

/-- `nodeDetail`. Every error of the store is answered with 404. -/
def nodeDetail (id : Bytes) : Reply :=
  match q.dbErr, db.nodes.getNode id with
  | none, some n => .node n
  | _, _ => .basic (.error 404 "NOT_FOUND" "node not found")

/-- `listRooms`. -/
def listRooms : Reply :=
  unlessFailed q.dbErr (.rooms (allRooms m db))

/-- `roomMembers`. -/
def roomMembers (id : Bytes) : Reply :=
  unlessFailed q.dbErr (.members (db.listRoomMembers id))

/-- `listPorts`. -/
def listPorts : Reply :=
  if q.nodeId = [] then .basic (badRequest "nodeId query parameter required")
  else unlessFailed q.dbErr (.rules (db.portRules.getPortRules q.nodeId))

/-- `listServers`. -/
def listServers : Reply :=
  .servers (m.servers.getD [])

/-- `statsOverview`. -/
def statsOverview : Reply :=
  unlessFailed q.dbErr
    (unlessFailed q.roomsErr (.overview (overviewOf (allNodes m db) (allRooms m db))))

/-- A handler that ends with a write: the call is made unless the database gives an error. -/
def write (call : StoreCall) (reply : Reply) : Reply × Option StoreCall :=
  (unlessFailed q.dbErr reply, if q.dbErr.isNone then some call else none)

/-- `nodeStatus`. -/
def nodeStatus (id : Bytes) : Reply × Option StoreCall :=
  match q.statusRequest with
  | none => (.basic (badRequest "malformed body"), none)
  | some status =>
      if status ≠ ascii "online" ∧ status ≠ ascii "offline" then
        (.basic (badRequest "status must be online or offline"), none)
      else write q (.updateNodeStatus id status) (.nodeStatus id status)

/-- `deleteNode`. -/
def deleteNode (id : Bytes) : Reply × Option StoreCall :=
  write q (.deleteNode id) .deleted

/-- `addPort`. -/
def addPort : Reply × Option StoreCall :=
  match q.ruleRequest m.readTime with
  | none => (.basic (badRequest "malformed body"), none)
  | some rule => write q (.setPortRule rule) (.rule rule)

/-- `deletePort`. -/
def deletePort (id : Bytes) : Reply × Option StoreCall :=
  write q (.deletePortRule id) .deleted

end Handlers

/-- What a handler answers, the tokens it leaves, and the write it makes. -/
structure Outcome where
  reply : Reply
  tokens : TokenStore
  call : Option StoreCall

section

variable (p : Primitives) (m : Management) (s : Backend) (q : HttpRequest)

/-- A handler of `/auth`. -/
def Outcome.ofAuth (answer : Response × TokenStore) : Outcome :=
  ⟨.basic answer.1, answer.2, none⟩

/-- A handler that only reads. -/
def Outcome.ofReply (reply : Reply) : Outcome :=
  ⟨reply, s.tokens, none⟩

/-- A handler that writes. -/
def Outcome.ofWrite (answer : Reply × Option StoreCall) : Outcome :=
  ⟨answer.1, s.tokens, answer.2⟩

/-- The handler of an endpoint, where `id` is the value of its wildcard. -/
def runEndpoint (id : Bytes) : Endpoint → Outcome
  | .login => .ofAuth (login p m.handler s.tokens (q.request false))
  | .refresh => .ofAuth (handleRefresh p m.handler s.tokens (q.request false))
  | .logout => .ofAuth (logout p s.tokens (q.request false))
  | .listNodes => .ofReply s (listNodes m s.db q)
  | .nodeDetail => .ofReply s (nodeDetail s.db q id)
  | .nodeStatus => .ofWrite s (nodeStatus q id)
  | .deleteNode => .ofWrite s (deleteNode q id)
  | .listRooms => .ofReply s (listRooms m s.db q)
  | .roomMembers => .ofReply s (roomMembers s.db q id)
  | .listPorts => .ofReply s (listPorts s.db q)
  | .addPort => .ofWrite s (addPort m q)
  | .deletePort => .ofWrite s (deletePort q id)
  | .listServers => .ofReply s (listServers m)
  | .statsOverview => .ofReply s (statsOverview m s.db q)

/-- The router. -/
def serveMux : Outcome :=
  match Routes.dispatch routes q.method q.segments with
  | .redirect => .ofReply s .redirect
  | .found endpoint values => runEndpoint p m s q values.headI endpoint
  | .methodNotAllowed => .ofReply s .methodNotAllowed
  | .notFound => .ofReply s .notFound

/-- The claims that `AuthMiddleware` passes on with a request. -/
def HttpRequest.claims : Option Claims :=
  if isPublicPath q.path then none
  else (verifyToken p m.handler.authSecret (q.request false).bearer q.authNow.val).toOption

/-- What the request is limited by. -/
def HttpRequest.limitKey : LimitKey :=
  Api.limitKey q.path (q.claims p m) q.clientIP

/-- The entry of `AuditMiddleware`. -/
def HttpRequest.entry (reply : Reply) : AuditEntry where
  at_ := q.auditNow
  user := ((q.claims p m).map Claims.sub).getD []
  method := q.method
  path := q.path
  status := reply.status
  clientIP := q.clientIP

/-- The database after a handler. -/
def HttpRequest.perform (db : Database) (call : Option StoreCall) : Database :=
  match call with
  | none => db
  | some call => (db.perform q.dbNow call).2

/-- The request behind authentication and the rate limit. -/
def serveAudited (limits : RateLimits) : Reply × Backend :=
  let outcome := serveMux p m s q
  (outcome.reply,
    ⟨outcome.tokens, limits, record m.auditMax s.audit (q.entry p m outcome.reply),
      q.perform s.db outcome.call⟩)

/-- `Server.Handler`. -/
def serveHttp : Reply × Backend :=
  if q.method = ascii "OPTIONS" then (.basic .noContent, s)
  else
    match refusal p m.handler (q.request false) with
    | some refused => (.basic refused, s)
    | none =>
        let answer := s.limits.allow m.limits (q.limitKey p m) q.limitNow
        if answer.1 then serveAudited p m s q answer.2
        else
          (.basic (.error 429 "RATE_LIMITED" "too many requests"), { s with limits := answer.2 })

end

/-- What a request can do. -/
inductive Served (p : Primitives) (m : Management) (s : Backend) (q : HttpRequest) :
    Reply × Backend → Prop where
  | preflight (method : q.method = ascii "OPTIONS") : Served p m s q (.basic .noContent, s)
  | refused (r : Response) (isRefused : refusal p m.handler (q.request false) = some r) :
      Served p m s q (.basic r, s)
  | limited (passed : refusal p m.handler (q.request false) = none)
      (dry : (s.limits.allow m.limits (q.limitKey p m) q.limitNow).1 = false) :
      Served p m s q (.basic (.error 429 "RATE_LIMITED" "too many requests"),
        { s with limits := (s.limits.allow m.limits (q.limitKey p m) q.limitNow).2 })
  | served (method : q.method ≠ ascii "OPTIONS")
      (passed : refusal p m.handler (q.request false) = none)
      (allowed : (s.limits.allow m.limits (q.limitKey p m) q.limitNow).1 = true) :
      Served p m s q (serveAudited p m s q
        (s.limits.allow m.limits (q.limitKey p m) q.limitNow).2)

/-- Every request is answered in one of the ways of `Served`. -/
theorem serveHttp_cases (p : Primitives) (m : Management) (s : Backend) (q : HttpRequest) :
    Served p m s q (serveHttp p m s q) := by
  unfold serveHttp
  split
  next method => exact .preflight method
  next method =>
    split
    next r isRefused => exact .refused r isRefused
    next passed =>
      simp only
      split
      next allowed => exact .served method passed allowed
      next dry => exact .limited passed (Bool.eq_false_iff.mpr dry)

/-- The first bytes of the paths of an endpoint. -/
def Endpoint.front : Endpoint → Bytes
  | .login | .refresh | .logout => ascii "/api/v1/a"
  | .listNodes | .nodeDetail | .nodeStatus | .deleteNode => ascii "/api/v1/n"
  | .listRooms | .roomMembers => ascii "/api/v1/r"
  | .listPorts | .addPort | .deletePort => ascii "/api/v1/p"
  | .listServers | .statsOverview => ascii "/api/v1/s"

/-- The first nine bytes of a path tell the group of routes that can serve it. -/
theorem take_pathText_routes : ∀ route ∈ routes, ∀ values : List Bytes,
    (Routes.pathText (Routes.fill route.1.parts values)).take 9 = route.2.front := by
  unfold routes
  simp only [List.forall_mem_cons, List.not_mem_nil, false_implies, implies_true, and_true]
  exact ⟨fun _ => rfl, fun _ => rfl, fun _ => rfl, fun _ => rfl, fun _ => rfl, fun _ => rfl,
    fun _ => rfl, fun _ => rfl, fun _ => rfl, fun _ => rfl, fun _ => rfl, fun _ => rfl,
    fun _ => rfl, fun _ => rfl⟩

/-- A path that is dispatched to an endpoint starts with the front of the endpoint's group. -/
theorem take_path_of_found {q : HttpRequest} {endpoint : Endpoint} {values : List Bytes}
    (found : Routes.dispatch routes q.method q.segments = .found endpoint values) :
    q.path.take 9 = endpoint.front := by
  obtain ⟨pattern, member, _, path⟩ := Routes.urlPath_of_found found
  rw [HttpRequest.path, path]
  exact take_pathText_routes _ member values

/-- The public paths start with `/api/v1/a`. -/
theorem take_path_of_public {path : Bytes} (isPublic : isPublicPath path = true) :
    path.take 9 = ascii "/api/v1/a" := by
  rcases Bool.or_eq_true_iff.mp isPublic with login | refresh
  · rw [of_decide_eq_true login]
    rfl
  · rw [of_decide_eq_true refresh]
    rfl

/-- The path of a handler of `/auth`. -/
def Endpoint.authPath : Endpoint → Option Bytes
  | .login => some loginPath
  | .refresh => some refreshPath
  | .logout => some logoutPath
  | _ => none

/-- A route of the authentication endpoints has one path only. -/
theorem pathText_routes_auth : ∀ route ∈ routes, ∀ values : List Bytes,
    ∀ path ∈ route.2.authPath, Routes.pathText (Routes.fill route.1.parts values) = path := by
  unfold routes
  simp only [List.forall_mem_cons, List.not_mem_nil, false_implies, implies_true, and_true,
    Endpoint.authPath, Option.mem_def, reduceCtorEq, Option.some.injEq]
  exact ⟨fun _ _ => id, fun _ _ => id, fun _ _ => id⟩

/-- The segments of a path of `/auth`. -/
def authSegments (last : String) : List Bytes :=
  [ascii "api", ascii "v1", ascii "auth", ascii last]

/-- The route of a path of `/auth`. -/
def authRoute (last : String) (endpoint : Endpoint) : Routes.Pattern × Endpoint :=
  (⟨none, (authSegments last).map .literal⟩, endpoint)

/-- Among the authentication routes a path finds the one that ends in its own last segment. -/
theorem lookup_authRoute {last : String} {method : Bytes} {segments : List Bytes}
    (decoded : segments.map Routes.unescape = authSegments last) (other : String)
    (endpoint : Endpoint) : Routes.lookup method segments (authRoute other endpoint) =
      if authSegments last = authSegments other then some (endpoint, []) else none := by
  simp only [Routes.lookup, authRoute, Routes.Pattern.serves, ↓reduceIte,
    Routes.matchParts_literals, decoded]
  split
  · rfl
  · rfl

/-- The path of a handler of `/auth` is routed to it, if there is no escaped slash in it. -/
theorem dispatch_auth {q : HttpRequest}
    (plain : ∀ s ∈ q.segments.map Routes.unescape, Routes.slash ∉ s) :
    (q.path = loginPath → Routes.dispatch routes q.method q.segments = .found .login []) ∧
      (q.path = refreshPath → Routes.dispatch routes q.method q.segments = .found .refresh []) ∧
      (q.path = logoutPath → Routes.dispatch routes q.method q.segments = .found .logout []) := by
  obtain ⟨rest, first⟩ : ∃ rest, routes = authRoute "login" .login ::
      authRoute "refresh" .refresh :: authRoute "logout" .logout :: rest := ⟨_, rfl⟩
  have found (last : String) (endpoint : Endpoint)
      (path : Routes.urlPath q.segments = Routes.pathText (authSegments last))
      (names : ∀ s ∈ authSegments last,
        Routes.slash ∉ s ∧ s ≠ [] ∧ s ≠ ascii "." ∧ s ≠ ascii "..")
      (chosen : (if authSegments last = authSegments "login" then some Endpoint.login
        else if authSegments last = authSegments "refresh" then some .refresh
        else if authSegments last = authSegments "logout" then some .logout
        else none) = some endpoint) :
      Routes.dispatch routes q.method q.segments = .found endpoint [] := by
    apply Routes.dispatch_of_urlPath (List.cons_ne_nil _ _) plain names path
    intro decoded
    rw [first, List.findSome?_cons, List.findSome?_cons, List.findSome?_cons,
      lookup_authRoute decoded, lookup_authRoute decoded, lookup_authRoute decoded]
    split at chosen
    next same =>
      cases chosen
      rw [if_pos same]
    next notLogin =>
      rw [if_neg notLogin]
      split at chosen
      next same =>
        cases chosen
        rw [if_pos same]
      next notRefresh =>
        rw [if_neg notRefresh]
        split at chosen
        next same =>
          cases chosen
          rw [if_pos same]
        · cases chosen
  exact ⟨fun path => found "login" .login path (by decide) (by decide),
    fun path => found "refresh" .refresh path (by decide) (by decide),
    fun path => found "logout" .logout path (by decide) (by decide)⟩

/-- The router hands the requests for `/auth` to their handlers, and no other one changes the
tokens. -/
theorem tokens_serveMux {p : Primitives} {m : Management} {s : Backend} {q : HttpRequest}
    (plain : ∀ s ∈ q.segments.map Routes.unescape, Routes.slash ∉ s) :
    (serveMux p m s q).tokens = (route p m.handler s.tokens (q.request false)).2 := by
  obtain ⟨isLogin, isRefresh, isLogout⟩ := dispatch_auth plain
  by_cases login : q.path = loginPath
  · have path : (q.request false).path = loginPath := login
    simp only [serveMux, isLogin login, route, path, ↓reduceIte]
    rfl
  by_cases refresh : q.path = refreshPath
  · have path : (q.request false).path = refreshPath := refresh
    have differs : refreshPath ≠ loginPath := by decide
    simp only [serveMux, isRefresh refresh, route, path, differs, ↓reduceIte]
    rfl
  by_cases logout : q.path = logoutPath
  · have path : (q.request false).path = logoutPath := logout
    have login : logoutPath ≠ loginPath := by decide
    have refresh : logoutPath ≠ refreshPath := by decide
    simp only [serveMux, isLogout logout, route, path, login, refresh, ↓reduceIte]
    rfl
  have same : (route p m.handler s.tokens (q.request false)).2 = s.tokens := by
    have path : (q.request false).path = q.path := rfl
    simp only [route, path, login, refresh, logout, ↓reduceIte]
  rw [same]
  unfold serveMux
  split
  · rfl
  next endpoint values found =>
    obtain ⟨pattern, member, _, path⟩ := Routes.urlPath_of_found found
    have own := pathText_routes_auth _ member values
    rw [← path] at own
    cases endpoint with
    | login => exact absurd (own _ rfl) login
    | refresh => exact absurd (own _ rfl) refresh
    | logout => exact absurd (own _ rfl) logout
    | _ => rfl
  · rfl
  · rfl

/-- On its tokens the server acts as `serve` does, if there is no escaped slash in the path: the
limiter decides whether the request is limited. -/
theorem tokens_serveHttp {p : Primitives} {m : Management} {s : Backend} {q : HttpRequest}
    (plain : ∀ s ∈ q.segments.map Routes.unescape, Routes.slash ∉ s) :
    (serveHttp p m s q).2.tokens = (serve p m.handler s.tokens
      (q.request !(s.limits.allow m.limits (q.limitKey p m) q.limitNow).1)).2 := by
  have preflight (limited : Bool) :
      (q.request limited).preflight = decide (q.method = ascii "OPTIONS") := rfl
  have same (limited : Bool) : refusal p m.handler (q.request limited) =
      refusal p m.handler (q.request false) := rfl
  have limit (limited : Bool) : (q.request limited).limited = limited := rfl
  have served := serveHttp_cases p m s q
  generalize serveHttp p m s q = answer at served
  unfold serve
  rw [same, preflight, limit]
  cases served with
  | preflight method => rw [if_pos (decide_eq_true method)]
  | refused r isRefused =>
      rw [isRefused]
      split
      · rfl
      · rfl
  | limited passed dry =>
      rw [passed, dry]
      split
      · rfl
      · rfl
  | served method passed allowed =>
      simp only [passed, allowed, method, decide_false, Bool.false_eq_true, ↓reduceIte,
        Bool.not_true]
      exact tokens_serveMux plain

/-- A change that reached the store is answered with the reply of the endpoint. -/
theorem write_of_isSome {q : HttpRequest} {call : StoreCall} {reply : Reply}
    (made : (write q call reply).2.isSome = true) : (write q call reply).1 = reply := by
  unfold write at made ⊢
  cases failed : q.dbErr with
  | none => rfl
  | some err =>
      rw [failed] at made
      cases made

/-- A handler that writes answers with success, and it is none of `/auth`. -/
theorem runEndpoint_of_isSome {p : Primitives} {m : Management} {s : Backend} {q : HttpRequest}
    {id : Bytes} {endpoint : Endpoint}
    (made : (runEndpoint p m s q id endpoint).call.isSome = true) :
    (runEndpoint p m s q id endpoint).reply.status = 200 ∧ endpoint.front ≠ ascii "/api/v1/a" := by
  cases endpoint with
  | nodeStatus =>
      refine ⟨?_, by decide⟩
      simp only [runEndpoint, Outcome.ofWrite, nodeStatus] at made ⊢
      split at made
      · cases made
      · split at made
        · cases made
        next status read allowed =>
          simp only [allowed, ↓reduceIte, write_of_isSome made, Reply.status]
  | deleteNode =>
      simp only [runEndpoint, Outcome.ofWrite, deleteNode] at made ⊢
      rw [write_of_isSome made]
      exact ⟨rfl, by decide⟩
  | addPort =>
      refine ⟨?_, by decide⟩
      simp only [runEndpoint, Outcome.ofWrite, addPort] at made ⊢
      split at made
      · cases made
      · simp only [write_of_isSome made, Reply.status]
  | deletePort =>
      simp only [runEndpoint, Outcome.ofWrite, deletePort] at made ⊢
      rw [write_of_isSome made]
      exact ⟨rfl, by decide⟩
  | _ => cases made

/-- A request that writes is for a path that is not public, and succeeds. -/
theorem serveMux_of_isSome {p : Primitives} {m : Management} {s : Backend} {q : HttpRequest}
    (made : (serveMux p m s q).call.isSome = true) :
    (serveMux p m s q).reply.status = 200 ∧ isPublicPath q.path = false := by
  unfold serveMux at made ⊢
  split at made
  · cases made
  next endpoint values found =>
    obtain ⟨succeeded, front⟩ := runEndpoint_of_isSome made
    refine ⟨succeeded, ?_⟩
    rw [← Bool.not_eq_true]
    intro isPublic
    exact front ((take_path_of_found found).symm.trans (take_path_of_public isPublic))
  · cases made
  · cases made

/-- The request came with an access token that was valid when it was checked, and the user of
its audit entry is the subject of the token. -/
def HttpRequest.Authorized (p : Primitives) (m : Management) (q : HttpRequest) : Prop :=
  ∃ c, verifyToken p m.handler.authSecret (q.request false).bearer q.authNow.val = .ok c ∧
    c.typ = access ∧ c.sub ≠ [] ∧ ∀ reply, (q.entry p m reply).user = c.sub

/-- An accepted token names its subject. -/
theorem sub_ne_nil_of_readToken {p : Primitives} {secret token : Bytes} {c : Claims}
    (read : readToken p secret token = .ok c) : c.sub ≠ [] := by
  unfold readToken at read
  split at read
  · split at read
    · unfold readClaims at read
      split at read
      · cases read
      · split at read
        · cases read
        · split at read
          · cases read
          next named =>
            split at read
            · cases read
            · cases read
              exact named
    · cases read
  · cases read

/-- A request for a path that is not public passes the middleware with a valid token only. -/
theorem authorized_of_passed {p : Primitives} {m : Management} {q : HttpRequest}
    (notPublic : isPublicPath q.path = false)
    (passed : refusal p m.handler (q.request false) = none) : q.Authorized p m := by
  have closed : isPublicPath (q.request false).path = false := notPublic
  simp only [refusal, closed, Bool.false_eq_true, ↓reduceIte] at passed
  split at passed
  · cases passed
  · split at passed
    · cases passed
    next c verified =>
      split at passed
      · cases passed
      next typed =>
        have named : c.sub ≠ [] := by
          unfold verifyToken at verified
          split at verified
          · cases verified
          next read =>
            split at verified
            · cases verified
            · cases verified
              exact sub_ne_nil_of_readToken read
        refine ⟨c, verified, of_not_not typed, named, fun reply => ?_⟩
        have claims : q.claims p m = some c := by
          simp only [HttpRequest.claims, notPublic, Bool.false_eq_true, ↓reduceIte]
          exact congrArg Except.toOption verified
        simp only [HttpRequest.entry, claims, Option.map_some, Option.getD_some]

/-- A run of the server: what it leaves, and the requests that were handed to the router with
what became of them. -/
structure Trail where
  backend : Backend
  done : List (HttpRequest × Outcome)

/-- A server that has just been started with a database. -/
def Trail.start (tokens : TokenStore) (db : Database) : Trail :=
  ⟨⟨tokens, newRateLimits, [], db⟩, []⟩

/-- The middleware hands the request to the router. -/
def reaches (p : Primitives) (m : Management) (s : Backend) (q : HttpRequest) : Bool :=
  q.method ≠ ascii "OPTIONS" && (refusal p m.handler (q.request false)).isNone &&
    (s.limits.allow m.limits (q.limitKey p m) q.limitNow).1

/-- A request adds what it did to the trail, if it came through to a handler. -/
def Trail.after (p : Primitives) (m : Management) (t : Trail) (q : HttpRequest) : Trail where
  backend := (serveHttp p m t.backend q).2
  done := t.done ++
    if reaches p m t.backend q then [(q, serveMux p m t.backend q)] else []

/-- The last `max` of the entries, or all if there is no bound. -/
def keepLast (max : Nat) (entries : List AuditEntry) : List AuditEntry :=
  if max = 0 then entries else entries.drop (entries.length - max)

/-- Appending to a bounded log and cutting it once is the same as cutting after every entry. -/
theorem record_keepLast (max : Nat) (entries : List AuditEntry) (e : AuditEntry) :
    record max (keepLast max entries) e = keepLast max (entries ++ [e]) := by
  unfold record keepLast
  by_cases unbounded : max = 0
  · simp only [unbounded, Nat.lt_irrefl, false_and, ↓reduceIte]
  · simp only [unbounded, ↓reduceIte, Nat.pos_of_ne_zero unbounded, true_and]
    simp only [List.length_append, List.length_drop, List.length_singleton]
    split
    next full =>
      rw [← List.drop_append_of_le_length (Nat.sub_le _ _), List.drop_drop]
      congr 1
      omega
    next free =>
      rw [← List.drop_append_of_le_length (Nat.sub_le _ _)]
      congr 1
      omega

/-- The entry of a request that was handed to the router. -/
def entryOf (p : Primitives) (m : Management) (step : HttpRequest × Outcome) : AuditEntry :=
  step.1.entry p m step.2.reply

/-- The database after the writes of some requests. -/
def replay (db : Database) (done : List (HttpRequest × Outcome)) : Database :=
  done.foldl (fun db step => step.1.perform db step.2.call) db

/-- What the requests that were handed to the router account for. -/
structure Trail.Accounted (p : Primitives) (m : Management) (db : Database) (t : Trail) :
    Prop where
  audit : t.backend.audit = keepLast m.auditMax (t.done.map (entryOf p m))
  writes : t.backend.db = replay db t.done
  authorized : ∀ step ∈ t.done, step.2.call.isSome = true →
    step.1.Authorized p m ∧ step.2.reply.status = 200

/-- The empty trail accounts for the database the server starts with. -/
theorem Trail.accounted_start (p : Primitives) (m : Management) (tokens : TokenStore)
    (db : Database) : (Trail.start tokens db).Accounted p m db := by
  refine ⟨?_, rfl, fun _ member => absurd member List.not_mem_nil⟩
  simp only [start, keepLast, List.map_nil, List.drop_nil, ite_self]

/-- One request keeps the trail and the database in step. -/
theorem Trail.Accounted.after {p : Primitives} {m : Management} {db : Database} {t : Trail}
    (accounted : t.Accounted p m db) (q : HttpRequest) : (t.after p m q).Accounted p m db := by
  -- A request that does not reach the router leaves everything as it was.
  have idle (unreached : reaches p m t.backend q = false)
      (audit : (serveHttp p m t.backend q).2.audit = t.backend.audit)
      (writes : (serveHttp p m t.backend q).2.db = t.backend.db) :
      (t.after p m q).Accounted p m db := by
    have done : (t.after p m q).done = t.done := by
      simp only [Trail.after, unreached, Bool.false_eq_true, ↓reduceIte, List.append_nil]
    refine ⟨?_, ?_, ?_⟩
    · rw [done]
      exact audit.trans accounted.audit
    · rw [done]
      exact writes.trans accounted.writes
    · rw [done]
      exact accounted.authorized
  generalize answered : serveHttp p m t.backend q = answer at idle
  have served := serveHttp_cases p m t.backend q
  rw [answered] at served
  cases served with
  | preflight method =>
      refine idle ?_ rfl rfl
      simp only [reaches, method, ne_eq, not_true_eq_false, decide_false, Bool.false_and]
  | refused r isRefused =>
      refine idle ?_ rfl rfl
      simp only [reaches, isRefused, Option.isNone_some, Bool.and_false, Bool.false_and]
  | limited passed dry =>
      refine idle ?_ rfl rfl
      simp only [reaches, dry, Bool.and_false]
  | served method passed allowed =>
      have reached : reaches p m t.backend q = true := by
        simp only [reaches, method, passed, allowed, ne_eq, not_false_eq_true, decide_true,
          Option.isNone_none, Bool.and_self]
      have done : (t.after p m q).done = t.done ++ [(q, serveMux p m t.backend q)] := by
        simp only [Trail.after, reached, ↓reduceIte]
      have backend := congrArg Prod.snd answered
      refine ⟨?_, ?_, ?_⟩
      · rw [done, List.map_append, List.map_singleton, ← record_keepLast, ← accounted.audit]
        exact congrArg Backend.audit backend
      · rw [done, replay, List.foldl_append]
        change _ = q.perform (replay db t.done) (serveMux p m t.backend q).call
        rw [← accounted.writes]
        exact congrArg Backend.db backend
      · rw [done]
        intro step member made
        rcases List.mem_append.mp member with earlier | last
        · exact accounted.authorized step earlier made
        · rw [List.mem_singleton.mp last] at made ⊢
          obtain ⟨succeeded, notPublic⟩ := serveMux_of_isSome made
          exact ⟨authorized_of_passed notPublic passed, succeeded⟩

/-- After any requests the database is the one at the start with the writes of the requests
that were handed to the router, in their order; the audit trail has the last of these requests;
and each request that wrote came with a valid access token, whose subject is the user of its
entry, and succeeded. -/
theorem changes_accounted (p : Primitives) (m : Management) (tokens : TokenStore) (db : Database)
    (requests : List HttpRequest) :
    (requests.foldl (Trail.after p m) (Trail.start tokens db)).Accounted p m db := by
  have reached := Reachable.foldl (Trail.after p m) (Trail.start tokens db) requests
  apply reached.invariant (Trail.Accounted p m db) (Trail.accounted_start p m tokens db)
  intro before q after accounted taken
  rw [← taken]
  exact accounted.after q

/-- What the limiters have let through. -/
def Trail.admitted (p : Primitives) (m : Management) (t : Trail) : List (LimitKey × Int) :=
  t.done.map fun step => (step.1.limitKey p m, step.1.limitNow)

/-- The limiters account for the requests that were handed to the router. -/
theorem Trail.accounts_after {p : Primitives} {m : Management} {t : Trail} {clock : Int}
    (accounts : t.backend.limits.Accounts m.limits (t.admitted p m) clock) {q : HttpRequest}
    (le : clock ≤ q.limitNow) :
    (t.after p m q).backend.limits.Accounts m.limits ((t.after p m q).admitted p m)
      q.limitNow := by
  have admitted : (t.after p m q).admitted p m = t.admitted p m ++
      if reaches p m t.backend q = true then [(q.limitKey p m, q.limitNow)] else [] := by
    simp only [Trail.admitted, Trail.after, List.map_append]
    split
    · rfl
    · rfl
  have next := accounts.allow le (q.limitKey p m)
  rw [RateLimits.admittedAfter] at next
  rw [admitted]
  change (serveHttp p m t.backend q).2.limits.Accounts _ _ _
  have served := serveHttp_cases p m t.backend q
  generalize serveHttp p m t.backend q = answer at served
  cases served with
  | preflight method =>
      simp only [reaches, method, ne_eq, not_true_eq_false, decide_false, Bool.false_and,
        Bool.false_eq_true, ↓reduceIte, List.append_nil]
      exact accounts.later le
  | refused r isRefused =>
      simp only [reaches, isRefused, Option.isNone_some, Bool.and_false, Bool.false_and,
        Bool.false_eq_true, ↓reduceIte, List.append_nil]
      exact accounts.later le
  | limited passed dry =>
      simp only [reaches, dry, Bool.and_false, Bool.false_eq_true, ↓reduceIte] at next ⊢
      exact next
  | served method passed allowed =>
      simp only [reaches, method, passed, allowed, ne_eq, not_false_eq_true, decide_true,
        Option.isNone_none, Bool.and_self, ↓reduceIte] at next ⊢
      exact next

/-- Over requests in the order of the limiter's clock the buckets account for all that was
admitted. -/
theorem Trail.accounts_run {p : Primitives} {m : Management} {t : Trail} {clock : Int}
    (accounts : t.backend.limits.Accounts m.limits (t.admitted p m) clock)
    {requests : List HttpRequest} (ordered : requests.Pairwise fun q r => q.limitNow ≤ r.limitNow)
    (future : ∀ q ∈ requests, clock ≤ q.limitNow) :
    ∃ now, (requests.foldl (Trail.after p m) t).backend.limits.Accounts m.limits
      ((requests.foldl (Trail.after p m) t).admitted p m) now := by
  induction requests generalizing t clock with
  | nil => exact ⟨clock, accounts⟩
  | cons q rest ih =>
      obtain ⟨first, ordered⟩ := List.pairwise_cons.mp ordered
      exact ih (Trail.accounts_after accounts (future q List.mem_cons_self)) ordered first

/-- How many logins from an address were handed to the handler in an interval. -/
def Trail.logins (t : Trail) (ip : Bytes) (t0 t1 : Int) : Nat :=
  t.done.countP fun step =>
    step.1.path = loginPath && step.1.clientIP = ip &&
      (t0 ≤ step.1.limitNow && step.1.limitNow ≤ t1)

/-- The login bucket of an address is used by the logins from that address and by nothing else. -/
theorem limitKey_eq_login {path ip other : Bytes} {claims : Option Claims} :
    limitKey path claims other = .login ip ↔ path = loginPath ∧ other = ip := by
  unfold limitKey
  by_cases login : path = loginPath
  · simp only [login, ↓reduceIte, LimitKey.login.injEq, true_and]
  · simp only [login, ↓reduceIte, false_and, iff_false]
    cases claims with
    | none => exact fun same => LimitKey.noConfusion same
    | some c => exact fun same => LimitKey.noConfusion same

/-- The logins of an address are the grants of its login bucket. -/
theorem Trail.logins_eq (p : Primitives) (m : Management) (t : Trail) (ip : Bytes)
    (t0 t1 : Int) : t.logins ip t0 t1 = grantsIn (.login ip) t0 t1 (t.admitted p m) := by
  unfold Trail.logins Trail.admitted grantsIn grantsAt
  rw [List.countP_map]
  apply List.countP_congr
  intro step _
  simp only [Function.comp_apply, Bool.and_eq_true, decide_eq_true_eq, HttpRequest.limitKey,
    limitKey_eq_login]

/-- The server hands on at most so many logins from an address in an interval as it allows in a
minute, and those that the interval earns, whatever else is requested. -/
theorem logins_bounded (p : Primitives) (m : Management) (tokens : TokenStore) (db : Database)
    {loginRatePerMin apiUserRatePerMin : Int} (set : 0 < loginRatePerMin)
    (limits : m.limits = newRateLimitMiddleware loginRatePerMin apiUserRatePerMin)
    {requests : List HttpRequest} (ordered : requests.Pairwise fun q r => q.limitNow ≤ r.limitNow)
    (ip : Bytes) {t0 t1 : Int} (interval : t0 ≤ t1) :
    (((requests.foldl (Trail.after p m) (Trail.start tokens db)).logins ip t0 t1 : Nat) : ℚ) ≤
      loginRatePerMin + TokenBucket.exactSeconds (t1 - t0) * (loginRatePerMin / 60) := by
  have accounted : ∃ now, (requests.foldl (Trail.after p m)
      (Trail.start tokens db)).backend.limits.Accounts m.limits
        ((requests.foldl (Trail.after p m) (Trail.start tokens db)).admitted p m) now := by
    cases requests with
    | nil => exact ⟨0, RateLimits.accounts_new m.limits 0⟩
    | cons q rest =>
        apply Trail.accounts_run (RateLimits.accounts_new m.limits q.limitNow) ordered
        intro r member
        rcases List.mem_cons.mp member with same | later
        · rw [same]
        · exact (List.pairwise_cons.mp ordered).1 r later
  obtain ⟨_, accounts⟩ := accounted
  have bounded := accounts.bounded (.login ip) interval
  have positive : ¬ loginRatePerMin ≤ 0 := not_le.mpr set
  have settings : m.limits.settings (.login ip) = ⟨loginRatePerMin / 60, loginRatePerMin⟩ := by
    simp only [limits, RateLimitMiddleware.settings, RateLimitMiddleware.newLimiter,
      newRateLimitMiddleware, newTokenBucketLimiter, positive, ↓reduceIte]
  rw [Trail.logins_eq p m]
  rw [settings] at bounded
  exact bounded

/-- A server that allows one login per minute. -/
def slowServer : Management where
  handler := sampleHandler
  limits := newRateLimitMiddleware 1 0
  auditMax := 0
  servers := none
  nodeOrder := .insertion Node.age
  roomOrder := .insertion roomAge
  readTime := fun _ => none

/-- A login with an empty body. -/
def emptyLogin (now : Int) : HttpRequest where
  method := ascii "POST"
  segments := authSegments "login"
  nodeId := []
  authorization := []
  body := []
  clientIP := [1]
  authNow := ⟨0, by decide⟩
  storeNow := ⟨0, by decide⟩
  handlerNow := ⟨0, by decide⟩
  issueNow := ⟨0, by decide⟩
  limitNow := now
  auditNow := now
  dbNow := 0
  dbErr := none
  roomsErr := none

/-- Of three attempts in thirty seconds at most one is handed on. -/
theorem emptyLogins_bounded :
    ([emptyLogin 0, emptyLogin 5000000000, emptyLogin 30000000000].foldl
      (Trail.after samplePrimitives slowServer)
      (Trail.start (fun _ => none) .empty)).logins [1] 0 30000000000 ≤ 1 := by
  have bounded := logins_bounded samplePrimitives slowServer (fun _ => none) .empty Int.one_pos rfl
    (by decide : [emptyLogin 0, emptyLogin 5000000000, emptyLogin 30000000000].Pairwise
      fun q r => q.limitNow ≤ r.limitNow) [1] (by decide : (0 : Int) ≤ 30000000000)
  have small : (1 : Int) + TokenBucket.exactSeconds (30000000000 - 0) * ((1 : Int) / 60) <
      (2 : ℚ) := by
    norm_num [TokenBucket.exactSeconds]
  have below := bounded.trans_lt small
  exact Nat.le_of_lt_succ (by exact_mod_cast below)

end P2pMesh.Api

import Jwtlet.Config
import Jwtlet.Http
import Jwtlet.ManagementCodec

/-!
# The management API

`management_routes` of `jwtlet-server/src/management/mod.rs`: three routers, each
with the role that its layer asks for, merged into one; the authorization in
front of every handler; and the nine handlers with the audit events they log.
`MemoryServiceAccountStore` of `jwtlet-core/src/saccount/mod.rs` says who holds
which role.

A request is one step of a machine over the store that answers with a response
and the audit events.
-/

namespace Jwtlet

open Rust

/-- The error an authorizer may end with.  The only implementation in the program answers
yes or no, yet its callers have a branch for this one, and the branch is kept. -/
inductive AuthError where
  | generalError (msg : String)
  deriving DecidableEq

/-- One account as the configuration hands it over: its client id, which is compared with
the subject of a verified token, and the roles it holds. -/
structure ServiceAccount where
  clientId : String
  roles : HashSet String

/-- `MemoryServiceAccountStore`: the roles of every account, under the account's client
id.  A client id given twice keeps the roles of its last entry. -/
structure MemoryServiceAccountStore where
  accounts : HashMap String (HashSet String)

/-- `ServiceAccountAuthorizer::authorize`: from a client id and a set of required roles,
whether the account may pass, or that the question could not be answered. -/
abbrev ServiceAccountAuthorizer := String → HashSet String → Except AuthError Bool

namespace MemoryServiceAccountStore

/-- `MemoryServiceAccountStore::from_accounts`: collect the accounts into a map, one after
the other, so that a later account replaces an earlier one of the same client id. -/
def fromAccounts (accounts : List ServiceAccount) : MemoryServiceAccountStore where
  accounts := Std.ExtTreeMap.ofList (accounts.map fun sa => (sa.clientId, sa.roles)) compare

/-- `authorize` of the store: an unknown account is refused, and a known one needs every
one of the required roles. -/
def authorize (store : MemoryServiceAccountStore) : ServiceAccountAuthorizer :=
  fun clientId requiredRoles =>
    .ok ((store.accounts[clientId]?).elim false fun roles =>
      requiredRoles.toList.all fun role => roles.contains role)

/-- The account holds the role.  An unknown account holds none, which is how `authorize`
reads a client id it does not find. -/
def holdsRole (store : MemoryServiceAccountStore) (clientId role : String) : Bool :=
  (store.accounts[clientId]?).elim false fun roles => roles.contains role

/-- Asked for one role, the store says whether the account holds it.  Every layer of the
router asks for a single role, so this is all that the router ever learns from the store.
-/
theorem authorize_singleton (store : MemoryServiceAccountStore) (clientId role : String) :
    store.authorize clientId (Std.ExtTreeSet.ofList [role] compare) =
      .ok (store.holdsRole clientId role) := by
  have hlist : (Std.ExtTreeSet.ofList [role] compare : HashSet String).toList = [role] := by
    apply List.perm_singleton.mp
    rw [List.perm_ext_iff_of_nodup (nodup_toList _) (List.nodup_singleton _)]
    intro r
    rw [Std.ExtTreeSet.mem_toList, mem_ofList]
  simp only [authorize, holdsRole, hlist, List.all_cons, List.all_nil, Bool.and_true]

end MemoryServiceAccountStore

/-- The HTTP methods that the routes of the management API tell apart.  All the others
only matter in that no route serves them. -/
inductive Method where
  | get
  | head
  | post
  | put
  | delete
  | other (name : String)
  deriving DecidableEq

/-- A request: the raw path, the bytes of its first `Authorization` header, and its body
as the extractor gets to read it.  The query string is no part of it, for no handler looks
at it. -/
structure Request where
  method : Method
  path : String
  authorization : Option (List UInt8)
  body : Except JsonRejection Json

/-- What stands in the body of a response: nothing, the text with which an extractor
refuses the request, an error message as JSON, or one of the two listings. -/
inductive ResponseBody where
  | empty
  | rejection
  | error (msg : String)
  | mappings (l : List ResourceMapping)
  | scopeMappings (l : List ScopeMapping)
  deriving DecidableEq

/-- A response, as far as the handlers decide it: the status code and the body. -/
structure Response where
  status : StatusCode
  body : ResponseBody
  deriving DecidableEq

/-- A bare status code as response, which is how most of the errors of the management API
are answered, with nothing in the body that tells them apart. -/
def StatusCode.intoResponse (status : StatusCode) : Response := { status, body := .empty }

/-- `ManagementApiError`: either the path and the body of an update name different
records, or the service refused the operation. -/
inductive ManagementApiError where
  | pathMismatch
  | resource (e : ResourceError)

/-- `IntoResponse` of the error.  Only a reserved claim and an invalid mapping are
explained in the body; an authorization failure inside the service is answered as a server
error. -/
def ManagementApiError.intoResponse : ManagementApiError → Response
  | .pathMismatch => StatusCode.badRequest.intoResponse
  | .resource (.notFound _) => StatusCode.notFound.intoResponse
  | .resource (.conflict _) => StatusCode.conflict.intoResponse
  | .resource (.reservedClaim key) =>
      { status := .badRequest
        body := .error
          ("Claim key '" ++ key ++ "' is reserved and cannot be set via scope mapping") }
  | .resource (.invalidMapping msg) => { status := .badRequest, body := .error msg }
  | .resource (.claimConflict _) => StatusCode.internalServerError.intoResponse
  | .resource (.databaseError _) => StatusCode.internalServerError.intoResponse

/-- The events that the handlers log, with the verified caller as `actor`.  There is one
for each writing handler, and none for the two listings. -/
inductive AuditEvent where
  | mappingCreated (actor clientId context : String)
  | mappingUpdated (actor clientId context : String)
  | mappingDeleted (actor clientId context : String)
  | allMappingsDeleted (actor clientId : String)
  | scopeMappingCreated (actor scope : String)
  | scopeMappingUpdated (actor scope : String)
  | scopeMappingDeleted (actor scope : String)
  deriving DecidableEq

/-- What a handler returns, logs and leaves behind.  The store is part of it even where
nothing was written, so that an answer that changes nothing says so. -/
structure Outcome (σ : Type) where
  response : Response
  events : List AuditEvent
  store : σ

/-- `Path` and `Json` as the extractors deliver them: decoded path parameters and the
body, or the refusal with which the JSON extractor answers in the handler's place. -/
structure HandlerInput where
  params : List String
  body : Except JsonRejection Json

namespace Management

section Handlers

variable {σ : Type} [ResourceStore σ]

/-- An answer that neither logs nor writes.  Both listings and every refusal before the
service is called end this way. -/
def answer (store : σ) (response : Response) : Outcome σ := { response, events := [], store }

/-- The end of a writing handler: the events and the status when the service succeeded,
its error otherwise.  The store is the service's in both cases. -/
def finish (r : Except ResourceError Unit × σ) (status : StatusCode)
    (events : List AuditEvent) : Outcome σ :=
  match r.1 with
  | .ok () => { response := status.intoResponse, events, store := r.2 }
  | .error e =>
      { response := (ManagementApiError.resource e).intoResponse, events := [], store := r.2 }

/-- Run a handler on its decoded body, or refuse the body: with the rejection of the
extractor when it is no JSON, with that of the decoder when it is JSON of another form. -/
def withJson {A : Type} (store : σ) (body : Except JsonRejection Json)
    (readBody : Json → Except JsonRejection A) (handler : A → Outcome σ) : Outcome σ :=
  match body.bind readBody with
  | .error r => answer store { status := r.status, body := .rejection }
  | .ok a => handler a

/-- `list_mappings`: all resource mappings, in the order in which the store lists them. -/
def listMappings (store : σ) : Outcome σ :=
  match ResourceService.listMappings store with
  | .ok l => answer store { status := .ok, body := .mappings l }
  | .error e => answer store (ManagementApiError.resource e).intoResponse

/-- `list_scope_mappings`: all scope mappings, in the order in which the store lists them.
-/
def listScopeMappings (store : σ) : Outcome σ :=
  match ResourceService.listScopeMappings store with
  | .ok l => answer store { status := .ok, body := .scopeMappings l }
  | .error e => answer store (ManagementApiError.resource e).intoResponse

/-- `create_mapping`: save the mapping of the body.  A record with that key is a conflict,
and nothing is logged then. -/
def createMapping (store : σ) (actor : String) (mapping : ResourceMapping) : Outcome σ :=
  finish (ResourceService.save store mapping) .created
    [.mappingCreated actor mapping.clientIdentifier mapping.participantContext]

/-- `update_mapping`: the path must name the record of the body, which is checked before
the service is asked for anything. -/
def updateMapping (store : σ) (actor clientId context : String) (mapping : ResourceMapping) :
    Outcome σ :=
  if clientId ≠ mapping.clientIdentifier ∨ context ≠ mapping.participantContext then
    answer store ManagementApiError.pathMismatch.intoResponse
  else
    finish (ResourceService.update store mapping) .noContent
      [.mappingUpdated actor mapping.clientIdentifier mapping.participantContext]

/-- `delete_mapping`: remove the mapping that the path names.  The event is logged also
when there was no such mapping. -/
def deleteMapping (store : σ) (actor clientId context : String) : Outcome σ :=
  finish (ResourceService.remove store clientId context) .noContent
    [.mappingDeleted actor clientId context]

/-- `delete_client_mappings`: remove all mappings of one client, in whatever participant
contexts they are. -/
def deleteClientMappings (store : σ) (actor clientId : String) : Outcome σ :=
  finish (ResourceService.removeFor store clientId) .noContent
    [.allMappingsDeleted actor clientId]

/-- `create_scope_mapping`: save one scope mapping or a list of them in one transaction,
with an event for each of them when it commits. -/
def createScopeMapping (store : σ) (actor : String) (payload : OneOrMany ScopeMapping) :
    Outcome σ :=
  let mappings := payload.intoVec
  finish (ResourceService.saveScopeMappings store mappings) .created
    (mappings.map fun mapping => .scopeMappingCreated actor mapping.scope)

/-- `update_scope_mapping`: the scope of the path must be the scope of the body, as in
`update_mapping`. -/
def updateScopeMapping (store : σ) (actor scope : String) (mapping : ScopeMapping) : Outcome σ :=
  if scope ≠ mapping.scope then answer store ManagementApiError.pathMismatch.intoResponse
  else
    finish (ResourceService.updateScopeMapping store mapping) .noContent
      [.scopeMappingUpdated actor mapping.scope]

/-- `delete_scope_mapping`: remove the scope mapping that the path names, and log it
whether or not it was there. -/
def deleteScopeMapping (store : σ) (actor scope : String) : Outcome σ :=
  finish (ResourceService.deleteScopeMapping store scope) .noContent
    [.scopeMappingDeleted actor scope]

end Handlers

end Management

/-- The nine handlers, by name, so that the routes can be a table that the router
searches. -/
inductive Handler where
  | listMappings
  | listScopeMappings
  | createMapping
  | updateMapping
  | deleteMapping
  | deleteClientMappings
  | createScopeMapping
  | updateScopeMapping
  | deleteScopeMapping
  deriving DecidableEq

/-- A segment of a route pattern: a fixed name, or a parameter in braces, whose name in
the source is not modelled because parameters are extracted by position. -/
inductive Segment where
  | static (name : String)
  | param
  deriving DecidableEq

/-- One method of one route: the pattern that its path has to match, the method, and the
handler that serves the two. -/
structure Endpoint where
  pattern : List Segment
  method : Method
  handler : Handler

/-- An endpoint behind the layer that asks for a role.  No route of the management API
stands outside of such a layer. -/
structure GuardedEndpoint where
  endpoint : Endpoint
  requiredRole : String

/-- `ROLE_MANAGEMENT_READ`, which the listings ask for. -/
def roleManagementRead : String := "jwtlet:management:read"

/-- `ROLE_MAPPINGS_WRITE`, for every change to resource mappings. -/
def roleMappingsWrite : String := "jwtlet:management:mappings:write"

/-- `ROLE_SCOPES_WRITE`, for every change to scope mappings. -/
def roleScopesWrite : String := "jwtlet:management:scope:write"

/-- `route_layer` with the authorization for a role: every route that the router has so
far gets the layer, and so does its answer to a method it lacks. -/
def routeLayer (role : String) (router : List Endpoint) : List GuardedEndpoint :=
  router.map fun endpoint => { endpoint, requiredRole := role }

/-- `read_router`: the two listings, each at the path where the writing routers create. -/
def readRouter : List Endpoint :=
  [{ pattern := [.static "mappings"], method := .get, handler := .listMappings },
    { pattern := [.static "scopes"], method := .get, handler := .listScopeMappings }]

/-- `mappings_write_router`: create, replace and delete resource mappings, and delete all
those of a client. -/
def mappingsWriteRouter : List Endpoint :=
  [{ pattern := [.static "mappings"], method := .post, handler := .createMapping },
    { pattern := [.static "mappings", .param, .param], method := .put, handler := .updateMapping },
    { pattern := [.static "mappings", .param, .param], method := .delete
      handler := .deleteMapping },
    { pattern := [.static "mappings", .param], method := .delete
      handler := .deleteClientMappings }]

/-- `scopes_write_router`: create, replace and delete scope mappings. -/
def scopesWriteRouter : List Endpoint :=
  [{ pattern := [.static "scopes"], method := .post, handler := .createScopeMapping },
    { pattern := [.static "scopes", .param], method := .put, handler := .updateScopeMapping },
    { pattern := [.static "scopes", .param], method := .delete, handler := .deleteScopeMapping }]

/-- `management_routes`: the three routers, merged in this order.  Two of them have routes
for `/mappings`, and two for `/scopes`. -/
def managementRoutes : List GuardedEndpoint :=
  routeLayer roleManagementRead readRouter ++
  routeLayer roleMappingsWrite mappingsWriteRouter ++
  routeLayer roleScopesWrite scopesWriteRouter

/-- The segments of a path after its leading slash.  Two slashes in a row have an empty
segment between them, and a slash at the end has one after it. -/
def pathSegments (path : String) : Option (List String) :=
  match (path.toList.splitOnP fun c => c == '/').map String.ofList with
  | "" :: segments => some segments
  | _ => none

/-- Match a pattern, and collect its parameters.  The router looks for the slash
that ends a parameter, and takes what stands before it, be it empty as in
`/mappings//b`.  At the end of the path there must be something left to take. -/
def matchPattern : List Segment → List String → Option (List String)
  | [], [] => some []
  | .static name :: pattern, segment :: segments =>
      if name = segment then matchPattern pattern segments else none
  | .param :: pattern, segment :: segments =>
      if segments = [] ∧ segment = "" then none
      else (matchPattern pattern segments).map (segment :: ·)
  | _, _ => none

/-- The parameters of a path that a route matches, still percent-encoded, in the order of
the pattern. -/
def Endpoint.matchPath (e : Endpoint) (path : String) : Option (List String) :=
  (pathSegments path).bind (matchPattern e.pattern)

/-- A `GET` route also serves `HEAD`, which is how the library completes a route that has
no handler of its own for `HEAD`. -/
def Endpoint.serves (e : Endpoint) (method : Method) : Bool :=
  e.method = method || (e.method = .get && method = .head)

/-- Where a request goes.  The answer to a method that a path does not have comes
from the fallback of its route, and `route_layer` puts the layer around that too. -/
inductive Dispatch where
  | endpoint (e : GuardedEndpoint) (params : List String)
  | methodNotAllowed (requiredRole : String)
  | notFound

/-- The router, on a request.  Where two merged routers have routes for one path,
the fallback of the later one stays. -/
def dispatch (request : Request) : Dispatch :=
  match managementRoutes.findSome? fun e =>
      if e.endpoint.serves request.method then
        (e.endpoint.matchPath request.path).map fun params => (e, params)
      else none with
  | some (e, params) => .endpoint e params
  | none =>
      match managementRoutes.reverse.find? fun e =>
          (e.endpoint.matchPath request.path).isSome with
      | some e => .methodNotAllowed e.requiredRole
      | none => .notFound

/-- What the handlers and the layers share: who may do what, how a bearer token is
verified, and the audience that it must be meant for. -/
structure ManagementState where
  authorizer : ServiceAccountAuthorizer
  verifier : JwtVerifier
  clientAudience : String
  /-- Percent-decoding of a path parameter, `none` when the result is no UTF-8. -/
  percentDecode : String → Option String

/-- The state over a fixed set of accounts, which is the only kind of authorizer that the
program ever assembles. -/
def accountState (accounts : MemoryServiceAccountStore) (verifier : JwtVerifier)
    (clientAudience : String) (percentDecode : String → Option String) : ManagementState where
  authorizer := accounts.authorize
  verifier := verifier
  clientAudience := clientAudience
  percentDecode := percentDecode

/-- `build_service_account_authorizer`: the accounts of the configuration, each with the
list of its roles turned into a set. -/
def buildServiceAccountAuthorizer (accounts : HashMap String (List String)) :
    MemoryServiceAccountStore :=
  .fromAccounts (accounts.toList.map fun account =>
    { clientId := account.1, roles := Std.ExtTreeSet.ofList account.2 compare })

/-- An account holds exactly the roles that the configuration lists for it.  The keys of
the configuration are distinct, so no account is lost on the way into the store. -/
theorem holdsRole_buildServiceAccountAuthorizer (accounts : HashMap String (List String))
    (clientId role : String) :
    (buildServiceAccountAuthorizer accounts).holdsRole clientId role = true ↔
      ∃ roles, accounts[clientId]? = some roles ∧ role ∈ roles := by
  have hlookup : (buildServiceAccountAuthorizer accounts).accounts[clientId]? =
      (accounts[clientId]?).map fun roles => Std.ExtTreeSet.ofList roles compare := by
    apply Option.ext
    intro roles
    have hnodup : ((accounts.toList.map fun account =>
        (account.1, (Std.ExtTreeSet.ofList account.2 compare : HashSet String))).map
          Prod.fst).Nodup := by
      rw [List.map_map]
      exact nodup_keys_toList accounts
    simp only [buildServiceAccountAuthorizer, MemoryServiceAccountStore.fromAccounts,
      List.map_map, Function.comp_def]
    rw [getElem?_ofList hnodup]
    simp only [List.mem_map, Prod.mk.injEq, Prod.exists, mem_toList_iff, Option.map_eq_some_iff]
    constructor
    · intro h
      obtain ⟨k, l, hl, rfl, hroles⟩ := h
      exact ⟨l, hl, hroles⟩
    · intro h
      obtain ⟨l, hl, hroles⟩ := h
      exact ⟨clientId, l, hl, rfl, hroles⟩
  rw [MemoryServiceAccountStore.holdsRole, hlookup]
  cases accounts[clientId]? with
  | none => simp
  | some roles =>
      simp only [Option.map_some, Option.elim_some, Option.some.injEq, exists_eq_left',
        Std.ExtTreeSet.contains_iff_mem, mem_ofList]

/-- `HeaderValue::to_str`: visible ASCII characters and tabs only.  Any other byte makes
the header unreadable, as if it were not there. -/
def headerToStr (bytes : List UInt8) : Option String :=
  if bytes.all fun b => b == 9 || (32 ≤ b && b < 127) then
    some (String.ofList (bytes.map fun b => Char.ofNat b.toNat))
  else none

/-- `extract_bearer_token`: what follows the scheme, which is compared without regard to
case.  Nothing is trimmed, so further blanks belong to the token. -/
def extractBearerToken (authorization : Option (List UInt8)) : Option String := do
  let value ← headerToStr (← authorization)
  if (toAsciiLowercase value).toList.take 7 = "bearer ".toList then
    some (String.ofList (value.toList.drop 7))
  else none

/-- `authorize_with_role` up to the handler: the verified caller, or the response that
ends the request.  Whatever the reason why a token does not verify, the response is the
same.  The token is verified before the role is looked at. -/
def authorizeWithRole (state : ManagementState) (requiredRole : String) (request : Request) :
    Except Response String :=
  match extractBearerToken request.authorization with
  | none => .error StatusCode.unauthorized.intoResponse
  | some token =>
      match state.verifier state.clientAudience token with
      | .error (.verificationFailed _) | .error .invalidSignature =>
          .error StatusCode.unauthorized.intoResponse
      | .error _ => .error StatusCode.unauthorized.intoResponse
      | .ok claims =>
          match state.authorizer claims.sub (Std.ExtTreeSet.ofList [requiredRole] compare) with
          | .ok true => .ok claims.sub
          | .ok false => .error StatusCode.forbidden.intoResponse
          | .error (.generalError _) => .error StatusCode.internalServerError.intoResponse

section Service

variable {σ : Type} [ResourceStore σ]

/-- Run a handler on its extracted input.  The last case stands for a number of parameters
that no route delivers to the handler. -/
def Handler.run (store : σ) (actor : String) : Handler → HandlerInput → Outcome σ
  | .listMappings, _ => Management.listMappings store
  | .listScopeMappings, _ => Management.listScopeMappings store
  | .createMapping, { body, .. } =>
      Management.withJson store body ResourceMapping.readBody
        (Management.createMapping store actor)
  | .updateMapping, { params := [clientId, context], body } =>
      Management.withJson store body ResourceMapping.readBody
        (Management.updateMapping store actor clientId context)
  | .deleteMapping, { params := [clientId, context], .. } =>
      Management.deleteMapping store actor clientId context
  | .deleteClientMappings, { params := [clientId], .. } =>
      Management.deleteClientMappings store actor clientId
  | .createScopeMapping, { body, .. } =>
      Management.withJson store body OneOrMany.readBody
        (Management.createScopeMapping store actor)
  | .updateScopeMapping, { params := [scope], body } =>
      Management.withJson store body ScopeMapping.readBody
        (Management.updateScopeMapping store actor scope)
  | .deleteScopeMapping, { params := [scope], .. } =>
      Management.deleteScopeMapping store actor scope
  -- `Path` answers a wrong number of parameters, which no route here has, with 500.
  | _, _ => Management.answer store { status := .internalServerError, body := .rejection }

/-- `HEAD` gets the response of `GET` without its body.  What was logged and what is
stored stay as the handler left them. -/
def Outcome.forMethod (o : Outcome σ) (method : Method) : Outcome σ :=
  if method = .head then { o with response := { o.response with body := .empty } } else o

/-- Handle one request: find the route, ask for the role of its layer, decode the
parameters, and run the handler.  A path without any route is answered before a token is
looked at. -/
def handleRequest (state : ManagementState) (store : σ) (request : Request) : Outcome σ :=
  match dispatch request with
  | .notFound => Management.answer store StatusCode.notFound.intoResponse
  | .methodNotAllowed requiredRole =>
      match authorizeWithRole state requiredRole request with
      | .error response => Management.answer store response
      | .ok _ => Management.answer store StatusCode.methodNotAllowed.intoResponse
  | .endpoint e params =>
      match authorizeWithRole state e.requiredRole request with
      | .error response => Management.answer store response
      | .ok actor =>
          match params.mapM state.percentDecode with
          | none => Management.answer store { status := .badRequest, body := .rejection }
          | some params =>
              (e.endpoint.handler.run store actor { params, body := request.body }).forMethod
                request.method

/-- One request as a step of a machine over the store, with the response and the audit
events as its output. -/
def ManagementState.step (state : ManagementState) (store : σ) (request : Request) :
    (Response × List AuditEvent) × σ :=
  let o := handleRequest state store request
  ((o.response, o.events), o.store)

end Service

end Jwtlet

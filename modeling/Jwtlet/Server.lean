import Jwtlet.ManagementSteps
import Jwtlet.PercentEncoding
import Jwtlet.TokenForm

/-!
# The server

The two ports of `jwtlet-server/src/server/mod.rs` over one store: the token
exchange API with its four routes, the metadata document of `meta/mod.rs`, and the
management API nested under `/api/v1`.  Both ports have a health check.

One request to either port is a step of a machine over the store.  What the
request reads from outside while it is handled - the answers of the verifier and
of the generator, the published keys, the clock and a new id - comes with it, so
that a run allows every behaviour of the outside over time.
-/

namespace Jwtlet

open Rust

/-- `AuthorizationServerMetadata` of `meta/mod.rs`: what a client needs to know of the
server, as the metadata endpoint publishes it. -/
structure AuthorizationServerMetadata where
  issuer : String
  tokenEndpoint : String
  jwksUri : String
  grantTypesSupported : List String
  tokenEndpointAuthMethodsSupported : List String
  deriving DecidableEq

/-- `AuthorizationServerMetadata::new`.  The endpoints are the issuer with a path
appended, and everything else is fixed. -/
def AuthorizationServerMetadata.new (issuer : String) : AuthorizationServerMetadata where
  issuer
  tokenEndpoint := issuer ++ "/token"
  jwksUri := issuer ++ "/.well-known/jwks.json"
  grantTypesSupported := ["urn:ietf:params:oauth:grant-type:token-exchange"]
  tokenEndpointAuthMethodsSupported := ["none"]

/-- `JwtletRuntime` without the store; `κ` is the type of a key set, of which the server
only ever publishes what the key resolver gives it. -/
structure JwtletRuntime (κ : Type) where
  tokenService : TokenExchangeService
  keyResolver : κ
  serviceAccountAuthorizer : MemoryServiceAccountStore
  managementVerifier : JwtVerifier
  managementClientAudience : String
  metadata : AuthorizationServerMetadata

/-- What one request reads from outside.  Two requests of a run may find everything here
changed: keys rotate, tokens expire, and the clock moves. -/
structure Surroundings (κ : Type) where
  env : Environment
  verifier : JwtVerifier
  generator : JwtGenerator
  jwkSet : κ

namespace JwtletRuntime

variable {κ : Type}

/-- The exchange service with the verifier and the generator as they answer now; the rest
of it is fixed for the life of the server. -/
def exchangeService (rt : JwtletRuntime κ) (outside : Surroundings κ) : TokenExchangeService :=
  { rt.tokenService with verifier := outside.verifier, generator := outside.generator }

/-- The state of the management API with the verifier as it answers now.  Accounts and
audience come from the configuration and do not change. -/
def managementState (rt : JwtletRuntime κ) (outside : Surroundings κ) : ManagementState :=
  accountState rt.serviceAccountAuthorizer outside.verifier rt.managementClientAudience
    Percent.decode

end JwtletRuntime

/-- A request to the token exchange port: its form has been decoded to pairs by the
extractor, or was refused by it. -/
structure ExchangeRequest where
  method : Method
  path : String
  form : Except FormRejection (List (String × String))

/-- A request, to one port or to the other.  A server without any order between its two
ports is a run over requests of both kinds. -/
inductive ServerRequest where
  | exchange (request : ExchangeRequest)
  | management (request : Request)

/-- A request with what it reads from outside, which together are the input of one step.
-/
structure ServerEvent (κ : Type) where
  request : ServerRequest
  outside : Surroundings κ

/-- The responses of both ports.  Those of the token endpoint keep the value that is
serialized, not its text. -/
inductive ServerResponse (κ : Type) where
  /-- A bare status code. -/
  | status (code : StatusCode)
  /-- The refusal of an extractor. -/
  | rejection (code : StatusCode)
  /-- `OK` in plain text. -/
  | health
  | token (response : ExchangeResponse)
  | jwkSet (keys : κ)
  | metadata (document : AuthorizationServerMetadata)
  | management (response : Response)

/-- The response, with the audit events and the calls of the generator on the way.
Issuing a token is a call with the claims that it is to carry. -/
structure ServerAnswer (κ : Type) where
  response : ServerResponse κ
  events : List AuditEvent := []
  calls : List GeneratorCall := []

/-- The four handlers of the token exchange port, by name. -/
inductive ExchangeHandler where
  | health
  | tokenExchange
  | getSwkSet
  | getAuthorizationServerMetadata
  deriving DecidableEq

/-- A route without parameters: it has to match the path as a whole. -/
structure StaticRoute where
  path : String
  method : Method
  handler : ExchangeHandler

/-- The routes of the token exchange port.  There is one method for each path, and no
layer in front of any of them. -/
def tokenExchangeRoutes : List StaticRoute :=
  [{ path := "/health", method := .get, handler := .health },
    { path := "/token", method := .post, handler := .tokenExchange },
    { path := "/.well-known/jwks.json", method := .get, handler := .getSwkSet },
    { path := "/.well-known/oauth-authorization-server", method := .get
      handler := .getAuthorizationServerMetadata }]

/-- As on the management port, a `GET` route also serves `HEAD`. -/
def StaticRoute.serves (r : StaticRoute) (method : Method) : Bool :=
  r.method = method || (r.method = .get && method = .head)

/-- Where a request goes, or the status that ends it: 404 for a path without a route, 405
for a path whose route has another method. -/
def ExchangeRequest.route (request : ExchangeRequest) : Except StatusCode ExchangeHandler :=
  match tokenExchangeRoutes.find? fun r => r.path = request.path with
  | none => .error .notFound
  | some r => if r.serves request.method then .ok r.handler else .error .methodNotAllowed

section Service

variable {κ σ : Type} [ResourceStore σ]

/-- `HEAD` gets the status of `GET` without its body.  Every `GET` route of the exchange
port answers 200. -/
def ServerResponse.forMethod (response : ServerResponse κ) (method : Method) : ServerResponse κ :=
  if method = .head then .status .ok else response

/-- Handle one request to the token exchange port.  The store is only read, by the token
endpoint alone. -/
def handleExchange (rt : JwtletRuntime κ) (store : σ) (outside : Surroundings κ)
    (request : ExchangeRequest) : ServerAnswer κ :=
  match request.route with
  | .error code => { response := .status code }
  | .ok .health => { response := ServerResponse.health.forMethod request.method }
  | .ok .getSwkSet => { response := (ServerResponse.jwkSet outside.jwkSet).forMethod request.method }
  | .ok .getAuthorizationServerMetadata =>
      { response := (ServerResponse.metadata rt.metadata).forMethod request.method }
  | .ok .tokenExchange =>
      match request.form with
      | .error r => { response := .rejection r.status }
      | .ok pairs =>
          match TokenExchangeForm.deserialize pairs with
          | none => { response := .rejection .unprocessableEntity }
          | some form =>
              let (response, calls) :=
                tokenExchange (rt.exchangeService outside) store outside.env form
              { response := .token response, calls }

/-- **The body of a token request.**  A body is refused exactly when a required
field is missing or a field is there twice, and nothing is done then.  Otherwise the
exchange is that of the form with the value of each field.  So neither the order of
the pairs nor the names that are no field matter. -/
theorem token_body_exact (rt : JwtletRuntime κ) (store : σ) (outside : Surroundings κ)
    (pairs : List (String × String)) :
    let answer := fun pairs => handleExchange rt store outside
      { method := .post, path := "/token", form := .ok pairs }
    (((∃ field : FormField, field.required = true ∧ field.values pairs = []) ∨
        ∃ field : FormField, 2 ≤ (field.values pairs).length) →
      (answer pairs).response = .rejection .unprocessableEntity ∧ (answer pairs).calls = []) ∧
    ((¬ ∃ field : FormField, field.required = true ∧ field.values pairs = []) →
      (¬ ∃ field : FormField, 2 ≤ (field.values pairs).length) →
      ∃ form : TokenExchangeForm, (∀ field, field.values pairs = (form.slots field).toList) ∧
        (answer pairs).response = .token (tokenExchange (rt.exchangeService outside) store
          outside.env form).1 ∧
        (answer pairs).calls = (tokenExchange (rt.exchangeService outside) store outside.env
          form).2) ∧
    ∀ pairs', (∀ field : FormField, (field.values pairs').Perm (field.values pairs)) →
      answer pairs' = answer pairs := by
  intro answer
  have hanswer : ∀ pairs, answer pairs = match TokenExchangeForm.deserialize pairs with
      | none => { response := .rejection .unprocessableEntity }
      | some form =>
          { response := .token (tokenExchange (rt.exchangeService outside) store outside.env form).1
            calls := (tokenExchange (rt.exchangeService outside) store outside.env form).2 } := by
    intro pairs
    rfl
  refine ⟨?_, ?_, ?_⟩
  · intro hbad
    rw [hanswer, TokenExchangeForm.deserialize_eq_none_iff.mpr hbad]
    exact ⟨rfl, rfl⟩
  · intro hthere hone
    cases hform : TokenExchangeForm.deserialize pairs with
    | none =>
        rcases TokenExchangeForm.deserialize_eq_none_iff.mp hform with hbad | hbad
        · exact absurd hbad hthere
        · exact absurd hbad hone
    | some form =>
        refine ⟨form, TokenExchangeForm.deserialize_eq_some_iff.mp hform, ?_, ?_⟩
        · rw [hanswer, hform]
        · rw [hanswer, hform]
  · intro pairs' hperm
    rw [hanswer, hanswer, TokenExchangeForm.deserialize_congr hperm]

/-- `nest("/api/v1", ..)`: the path that the nested router sees, which is what follows the
prefix, from its slash on. -/
def nestedPath (path : String) : Option String :=
  if "/api/v1/".toList <+: path.toList then some (String.ofList (path.toList.drop 7)) else none

/-- Handle one request to the management port: the health check, which asks for no token,
or the management API below its prefix. -/
def handleManagement (rt : JwtletRuntime κ) (store : σ) (outside : Surroundings κ)
    (request : Request) : ServerAnswer κ × σ :=
  if request.path = "/health" then
    if request.method = .get ∨ request.method = .head then
      ({ response := ServerResponse.health.forMethod request.method }, store)
    else ({ response := .status .methodNotAllowed }, store)
  else
    match nestedPath request.path with
    | none => ({ response := .status .notFound }, store)
    | some path =>
        let o := handleRequest (rt.managementState outside) store { request with path }
        ({ response := .management o.response, events := o.events }, o.store)

/-- One request to the server, as a step over the store.  A request to the exchange port
leaves the store alone by its very form. -/
def JwtletRuntime.step (rt : JwtletRuntime κ) (store : σ) (ev : ServerEvent κ) :
    ServerAnswer κ × σ :=
  match ev.request with
  | .exchange request => (handleExchange rt store ev.outside request, store)
  | .management request => handleManagement rt store ev.outside request

end Service

end Jwtlet

import Jwtlet.RoleNoninterference
import Jwtlet.Server

/-!
# The service behind the server

Every request to the management API is refused before it reaches the resource
service, in a way that does not depend on the store, or it performs one operation
of the service for a verified caller and its response is that of the operation's
answer (`handleRequest_eq`).  The token exchange port performs no operation that
writes.

So the server is the resource service of `ServiceOperations` behind routing,
authorization and decoding: `step_store` and `step_succeeded` are all that
results about whole runs need of a request.
-/

namespace Jwtlet

open Rust

/-- `Json`: the decoded body, or the refusal, with the status that the rejection has. -/
def extractJson {A : Type} (body : Except JsonRejection Json)
    (readBody : Json → Except JsonRejection A) : Except Response A :=
  match body.bind readBody with
  | .error r => .error { status := r.status, body := .rejection }
  | .ok a => .ok a

/-- The operation that a handler calls, or its refusal.  An update whose path and body
disagree is refused here, before there is an operation. -/
def Handler.operation : Handler → HandlerInput → Except Response ServiceOp
  | .listMappings, _ => .ok .listMappings
  | .listScopeMappings, _ => .ok .listScopeMappings
  | .createMapping, { body, .. } => (extractJson body ResourceMapping.readBody).map .save
  | .updateMapping, { params := [clientId, context], body } =>
      (extractJson body ResourceMapping.readBody).bind fun m =>
        if clientId ≠ m.clientIdentifier ∨ context ≠ m.participantContext then
          .error ManagementApiError.pathMismatch.intoResponse
        else .ok (.update m)
  | .deleteMapping, { params := [clientId, context], .. } => .ok (.remove clientId context)
  | .deleteClientMappings, { params := [clientId], .. } => .ok (.removeFor clientId)
  | .createScopeMapping, { body, .. } =>
      (extractJson body OneOrMany.readBody).map fun payload =>
        .saveScopeMappings payload.intoVec
  | .updateScopeMapping, { params := [scope], body } =>
      (extractJson body ScopeMapping.readBody).bind fun m =>
        if scope ≠ m.scope then .error ManagementApiError.pathMismatch.intoResponse
        else .ok (.updateScopeMapping m)
  | .deleteScopeMapping, { params := [scope], .. } => .ok (.deleteScopeMapping scope)
  | _, _ => .error { status := .internalServerError, body := .rejection }

/-- The response as it is sent for a method: without its body for `HEAD`. -/
def Response.forMethod (response : Response) (method : Method) : Response :=
  if method = .head then { response with body := .empty } else response

/-- The operation of a request with its verified caller, or the response that ends it
before.  The store plays no part in either. -/
def Request.operation (state : ManagementState) (request : Request) :
    Except Response (String × ServiceOp) :=
  match dispatch request with
  | .notFound => .error StatusCode.notFound.intoResponse
  | .methodNotAllowed requiredRole =>
      match authorizeWithRole state requiredRole request with
      | .error response => .error response
      | .ok _ => .error StatusCode.methodNotAllowed.intoResponse
  | .endpoint e params =>
      match authorizeWithRole state e.requiredRole request with
      | .error response => .error response
      | .ok actor =>
          match params.mapM state.percentDecode with
          | none => .error { status := .badRequest, body := .rejection }
          | some params =>
              match e.endpoint.handler.operation { params, body := request.body } with
              | .error response => .error (response.forMethod request.method)
              | .ok op => .ok (actor, op)

namespace ServiceOp

/-- The status of a write that succeeded: 201 for a creation, 204 for everything else. -/
def successStatus : ServiceOp → StatusCode
  | .save _ | .saveScopeMappings _ => .created
  | _ => .noContent

/-- The response to an answer of the service, with the errors as `ManagementApiError`
makes responses of them. -/
def respond (op : ServiceOp) : ServiceAnswer → Response
  | .done (.ok ()) => op.successStatus.intoResponse
  | .mappings (.ok l) => { status := .ok, body := .mappings l }
  | .scopeMappings (.ok l) => { status := .ok, body := .scopeMappings l }
  -- No route calls `verify`.
  | .verified (.ok _) => StatusCode.ok.intoResponse
  | .done (.error e) | .mappings (.error e) | .scopeMappings (.error e) | .verified (.error e) =>
      (ManagementApiError.resource e).intoResponse

/-- The events that a successful write is logged as; an operation that fails, or only
reads, is not logged at all. -/
def auditEvents (actor : String) (op : ServiceOp) (answer : ServiceAnswer) : List AuditEvent :=
  if answer.isDone then op.accepted.elim [] (StoreWrite.auditEvents actor) else []

/-- What a handler makes of an answer: the response, the events, and the store that the
service left behind. -/
def outcome {σ : Type} (op : ServiceOp) (actor : String) (r : ServiceAnswer × σ) : Outcome σ where
  response := op.respond r.1
  events := op.auditEvents actor r.1
  store := r.2

end ServiceOp

/-- The role that guards an operation.  To list takes the read role, whichever table it
is. -/
def ServiceOp.role : ServiceOp → String
  | .save _ | .update _ | .remove _ _ | .removeFor _ => roleMappingsWrite
  | .saveScopeMappings _ | .updateScopeMapping _ | .deleteScopeMapping _ => roleScopesWrite
  | .verify _ _ _ | .listMappings | .listScopeMappings => roleManagementRead

/-- Perform an operation, or refuse, which leaves the store alone and logs nothing. -/
def performed {σ : Type} [ResourceStore σ] (store : σ) (actor : String) :
    Except Response ServiceOp → Outcome σ
  | .error response => Management.answer store response
  | .ok op => op.outcome actor (op.perform store)

/-- The service answered with `Ok`, whatever the operation was. -/
def ServiceAnswer.isOk : ServiceAnswer → Bool
  | .done (.ok _) | .mappings (.ok _) | .scopeMappings (.ok _) | .verified (.ok _) => true
  | .done (.error _) | .mappings (.error _) | .scopeMappings (.error _) | .verified (.error _) =>
      false

section Handlers

variable {σ : Type} [ResourceStore σ]

/-- The end of a handler that called a writing operation is what `outcome` makes of the
answer, when the events it has ready are those of the accepted write. -/
theorem finish_eq_outcome {op : ServiceOp} {store : σ} {r : Except ResourceError Unit × σ}
    (hr : op.perform store = writing r) {events : List AuditEvent} {actor : String}
    (hop : ∀ w, op.accepted = some w → events = w.auditEvents actor) :
    Management.finish r op.successStatus events = op.outcome actor (op.perform store) := by
  obtain ⟨result, store'⟩ := r
  rw [hr]
  cases result with
  | error e => rfl
  | ok u =>
      cases haccepted : op.accepted with
      | none =>
          have hdone := (perform_of_not_accepted haccepted store).2
          rw [hr] at hdone
          cases hdone
      | some w =>
          rw [Management.finish, ServiceOp.outcome, hop w haccepted]
          simp [writing, ServiceOp.respond, ServiceOp.auditEvents, ServiceAnswer.isDone, haccepted]

/-- A handler behind the `Json` extractor is its operation when it is on every decoded
body. -/
theorem withJson_eq {A : Type} {store : σ} {actor : String} {body : Except JsonRejection Json}
    {readBody : Json → Except JsonRejection A} {handler : A → Outcome σ}
    {f : A → Except Response ServiceOp} (h : ∀ a, handler a = performed store actor (f a)) :
    Management.withJson store body readBody handler =
      performed store actor ((extractJson body readBody).bind f) := by
  unfold Management.withJson extractJson
  cases body.bind readBody with
  | error r => rfl
  | ok a => exact h a

/-- **A handler is its operation.** Its whole outcome, over any store, is that of
performing the operation that it calls, or of the refusal in its place. -/
theorem run_eq (h : Handler) (store : σ) (actor : String) (input : HandlerInput) :
    h.run store actor input = performed store actor (h.operation input) := by
  fun_cases Handler.operation h input with
  | case1 input =>
      simp only [Handler.run, Management.listMappings, performed, ServiceOp.perform,
        ResourceService.listMappings]
      cases ResourceStore.listMappings store <;> rfl
  | case2 input =>
      simp only [Handler.run, Management.listScopeMappings, performed, ServiceOp.perform,
        ResourceService.listScopeMappings]
      cases ResourceStore.listScopeMappings store <;> rfl
  | case3 params body =>
      refine withJson_eq fun m => ?_
      refine @finish_eq_outcome σ _ (.save m) store _ rfl _ actor fun w hw => ?_
      obtain ⟨-, rfl⟩ := passOn_eq_some_iff.mp hw
      rfl
  | case4 clientId context body =>
      refine withJson_eq fun m => ?_
      rw [Management.updateMapping]
      split
      · rfl
      · refine @finish_eq_outcome σ _ (.update m) store _ rfl _ actor fun w hw => ?_
        obtain ⟨-, rfl⟩ := passOn_eq_some_iff.mp hw
        rfl
  | case5 clientId context body =>
      refine @finish_eq_outcome σ _ (.remove clientId context) store _ rfl _ actor fun w hw => ?_
      cases hw
      rfl
  | case6 clientId body =>
      refine @finish_eq_outcome σ _ (.removeFor clientId) store _ rfl _ actor fun w hw => ?_
      cases hw
      rfl
  | case7 params body =>
      refine withJson_eq fun payload => ?_
      refine @finish_eq_outcome σ _ (.saveScopeMappings payload.intoVec) store _ rfl _ actor
        fun w hw => ?_
      obtain ⟨-, rfl⟩ := passOn_eq_some_iff.mp hw
      rfl
  | case8 scope body =>
      refine withJson_eq fun m => ?_
      rw [Management.updateScopeMapping]
      split
      · rfl
      · refine @finish_eq_outcome σ _ (.updateScopeMapping m) store _ rfl _ actor fun w hw => ?_
        obtain ⟨-, rfl⟩ := passOn_eq_some_iff.mp hw
        rfl
  | case9 scope body =>
      refine @finish_eq_outcome σ _ (.deleteScopeMapping scope) store _ rfl _ actor fun w hw => ?_
      cases hw
      rfl
  | case10 h input =>
      -- A wrong number of parameters.
      unfold Handler.run
      split <;> first | rfl | simp_all

end Handlers

section Requests

variable {κ σ : Type} [ResourceStore σ]

/-- **A request is its operation.** Routing, authorization and decoding decide which
operation of the service is performed for whom, and after that only the answer counts. -/
theorem handleRequest_eq (state : ManagementState) (store : σ) (request : Request) :
    handleRequest state store request =
      match request.operation state with
      | .error response => Management.answer store response
      | .ok (actor, op) => (op.outcome actor (op.perform store)).forMethod request.method := by
  rw [handleRequest, Request.operation]
  cases dispatch request with
  | notFound => rfl
  | methodNotAllowed requiredRole =>
      simp only
      cases authorizeWithRole state requiredRole request with
      | error response => rfl
      | ok actor => rfl
  | endpoint e params =>
      simp only
      cases authorizeWithRole state e.requiredRole request with
      | error response => rfl
      | ok actor =>
          simp only
          cases params.mapM state.percentDecode with
          | none => rfl
          | some params =>
              simp only [run_eq]
              cases e.endpoint.handler.operation { params, body := request.body } with
              | ok op => rfl
              | error response =>
                  simp only [performed, Outcome.forMethod, Response.forMethod]
                  split <;> rfl

/-- The operation that an event performs on the store, with its verified caller.  Events
at the exchange port have none, and refused requests neither. -/
def ServerEvent.operation (rt : JwtletRuntime κ) (ev : ServerEvent κ) :
    Option (String × ServiceOp) :=
  match ev.request with
  | .exchange _ => none
  | .management request =>
      if request.path = "/health" then none
      else
        (nestedPath request.path).bind fun path =>
          (Request.operation (rt.managementState ev.outside) { request with path }).toOption

/-- The event is a management request whose bearer token is verified, for the management
audience, as a token of `actor`, an account that holds the role.  Nothing is said of what
the request then does. -/
def ServerEvent.ActsAs (rt : JwtletRuntime κ) (ev : ServerEvent κ) (actor role : String) : Prop :=
  ∃ request token claims, ev.request = .management request ∧
    extractBearerToken request.authorization = some token ∧
    ev.outside.verifier rt.managementClientAudience token = .ok claims ∧ claims.sub = actor ∧
    rt.serviceAccountAuthorizer.holdsRole actor role = true

/-- A computation that is mapped ends with the image of what it ends with. -/
theorem exists_of_map_eq_ok {E A B : Type} {r : Except E A} {f : A → B} {b : B}
    (h : r.map f = .ok b) : ∃ a, r = .ok a ∧ b = f a := by
  cases r with
  | error e => cases h
  | ok a => exact ⟨a, rfl, (Except.ok.inj h).symm⟩

/-- A computation whose value is then checked ends well only if the check does not stop
it. -/
theorem exists_of_checked_eq_ok {E A B : Type} {r : Except E A} {f : A → B} {p : A → Prop}
    [DecidablePred p] {e : E} {b : B}
    (h : (r.bind fun a => if p a then .error e else .ok (f a)) = .ok b) :
    ∃ a, r = .ok a ∧ ¬ p a ∧ b = f a := by
  cases r with
  | error e => cases h
  | ok a =>
      simp only [Except.bind] at h
      split at h
      · cases h
      · next hp => exact ⟨a, rfl, hp, (Except.ok.inj h).symm⟩

/-- The operation of a handler is guarded by the role of the handler. -/
theorem role_of_operation {h : Handler} {input : HandlerInput} {op : ServiceOp}
    (hop : h.operation input = .ok op) : op.role = h.role := by
  unfold Handler.operation at hop
  split at hop
  · cases hop; rfl
  · cases hop; rfl
  · obtain ⟨m, -, rfl⟩ := exists_of_map_eq_ok hop; rfl
  · obtain ⟨m, -, -, rfl⟩ := exists_of_checked_eq_ok hop; rfl
  · cases hop; rfl
  · cases hop; rfl
  · obtain ⟨m, -, rfl⟩ := exists_of_map_eq_ok hop; rfl
  · obtain ⟨m, -, -, rfl⟩ := exists_of_checked_eq_ok hop; rfl
  · cases hop; rfl
  · cases hop

/-- The caller of a request that reaches its operation is admitted with the role of the
operation, through the endpoint that the request was sent to. -/
theorem admitted_of_operation {state : ManagementState} {request : Request} {actor : String}
    {op : ServiceOp} (h : request.operation state = .ok (actor, op)) :
    Admitted state request op.role actor := by
  rw [Request.operation] at h
  cases hd : dispatch request with
  | notFound => rw [hd] at h; cases h
  | methodNotAllowed requiredRole =>
      simp only [hd] at h
      split at h <;> cases h
  | endpoint e params =>
      simp only [hd] at h
      cases ha : authorizeWithRole state e.requiredRole request with
      | error response => rw [ha] at h; cases h
      | ok found =>
          simp only [ha] at h
          split at h
          · cases h
          · split at h
            · cases h
            · next hop =>
              cases h
              have hrole := (requiredRole_eq (mem_of_dispatch hd)).trans (role_of_operation hop).symm
              exact ⟨⟨e, params, hd, hrole⟩, hrole ▸ ha⟩

/-- The request behind an operation: it is one to the management port, below the prefix of
the API, and as the nested router sees it, it has that operation. -/
theorem request_of_operation {rt : JwtletRuntime κ} {ev : ServerEvent κ} {actor : String}
    {op : ServiceOp} (h : ev.operation rt = some (actor, op)) :
    ∃ request path, ev.request = .management request ∧ request.path ≠ "/health" ∧
      nestedPath request.path = some path ∧
      Request.operation (rt.managementState ev.outside) { request with path } =
        .ok (actor, op) := by
  obtain ⟨request, outside⟩ := ev
  cases request with
  | exchange request => cases h
  | management request =>
      simp only [ServerEvent.operation] at h
      split at h
      · cases h
      · next hhealth =>
        obtain ⟨path, hpath, hop⟩ := Option.bind_eq_some_iff.mp h
        refine ⟨request, path, rfl, hhealth, hpath, ?_⟩
        cases hr : Request.operation (rt.managementState outside) { request with path } with
        | error response => rw [hr] at hop; cases hop
        | ok found =>
            rw [hr] at hop
            cases hop
            rfl

/-- **Who performs an operation.** It is a verified caller who holds the role that guards
it, under the name that the operation comes with. -/
theorem actsAs_of_operation {rt : JwtletRuntime κ} {ev : ServerEvent κ} {actor : String}
    {op : ServiceOp} (h : ev.operation rt = some (actor, op)) : ev.ActsAs rt actor op.role := by
  obtain ⟨request, path, hrequest, -, -, hop⟩ := request_of_operation h
  obtain ⟨hsub, hrole⟩ := holdsRole_of_admitted (admitted_of_operation hop)
  simp only [verifiedSubject] at hsub
  split at hsub
  · cases hsub
  · next token htoken =>
    split at hsub
    · next claims hclaims =>
      exact ⟨request, token, claims, hrequest, htoken, hclaims, Option.some.inj hsub, hrole⟩
    · cases hsub

/-- The management API answered without an error.  Answers of the exchange port and of the
health check do not count. -/
def ServerAnswer.succeeded (answer : ServerAnswer κ) : Bool :=
  match answer.response with
  | .management response => !response.status.isError
  | _ => false

/-- An event without operation leaves the store alone: refusals, health checks, and all
that happens at the exchange port. -/
theorem step_of_no_operation {rt : JwtletRuntime κ} {ev : ServerEvent κ}
    (h : ev.operation rt = none) (store : σ) : (rt.step store ev).2 = store := by
  obtain ⟨request, outside⟩ := ev
  cases request with
  | exchange request => rfl
  | management request =>
      simp only [ServerEvent.operation] at h
      simp only [JwtletRuntime.step, handleManagement]
      split
      · split <;> rfl
      · next hhealth =>
        rw [if_neg hhealth] at h
        cases hpath : nestedPath request.path with
        | none => rfl
        | some path =>
            rw [hpath, Option.bind_some] at h
            simp only [handleRequest_eq]
            cases hop : Request.operation (rt.managementState outside) { request with path } with
            | error response => rfl
            | ok op =>
                rw [hop] at h
                cases h

/-- An event with an operation answers with its response and logs its events, and issues
no token. -/
theorem step_of_operation {rt : JwtletRuntime κ} {ev : ServerEvent κ} {actor : String}
    {op : ServiceOp} (h : ev.operation rt = some (actor, op)) :
    ∃ request, ev.request = .management request ∧ ∀ store : σ, rt.step store ev =
      ({ response := .management ((op.respond (op.perform store).1).forMethod request.method)
         events := op.auditEvents actor (op.perform store).1 }, (op.perform store).2) := by
  obtain ⟨request, path, hrequest, hhealth, hpath, hop⟩ := request_of_operation h
  refine ⟨request, hrequest, fun store => ?_⟩
  simp only [JwtletRuntime.step, hrequest, handleManagement, if_neg hhealth, hpath,
    handleRequest_eq, hop, ServiceOp.outcome, Outcome.forMethod, Response.forMethod]
  split <;> rfl

/-- **What an event does to the store** is what its operation does, if it has one.
Results about runs of the server are brought down to runs of the service by this. -/
theorem step_store (rt : JwtletRuntime κ) (store : σ) (ev : ServerEvent κ) :
    (rt.step store ev).2 =
      (ev.operation rt).elim store fun found => (found.2.perform store).2 := by
  cases h : ev.operation rt with
  | none => exact step_of_no_operation h store
  | some found =>
      obtain ⟨request, -, hstep⟩ := @step_of_operation κ σ _ rt ev _ _ h
      rw [hstep]
      rfl

/-- The response to an answer is an error exactly when the answer is one, for every
method. -/
theorem respond_isError (op : ServiceOp) (answer : ServiceAnswer) (method : Method) :
    ((op.respond answer).forMethod method).status.isError = !answer.isOk := by
  have hstatus : ((op.respond answer).forMethod method).status = (op.respond answer).status := by
    rw [Response.forMethod]
    split <;> rfl
  have hok : op.successStatus.isError = false := by
    cases op <;> rfl
  have herror : ∀ e, (ManagementApiError.resource e).intoResponse.status.isError = true := by
    intro e
    cases e <;> rfl
  rw [hstatus]
  rcases answer with (_ | _) | (_ | _) | (_ | _) | (_ | _)
  all_goals first | exact herror _ | exact hok | rfl

/-- The management API answers without an error exactly when the operation succeeds, so
that what the caller is told is what happened. -/
theorem step_succeeded {rt : JwtletRuntime κ} {ev : ServerEvent κ} {actor : String}
    {op : ServiceOp} (h : ev.operation rt = some (actor, op)) (store : σ) :
    (rt.step store ev).1.succeeded = (op.perform store).1.isOk := by
  obtain ⟨request, -, hstep⟩ := @step_of_operation κ σ _ rt ev actor op h
  simp only [hstep, ServerAnswer.succeeded, respond_isError, Bool.not_not]

end Requests

end Jwtlet

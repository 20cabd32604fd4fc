import Jwtlet.ManagementApi
import Jwtlet.ResourceMem
import Jwtlet.ServiceOperations

/-!
# What one management request can do

Over the memory store a request does one of two things.  Either it leaves the
store alone and logs nothing, and returns stored data only behind the read role;
or it was admitted with the role of a table, made one successful write to that
table, and logged the events of that write in the name of the verified caller.
`handleRequest_cases` says so once for all nine handlers; everything about runs
is derived from it.
-/

namespace Jwtlet

open Rust

/-- The events that a successful write is logged as, in the name of the caller that made
it.  A batch of scope mappings is one write with one event for each of its elements. -/
def StoreWrite.auditEvents (actor : String) : StoreWrite → List AuditEvent
  | .saveMapping m => [.mappingCreated actor m.clientIdentifier m.participantContext]
  | .updateMapping m => [.mappingUpdated actor m.clientIdentifier m.participantContext]
  | .removeMapping c x => [.mappingDeleted actor c x]
  | .removeMappingsFor c => [.allMappingsDeleted actor c]
  | .saveScopeMappings ms => ms.map fun m => .scopeMappingCreated actor m.scope
  | .updateScopeMapping m => [.scopeMappingUpdated actor m.scope]
  | .removeScopeMapping s => [.scopeMappingDeleted actor s]

/-- The role that guards a write.  It depends on the table alone: no role lets its holder
write to both tables, and none stands for a single operation on one. -/
def StoreWrite.role (w : StoreWrite) : String :=
  if w.toMappings then roleMappingsWrite else roleScopesWrite

/-- The role that guards a handler, read off the routers; that every route agrees with it
is `requiredRole_eq`. -/
def Handler.role : Handler → String
  | .listMappings | .listScopeMappings => roleManagementRead
  | .createMapping | .updateMapping | .deleteMapping | .deleteClientMappings => roleMappingsWrite
  | .createScopeMapping | .updateScopeMapping | .deleteScopeMapping => roleScopesWrite

/-- The response lists stored records.  An error message may quote a key of the request,
but nothing that only the store knows. -/
def Response.hasData (r : Response) : Bool :=
  match r.body with
  | .mappings _ | .scopeMappings _ => true
  | .empty | .rejection | .error _ => false

/-- The policy determines the table of resource mappings, since the table has one order in
which its rows can stand. -/
theorem InnerStore.entries_eq {store store' : InnerStore}
    (h : (PolicyStore.policy store).mapping = (PolicyStore.policy store').mapping) :
    store.entries = store'.entries :=
  Std.ExtTreeMap.ext_getElem? fun k => congrFun h k

/-- In the same way the policy determines the table of scope mappings. -/
theorem InnerStore.scopeMappings_eq {store store' : InnerStore}
    (h : (PolicyStore.policy store).scope = (PolicyStore.policy store').scope) :
    store.scopeMappings = store'.scopeMappings :=
  Std.ExtTreeMap.ext_getElem? fun s => congrFun h s

/-- A memory store is nothing but its policy.  What is shown of the policy after a request
is thereby shown of the store itself. -/
theorem InnerStore.policy_injective {store store' : InnerStore}
    (h : PolicyStore.policy store = PolicyStore.policy store') : store = store' := by
  have hentries := InnerStore.entries_eq (congrArg Policy.mapping h)
  have hscopes := InnerStore.scopeMappings_eq (congrArg Policy.scope h)
  cases store
  cases store'
  cases hentries
  cases hscopes
  rfl

/-- A write that fails leaves the memory store as it was, for each of the operations, the
batch of scope mappings among them. -/
theorem InnerStore.write_error {store : InnerStore} {w : StoreWrite} {e : ResourceError}
    (h : (ResourceStore.write store w).1 = .error e) :
    (ResourceStore.write store w).2 = store := by
  apply InnerStore.policy_injective
  rw [PolicyStore.write_policy]
  rw [PolicyStore.write_answer] at h
  exact Policy.write_error h

/-- An outcome without events that leaves the store alone, which is how listings and
refusals of every kind end. -/
def Outcome.Quiet (o : Outcome InnerStore) (store : InnerStore) : Prop :=
  o.events = [] ∧ o.store = store

/-- An outcome that made the write `w` and logged it for `actor`.  The write succeeded,
and the response says so without any data. -/
structure Outcome.Wrote (o : Outcome InnerStore) (store : InnerStore) (actor : String)
    (w : StoreWrite) : Prop where
  succeeded : (ResourceStore.write store w).1 = .ok ()
  store : o.store = (ResourceStore.write store w).2
  events : o.events = w.auditEvents actor
  status : o.response.status.isError = false
  body : o.response.hasData = false

/-- What a handler guarded by `role` can do: stay quiet, with data in its response only
behind the read role, or make a write that this role guards. -/
def Outcome.Confined (o : Outcome InnerStore) (store : InnerStore) (actor role : String) : Prop :=
  (o.Quiet store ∧ (o.response.hasData = true → role = roleManagementRead)) ∨
  ∃ w, w.role = role ∧ o.Wrote store actor w

section Handlers

variable {store : InnerStore} {actor role : String}

/-- An answer without data is confined to any role, so that refusals need no case of their
own in what follows. -/
theorem answer_confined {response : Response} (h : response.hasData = false) :
    (Management.answer store response).Confined store actor role := by
  refine Or.inl ⟨⟨rfl, rfl⟩, fun hdata => ?_⟩
  change response.hasData = true at hdata
  rw [h] at hdata
  cases hdata

/-- No error of the management API lists stored records. -/
theorem hasData_intoResponse (e : ManagementApiError) : e.intoResponse.hasData = false := by
  cases e with
  | pathMismatch => rfl
  | resource e => cases e <;> rfl

/-- A handler that ends with an error of the service, and the store as it was, is confined
to any role.  The events it had ready are dropped. -/
theorem finish_error_confined (e : ResourceError) (status : StatusCode)
    (events : List AuditEvent) :
    (Management.finish (.error e, store) status events).Confined store actor role :=
  answer_confined (hasData_intoResponse (.resource e))

/-- The end of a handler that called a writing operation of the service.  It is confined
when the write that the service would accept is one of the role, and is logged as that
write. -/
theorem finish_confined {op : ServiceOp} {r : Except ResourceError Unit × InnerStore}
    (hr : op.perform store = writing r) {status : StatusCode} (hstatus : status.isError = false)
    {events : List AuditEvent}
    (hop : ∀ w, op.accepted = some w → w.role = role ∧ events = w.auditEvents actor) :
    (Management.finish r status events).Confined store actor role := by
  obtain ⟨result, store'⟩ := r
  have hresult : (op.perform store).1 = .done result := by rw [hr]; rfl
  have hstore : (op.perform store).2 = store' := by rw [hr]; rfl
  cases haccepted : op.accepted with
  | none =>
      obtain ⟨hsame, hdone⟩ := perform_of_not_accepted haccepted store
      rw [hstore] at hsame
      subst hsame
      cases result with
      | ok u => rw [hresult] at hdone; cases hdone
      | error e => exact finish_error_confined e status events
  | some w =>
      have hwrite := perform_of_accepted haccepted store
      rw [hr] at hwrite
      have hpair : (result, store') = ResourceStore.write store w := by
        have hfst := congrArg Prod.fst hwrite
        have hsnd := congrArg Prod.snd hwrite
        simp only [writing, ServiceAnswer.done.injEq] at hfst hsnd
        exact Prod.ext hfst hsnd
      cases result with
      | ok u =>
          obtain ⟨hrole, hevents⟩ := hop w haccepted
          refine Or.inr ⟨w, hrole, ?_, ?_, hevents, hstatus, rfl⟩
          · rw [← hpair]
          · rw [← hpair]
            rfl
      | error e =>
          have hsame := @InnerStore.write_error store w e (by rw [← hpair])
          rw [← hpair] at hsame
          rw [show store' = store from hsame]
          exact finish_error_confined e status events

/-- A handler behind the `Json` extractor is confined if it is on every decoded body,
because a refused body is answered with neither data nor events. -/
theorem withJson_confined {A : Type} {body : Except JsonRejection Json}
    {readBody : Json → Except JsonRejection A} {handler : A → Outcome InnerStore}
    (h : ∀ a, (handler a).Confined store actor role) :
    (Management.withJson store body readBody handler).Confined store actor role := by
  unfold Management.withJson
  split
  · exact answer_confined rfl
  · exact h _

/-- Every handler is confined to its role, whatever its parameters and its body are.  This
is the one place where the nine handlers are taken one by one. -/
theorem run_confined (h : Handler) (input : HandlerInput) :
    (h.run store actor input).Confined store actor h.role := by
  have hlist : ∀ {o : Outcome InnerStore}, o.Quiet store →
      o.Confined store actor roleManagementRead := fun hq => Or.inl ⟨hq, fun _ => rfl⟩
  unfold Handler.run
  split
  · exact hlist ⟨rfl, rfl⟩
  · exact hlist ⟨rfl, rfl⟩
  · refine withJson_confined fun m => ?_
    refine @finish_confined store actor _ (.save m) _ rfl _ rfl _ fun w hw => ?_
    obtain ⟨-, rfl⟩ := passOn_eq_some_iff.mp hw
    exact ⟨rfl, rfl⟩
  · refine withJson_confined fun m => ?_
    rw [Management.updateMapping]
    split
    · exact answer_confined rfl
    · refine @finish_confined store actor _ (.update m) _ rfl _ rfl _ fun w hw => ?_
      obtain ⟨-, rfl⟩ := passOn_eq_some_iff.mp hw
      exact ⟨rfl, rfl⟩
  · next clientId context _ =>
    refine @finish_confined store actor _ (.remove clientId context) _ rfl _ rfl _ fun w hw => ?_
    cases hw
    exact ⟨rfl, rfl⟩
  · next clientId _ =>
    refine @finish_confined store actor _ (.removeFor clientId) _ rfl _ rfl _ fun w hw => ?_
    cases hw
    exact ⟨rfl, rfl⟩
  · refine withJson_confined fun payload => ?_
    refine @finish_confined store actor _ (.saveScopeMappings payload.intoVec) _ rfl _ rfl _
      fun w hw => ?_
    obtain ⟨-, rfl⟩ := passOn_eq_some_iff.mp hw
    exact ⟨rfl, rfl⟩
  · refine withJson_confined fun m => ?_
    rw [Management.updateScopeMapping]
    split
    · exact answer_confined rfl
    · refine @finish_confined store actor _ (.updateScopeMapping m) _ rfl _ rfl _ fun w hw => ?_
      obtain ⟨-, rfl⟩ := passOn_eq_some_iff.mp hw
      exact ⟨rfl, rfl⟩
  · next scope _ =>
    refine @finish_confined store actor _ (.deleteScopeMapping scope) _ rfl _ rfl _ fun w hw => ?_
    cases hw
    exact ⟨rfl, rfl⟩
  · exact answer_confined rfl

/-- Dropping the body keeps an outcome confined: the response can only list less than
before. -/
theorem forMethod_confined {o : Outcome InnerStore} (h : o.Confined store actor role)
    (method : Method) : (o.forMethod method).Confined store actor role := by
  rw [Outcome.forMethod]
  split
  · rcases h with ⟨hquiet, -⟩ | ⟨w, hrole, hwrote⟩
    · exact Or.inl ⟨hquiet, fun hdata => by cases hdata⟩
    · exact Or.inr ⟨w, hrole, hwrote.succeeded, hwrote.store, hwrote.events, hwrote.status, rfl⟩
  · exact h

end Handlers

/-- Every route is guarded by the role of its handler, as one sees from the table of the
ten routes. -/
theorem requiredRole_eq {e : GuardedEndpoint} (h : e ∈ managementRoutes) :
    e.requiredRole = e.endpoint.handler.role := by
  revert e
  decide

/-- An endpoint to which a request is sent stands in the routing table. -/
theorem mem_of_dispatch {request : Request} {e : GuardedEndpoint} {params : List String}
    (h : dispatch request = .endpoint e params) : e ∈ managementRoutes := by
  rw [dispatch] at h
  split at h
  · next e' params' hfound =>
    cases h
    obtain ⟨e'', hmem, hsome⟩ := List.exists_of_findSome?_eq_some hfound
    split at hsome
    · obtain ⟨_, _, heq⟩ := Option.map_eq_some_iff.mp hsome
      cases heq
      exact hmem
    · cases hsome
  · split at h <;> cases h

/-- The request was let through to a handler behind `role`, with `actor` as the verified
caller.  A method that the path does not have reaches no handler, and so admits no one. -/
def Admitted (state : ManagementState) (request : Request) (role actor : String) : Prop :=
  (∃ e params, dispatch request = .endpoint e params ∧ e.requiredRole = role) ∧
    authorizeWithRole state role request = .ok actor

/-- A response that ends a request before its handler has no data, whether it is the
missing token, the verification or the role that ended it. -/
theorem hasData_of_authorize_error {state : ManagementState} {role : String} {request : Request}
    {response : Response} (h : authorizeWithRole state role request = .error response) :
    response.hasData = false := by
  rw [authorizeWithRole] at h
  split at h
  · cases h
    rfl
  · split at h
    · cases h; rfl
    · cases h; rfl
    · cases h; rfl
    · split at h <;> cases h <;> rfl

/-- **What a request can do.** It is quiet, and returns data only when admitted with the
read role; or it was admitted with the role of a write, made it and logged it.  Nothing
that follows looks into a handler again. -/
theorem handleRequest_cases (state : ManagementState) (store : InnerStore) (request : Request) :
    ((handleRequest state store request).Quiet store ∧
      ((handleRequest state store request).response.hasData = true →
        ∃ actor, Admitted state request roleManagementRead actor)) ∨
    ∃ actor w, Admitted state request w.role actor ∧
      (handleRequest state store request).Wrote store actor w := by
  have hanswer : ∀ {response : Response}, response.hasData = false →
      handleRequest state store request = Management.answer store response →
      (handleRequest state store request).Quiet store ∧
        ((handleRequest state store request).response.hasData = true →
          ∃ actor, Admitted state request roleManagementRead actor) := by
    intro response hno heq
    rw [heq]
    refine ⟨⟨rfl, rfl⟩, fun hdata => ?_⟩
    change response.hasData = true at hdata
    rw [hno] at hdata
    cases hdata
  cases hd : dispatch request with
  | notFound => exact Or.inl (hanswer rfl (by rw [handleRequest, hd]))
  | methodNotAllowed requiredRole =>
      cases ha : authorizeWithRole state requiredRole request with
      | error response =>
          have heq : handleRequest state store request = Management.answer store response := by
            rw [handleRequest, hd]
            simp [ha]
          exact Or.inl (hanswer (hasData_of_authorize_error ha) heq)
      | ok actor =>
          have heq : handleRequest state store request =
              Management.answer store StatusCode.methodNotAllowed.intoResponse := by
            rw [handleRequest, hd]
            simp [ha]
          exact Or.inl (hanswer rfl heq)
  | endpoint e params =>
      cases ha : authorizeWithRole state e.requiredRole request with
      | error response =>
          have heq : handleRequest state store request = Management.answer store response := by
            rw [handleRequest, hd]
            simp [ha]
          exact Or.inl (hanswer (hasData_of_authorize_error ha) heq)
      | ok actor =>
          cases hp : params.mapM state.percentDecode with
          | none =>
              have heq : handleRequest state store request =
                  Management.answer store { status := .badRequest, body := .rejection } := by
                rw [handleRequest, hd]
                simp [ha, hp]
              exact Or.inl (hanswer rfl heq)
          | some decoded =>
              have heq : handleRequest state store request =
                  (e.endpoint.handler.run store actor
                    { params := decoded, body := request.body }).forMethod request.method := by
                rw [handleRequest, hd]
                simp [ha, hp]
              rw [heq]
              have hrole := requiredRole_eq (mem_of_dispatch hd)
              rcases forMethod_confined (run_confined e.endpoint.handler _) request.method with
                ⟨hquiet, hread⟩ | ⟨w, hw, hwrote⟩
              · refine Or.inl ⟨hquiet, fun hdata => ⟨actor, ⟨e, params, hd, ?_⟩, ?_⟩⟩
                · rw [hrole, hread hdata]
                · rw [← hread hdata, ← hrole]
                  exact ha
              · refine Or.inr ⟨actor, w, ⟨⟨e, params, hd, ?_⟩, ?_⟩, hwrote⟩
                · rw [hrole, hw]
                · rw [hw, ← hrole]
                  exact ha

end Jwtlet

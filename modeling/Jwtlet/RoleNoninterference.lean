import Jwtlet.MachineRuns
import Jwtlet.ManagementSteps

/-!
# Roles do not interfere

A request of a caller without a verified token, or without the role of the route
it hits, might as well not have been made: erasing all such requests from a run
changes neither the store, nor the audit log, nor any other response.  And each
role opens exactly what it guards: the two tables change and stored data is
returned only for holders of the role of that table or of the read role.
-/

namespace Jwtlet

open Rust

/-- The subject of the bearer token, when the verifier accepts it for the management
audience.  This is the only way in which a request gets an identity. -/
def verifiedSubject (state : ManagementState) (request : Request) : Option String :=
  match extractBearerToken request.authorization with
  | none => none
  | some token =>
      match state.verifier state.clientAudience token with
      | .ok claims => some claims.sub
      | .error _ => none

/-- The role of the route that a request hits, with or without its method: the layer asks
for its role also when the answer will be that there is no such method. -/
def routeRole (request : Request) : Option String :=
  match dispatch request with
  | .endpoint e _ => some e.requiredRole
  | .methodNotAllowed requiredRole => some requiredRole
  | .notFound => none

/-- The caller is verified and holds the role of the route it hits, if it hits one.  On a
path without any route a verified token is all that is asked here. -/
def entitled (accounts : MemoryServiceAccountStore) (state : ManagementState)
    (request : Request) : Bool :=
  match verifiedSubject state request, routeRole request with
  | none, _ => false
  | some _, none => true
  | some sub, some role => accounts.holdsRole sub role

/-- The audit events of a run, those of earlier requests first, and those of one request
in the order in which its handler logs them. -/
def auditLog (state : ManagementState) (store : InnerStore) (requests : List Request) :
    List AuditEvent :=
  (Machine.history state.step store requests).flatMap fun e => e.2.2

section Accounts

variable {accounts : MemoryServiceAccountStore} {verifier : JwtVerifier} {clientAudience : String}
  {percentDecode : String → Option String} {request : Request} {role : String}

/-- A request passes the authorization exactly as a verified holder of the role.  The two
refusals are told apart: 401 without a verified subject, 403 without the role. -/
theorem authorizeWithRole_eq (accounts : MemoryServiceAccountStore) (verifier : JwtVerifier)
    (clientAudience : String) (percentDecode : String → Option String) (request : Request)
    (role : String) :
    authorizeWithRole (accountState accounts verifier clientAudience percentDecode) role request =
      match verifiedSubject (accountState accounts verifier clientAudience percentDecode)
        request with
      | none => .error StatusCode.unauthorized.intoResponse
      | some sub =>
          if accounts.holdsRole sub role then .ok sub
          else .error StatusCode.forbidden.intoResponse := by
  rw [authorizeWithRole, verifiedSubject]
  cases extractBearerToken request.authorization with
  | none => rfl
  | some token =>
      simp only [accountState]
      cases verifier clientAudience token with
      | error e => cases e <;> rfl
      | ok claims =>
          simp only [MemoryServiceAccountStore.authorize_singleton]
          cases accounts.holdsRole claims.sub role <;> rfl

/-- A request admitted with a role comes from a verified holder of the role, under whose
name its events are logged. -/
theorem holdsRole_of_admitted {actor : String}
    (h : Admitted (accountState accounts verifier clientAudience percentDecode) request role
      actor) :
    verifiedSubject (accountState accounts verifier clientAudience percentDecode) request =
      some actor ∧ accounts.holdsRole actor role = true := by
  have hauth := h.2
  rw [authorizeWithRole_eq] at hauth
  split at hauth
  · cases hauth
  · next sub hsub =>
    split at hauth
    · next hrole =>
      cases hauth
      exact ⟨hsub, hrole⟩
    · cases hauth

/-- A request that hits a route is refused for lack of its role, with 403 and no regard to
whether the route has the method. -/
theorem handleRequest_of_lacking {store : InnerStore} {sub : String}
    (hsub : verifiedSubject (accountState accounts verifier clientAudience percentDecode) request =
      some sub)
    (hroute : routeRole request = some role) (hlack : accounts.holdsRole sub role = false) :
    handleRequest (accountState accounts verifier clientAudience percentDecode) store request =
      Management.answer store StatusCode.forbidden.intoResponse := by
  rw [routeRole] at hroute
  split at hroute
  · next e params hd =>
    cases hroute
    rw [handleRequest, hd]
    simp [authorizeWithRole_eq, hsub, hlack]
  · next requiredRole hd =>
    cases hroute
    rw [handleRequest, hd]
    simp [authorizeWithRole_eq, hsub, hlack]
  · cases hroute

/-- A request that is not entitled is answered before any handler runs, so that neither
the store nor the log learns of it. -/
theorem handleRequest_of_not_entitled {store : InnerStore}
    (h : entitled accounts (accountState accounts verifier clientAudience percentDecode) request =
      false) :
    ∃ response, handleRequest (accountState accounts verifier clientAudience percentDecode) store
      request = Management.answer store response := by
  cases hsub : verifiedSubject (accountState accounts verifier clientAudience percentDecode)
      request with
  | none =>
      rw [handleRequest]
      split
      · exact ⟨_, rfl⟩
      · rw [authorizeWithRole_eq, hsub]
        exact ⟨_, rfl⟩
      · rw [authorizeWithRole_eq, hsub]
        exact ⟨_, rfl⟩
  | some sub =>
      cases hroute : routeRole request with
      | none => simp [entitled, hsub, hroute] at h
      | some role =>
          have hlack : accounts.holdsRole sub role = false := by
            simpa [entitled, hsub, hroute] using h
          exact ⟨_, handleRequest_of_lacking hsub hroute hlack⟩

/-- The caller of a request is verified and holds a role, which need not be the one that
the route of the request asks for. -/
def CallerHolds (accounts : MemoryServiceAccountStore) (state : ManagementState)
    (request : Request) (role : String) : Prop :=
  ∃ sub, verifiedSubject state request = some sub ∧ accounts.holdsRole sub role = true

/-- What one request may do, role by role: each table changes only for a holder of its
role, and stored data is returned only to a holder of the read role. -/
structure RoleConfined (accounts : MemoryServiceAccountStore) (state : ManagementState)
    (store : InnerStore) (request : Request) : Prop where
  mappings : (state.step store request).2.entries ≠ store.entries →
    CallerHolds accounts state request roleMappingsWrite
  scopes : (state.step store request).2.scopeMappings ≠ store.scopeMappings →
    CallerHolds accounts state request roleScopesWrite
  data : (state.step store request).1.1.hasData = true →
    CallerHolds accounts state request roleManagementRead
  /-- No other role makes up for the role of the route. -/
  noSubstitute : ∀ sub role, verifiedSubject state request = some sub →
    routeRole request = some role → accounts.holdsRole sub role = false →
    state.step store request = ((StatusCode.forbidden.intoResponse, []), store)

/-- Every request is confined in this way, in every state of the store.  It is
`handleRequest_cases` with the admission read as holding a role. -/
theorem roleConfined (accounts : MemoryServiceAccountStore) (verifier : JwtVerifier)
    (clientAudience : String) (percentDecode : String → Option String) (store : InnerStore)
    (request : Request) :
    RoleConfined accounts (accountState accounts verifier clientAudience percentDecode) store
      request := by
  refine ⟨?_, ?_, ?_, ?_⟩
  · intro hchange
    rcases handleRequest_cases (accountState accounts verifier clientAudience percentDecode) store
      request with ⟨hquiet, -⟩ | ⟨actor, w, hadmitted, hwrote⟩
    · exact absurd (congrArg InnerStore.entries hquiet.2) hchange
    · rw [StoreWrite.role] at hadmitted
      cases hw : w.toMappings with
      | true =>
          rw [if_pos hw] at hadmitted
          exact ⟨actor, holdsRole_of_admitted hadmitted⟩
      | false =>
          refine absurd (InnerStore.entries_eq ?_) hchange
          rw [ManagementState.step, hwrote.store, PolicyStore.write_policy,
            Policy.write_mapping hw]
  · intro hchange
    rcases handleRequest_cases (accountState accounts verifier clientAudience percentDecode) store
      request with ⟨hquiet, -⟩ | ⟨actor, w, hadmitted, hwrote⟩
    · exact absurd (congrArg InnerStore.scopeMappings hquiet.2) hchange
    · rw [StoreWrite.role] at hadmitted
      cases hw : w.toMappings with
      | true =>
          refine absurd (InnerStore.scopeMappings_eq ?_) hchange
          rw [ManagementState.step, hwrote.store, PolicyStore.write_policy, Policy.write_scope hw]
      | false =>
          rw [if_neg (by simp [hw])] at hadmitted
          exact ⟨actor, holdsRole_of_admitted hadmitted⟩
  · intro hdata
    rcases handleRequest_cases (accountState accounts verifier clientAudience percentDecode) store
      request with ⟨-, hread⟩ | ⟨actor, w, -, hwrote⟩
    · obtain ⟨actor, hadmitted⟩ := hread hdata
      exact ⟨actor, holdsRole_of_admitted hadmitted⟩
    · have hno := hwrote.body
      change (handleRequest _ store request).response.hasData = true at hdata
      rw [hdata] at hno
      cases hno
  · intro sub role hsub hroute hlack
    rw [ManagementState.step, handleRequest_of_lacking hsub hroute hlack]
    rfl

end Accounts

/-- **Role noninterference.**  Erase from a run every request without a bearer
token, with a token that the verifier rejects, or of a caller who lacks the role
of the route it hits.  The final store, the audit log and the responses to the
remaining requests stay the same.  In every state, every request changes a table
or returns data only for a holder of the role in question. -/
theorem role_noninterference (accounts : MemoryServiceAccountStore) (verifier : JwtVerifier)
    (clientAudience : String) (percentDecode : String → Option String) (store : InnerStore)
    (requests : List Request) :
    let state := accountState accounts verifier clientAudience percentDecode
    let kept := requests.filter (entitled accounts state)
    Machine.after state.step store kept = Machine.after state.step store requests ∧
    auditLog state store kept = auditLog state store requests ∧
    Machine.history state.step store kept =
      (Machine.history state.step store requests).filter (fun e => entitled accounts state e.1) ∧
    ∀ (s : InnerStore) (request : Request), RoleConfined accounts state s request := by
  intro state kept
  have hskip : ∀ (s : InnerStore) (request : Request), entitled accounts state request = false →
      (state.step s request).2 = s ∧ (state.step s request).1.2 = [] := by
    intro s request hno
    obtain ⟨response, heq⟩ := @handleRequest_of_not_entitled accounts verifier clientAudience
      percentDecode request s hno
    rw [ManagementState.step, heq]
    exact ⟨rfl, rfl⟩
  have hhistory := Machine.history_filter (entitled accounts state)
    (fun s request hno => (hskip s request hno).1) store requests
  refine ⟨?_, ?_, hhistory, fun s request =>
    roleConfined accounts verifier clientAudience percentDecode s request⟩
  · exact Machine.after_filter _ (fun s request hno => (hskip s request hno).1) store requests
  · rw [auditLog, auditLog, hhistory]
    apply Machine.flatMap_filter_of_nil
    intro e he hno
    exact Machine.history_invariant (P := fun _ => True)
      (Q := fun request answer => entitled accounts state request = false → answer.2 = [])
      (fun _ _ _ => trivial) (fun s request _ h => (hskip s request h).2) trivial requests e he hno

end Jwtlet

import Jwtlet.PolicyHistory
import Jwtlet.PolicyValidity
import Jwtlet.RequestOperations

/-!
# Tokens and the history of the server

Whether the server issues a token is a matter of its history: of the management
requests answered so far.  A mapping is in force when an admitted request created
or updated it and no later one replaced or removed it, a scope mapping likewise,
and the token endpoint calls the generator exactly when the mapping in force for
the caller and the resource covers the request (`issued_iff_permitted`).

The server is the resource service behind its requests, so what is in force is
carried over from `PolicyHistory` by `Machine.unrevoked_wrapped`.
-/

namespace Jwtlet

open Rust Machine

variable {κ : Type}

/-- A request with its answer, which is what a history keeps of one step; the stores in
between are not part of it. -/
abbrev ServerEntry (κ : Type) := ServerEvent κ × ServerAnswer κ

/-- The server at the end of a run from an empty memory store, where every run of the
program begins. -/
def JwtletRuntime.storeAfter (rt : JwtletRuntime κ) (events : List (ServerEvent κ)) : InnerStore :=
  after rt.step MemoryResourceStore.new events

/-- The requests of a run from an empty memory store, with their answers, the first one
first. -/
def JwtletRuntime.historyOf (rt : JwtletRuntime κ) (events : List (ServerEvent κ)) :
    List (ServerEntry κ) :=
  history rt.step MemoryResourceStore.new events

section InForce

variable (rt : JwtletRuntime κ)

/-- An admitted creation or update of `m` for the client `c` in the context `x`, answered
without an error.  Both make `m` the mapping of its key. -/
def Grants (c x : String) (m : ResourceMapping) (e : ServerEntry κ) : Prop :=
  ∃ actor op, e.1.operation rt = some (actor, op) ∧ (op = .save m ∨ op = .update m) ∧
    m.key = (c, x) ∧ e.2.succeeded = true

/-- An admitted removal of the mapping of `c` in `x`, alone or with all mappings of `c`.
Removals succeed over the memory store, so no word is lost on their answer. -/
def Revokes (c x : String) (e : ServerEntry κ) : Prop :=
  ∃ actor op, e.1.operation rt = some (actor, op) ∧ (op = .remove c x ∨ op = .removeFor c)

/-- An admitted batch with `m` in it, or an admitted update to `m`, for the scope `s`,
answered without an error. -/
def Defines (s : String) (m : ScopeMapping) (e : ServerEntry κ) : Prop :=
  ∃ actor op, e.1.operation rt = some (actor, op) ∧
    ((∃ ms, op = .saveScopeMappings ms ∧ m ∈ ms) ∨ op = .updateScopeMapping m) ∧
    m.scope = s ∧ e.2.succeeded = true

/-- An admitted removal of the scope mapping of `s`, which succeeds like any other
removal. -/
def Withdraws (s : String) (e : ServerEntry κ) : Prop :=
  ∃ actor, e.1.operation rt = some (actor, .deleteScopeMapping s)

/-- The mapping in force for `c` in `x` after a history: the last to be granted that no
later grant replaced and no later removal took away. -/
def MappingInForce (h : List (ServerEntry κ)) (c x : String) (m : ResourceMapping) : Prop :=
  Unrevoked (Grants rt c x m) (fun e => (∃ m', Grants rt c x m' e) ∨ Revokes rt c x e) h

/-- The scope mapping in force for `s` after a history, in the same sense. -/
def ScopeInForce (h : List (ServerEntry κ)) (s : String) (m : ScopeMapping) : Prop :=
  Unrevoked (Defines rt s m) (fun e => (∃ m', Defines rt s m' e) ∨ Withdraws rt s e) h

/-- The operations behind a run, in their order.  Requests that reach no operation leave
no trace in it. -/
def operations (events : List (ServerEvent κ)) : List ServiceOp :=
  events.filterMap fun ev => (ev.operation rt).map Prod.snd

end InForce

section Service

variable {rt : JwtletRuntime κ}

/-- The store of the server is that of the service behind it: an event does to it what its
operation does. -/
theorem step_wrapped (store : InnerStore) (ev : ServerEvent κ) :
    (rt.step store ev).2 =
      ((ev.operation rt).map Prod.snd).elim store fun op => (op.perform store).2 := by
  rw [step_store]
  cases ev.operation rt <;> rfl

/-- The store at the end of a run is the one that the operations behind the run leave. -/
theorem storeAfter_eq (events : List (ServerEvent κ)) :
    rt.storeAfter events = finalStore (operations rt events) :=
  after_wrapped step_wrapped _ events

/-- An answer of a write is `Ok` or an error, and `Ok` carries nothing. -/
theorem writing_isOk_iff {σ : Type} {r : Except ResourceError Unit × σ} :
    (writing r).1.isOk = true ↔ (writing r).1 = .done (.ok ()) := by
  obtain ⟨result, store⟩ := r
  cases result <;> simp [writing, ServiceAnswer.isOk]

/-- An entry says of the store what the operation behind it does.  The four that follow
are this for granting, revoking, defining and withdrawing. -/
theorem entry_iff (said : ServerEntry κ → ServiceOp → Prop) {put : ServiceEntry → Prop}
    {ev : ServerEvent κ} {store : InnerStore}
    (h : ∀ actor op, ev.operation rt = some (actor, op) →
      (put (op, (op.perform store).1) ↔ said (ev, (rt.step store ev).1) op)) :
    (∃ actor op, ev.operation rt = some (actor, op) ∧ said (ev, (rt.step store ev).1) op) ↔
      ∃ op, (ev.operation rt).map Prod.snd = some op ∧ put (op, (op.perform store).1) := by
  constructor
  · intro hsaid
    obtain ⟨actor, op, hop, hs⟩ := hsaid
    exact ⟨op, by rw [hop]; rfl, (h actor op hop).mpr hs⟩
  · intro hput
    obtain ⟨op, hop, hp⟩ := hput
    obtain ⟨⟨actor, op'⟩, hfound, rfl⟩ := Option.map_eq_some_iff.mp hop
    exact ⟨actor, op', hfound, (h actor op' hfound).mp hp⟩

/-- An entry grants a mapping exactly when the operation behind it puts the mapping. -/
theorem grants_iff (c x : String) (m : ResourceMapping) (store : InnerStore)
    (ev : ServerEvent κ) :
    Grants rt c x m (ev, (rt.step store ev).1) ↔
      ∃ op, (ev.operation rt).map Prod.snd = some op ∧
        PutsMapping c x m (op, (op.perform store).1) := by
  refine entry_iff (fun e op => (op = .save m ∨ op = .update m) ∧ m.key = (c, x) ∧
    e.2.succeeded = true) fun actor op hop => ?_
  rw [step_succeeded hop, PutsMapping]
  refine and_congr_right fun hkind => and_congr_right fun _ => ?_
  rcases hkind with rfl | rfl
  · exact writing_isOk_iff.symm
  · exact writing_isOk_iff.symm

/-- An entry revokes a key exactly when the operation behind it removes the key. -/
theorem revokes_iff (c x : String) (store : InnerStore) (ev : ServerEvent κ) :
    Revokes rt c x (ev, (rt.step store ev).1) ↔
      ∃ op, (ev.operation rt).map Prod.snd = some op ∧
        RemovesMapping c x (op, (op.perform store).1) :=
  entry_iff (fun _ op => op = .remove c x ∨ op = .removeFor c) fun _ _ _ => Iff.rfl

/-- An entry defines a scope exactly when the operation behind it puts the scope mapping.
-/
theorem defines_iff (s : String) (m : ScopeMapping) (store : InnerStore) (ev : ServerEvent κ) :
    Defines rt s m (ev, (rt.step store ev).1) ↔
      ∃ op, (ev.operation rt).map Prod.snd = some op ∧
        PutsScope s m (op, (op.perform store).1) := by
  refine entry_iff (fun e op => ((∃ ms, op = .saveScopeMappings ms ∧ m ∈ ms) ∨
    op = .updateScopeMapping m) ∧ m.scope = s ∧ e.2.succeeded = true) fun actor op hop => ?_
  rw [step_succeeded hop, PutsScope]
  refine and_congr_right fun hkind => and_congr_right fun _ => ?_
  rcases hkind with ⟨ms, rfl, -⟩ | rfl
  · exact writing_isOk_iff.symm
  · exact writing_isOk_iff.symm

/-- An entry withdraws a scope exactly when the operation behind it removes the scope. -/
theorem withdraws_iff (s : String) (store : InnerStore) (ev : ServerEvent κ) :
    Withdraws rt s (ev, (rt.step store ev).1) ↔
      ∃ op, (ev.operation rt).map Prod.snd = some op ∧
        RemovesScope s (op, (op.perform store).1) := by
  have hsplit : Withdraws rt s (ev, (rt.step store ev).1) ↔
      ∃ actor op, ev.operation rt = some (actor, op) ∧ op = .deleteScopeMapping s := by
    simp [Withdraws]
  rw [hsplit]
  exact entry_iff (fun _ op => op = .deleteScopeMapping s) fun _ _ _ => Iff.rfl

/-- The mapping that the store holds is the one in force, and if none is in force it holds
none. -/
theorem mapping_after_iff (events : List (ServerEvent κ)) (c x : String) (m : ResourceMapping) :
    (PolicyStore.policy (rt.storeAfter events)).mapping (c, x) = some m ↔
      MappingInForce rt (rt.historyOf events) c x m := by
  rw [storeAfter_eq, mapping_in_force_iff]
  refine (unrevoked_wrapped step_wrapped (grants_iff c x m) ?_ _ events).symm
  intro store ev
  simp only [grants_iff, revokes_iff]
  grind

/-- The scope mapping that the store holds is the one in force. -/
theorem scope_after_iff (events : List (ServerEvent κ)) (s : String) (m : ScopeMapping) :
    (PolicyStore.policy (rt.storeAfter events)).scope s = some m ↔
      ScopeInForce rt (rt.historyOf events) s m := by
  rw [storeAfter_eq, scope_in_force_iff]
  refine (unrevoked_wrapped step_wrapped (defines_iff s m) ?_ _ events).symm
  intro store ev
  simp only [defines_iff, withdraws_iff]
  grind

end Service

/-- The claims of an administrator, for the audience of the management API. -/
def sampleAdmin : TokenClaims :=
  { sampleClient with sub := "admin", aud := "jwtlet-management", custom := ∅ }

/-- A verifier that knows the client for the exchange and the administrator for the
management API, and takes each of the two tokens at its own port only. -/
def sampleOutside : Surroundings Unit where
  env := sampleEnvironment
  verifier := fun audience token =>
    if audience = "jwtlet-exchange" ∧ token = "sa-token" then .ok sampleClient
    else if audience = "jwtlet-management" ∧ token = "admin-token" then .ok sampleAdmin
    else .error .invalidSignature
  generator := fun _ _ => .ok "token"
  jwkSet := ()

/-- A server with one account, that of the administrator, who holds the two roles for
writing. -/
def sampleRuntime : JwtletRuntime Unit where
  tokenService := sampleService
  keyResolver := ()
  serviceAccountAuthorizer := .fromAccounts [{ clientId := "admin"
                                               roles := Std.ExtTreeSet.ofList
                                                 [roleMappingsWrite, roleScopesWrite] compare }]
  managementVerifier := sampleOutside.verifier
  managementClientAudience := "jwtlet-management"
  metadata := .new "https://jwtlet"

/-- A request of the administrator, with the bearer token that the verifier above knows.
-/
def adminEvent (method : Method) (path : String) (body : Json) : ServerEvent Unit where
  request := .management { method, path, authorization := some (utf8Bytes "Bearer admin-token")
                           body := .ok body }
  outside := sampleOutside

/-- The client may read in the context `ctx`.  No audience is listed, so that it may ask
for the default of the server only. -/
def createMappingEvent : ServerEvent Unit :=
  adminEvent .post "/api/v1/mappings" (.object [("clientIdentifier", .string "client"),
    ("participantContext", .string "ctx"), ("scopes", .array [.string "read"])])

/-- Reading makes a reader: the one claim that the scope `read` stands for. -/
def createScopeEvent : ServerEvent Unit :=
  adminEvent .post "/api/v1/scopes" (.object [("scope", .string "read"),
    ("claims", .object [("role", .string "reader")])])

/-- The client loses what it may do in `ctx`. -/
def deleteMappingEvent : ServerEvent Unit :=
  adminEvent .delete "/api/v1/mappings/client/ctx" .null

/-- The client asks for a token to read in `ctx`, with the subject token that is known for
it. -/
def exchangeEvent : ServerEvent Unit where
  request := .exchange
    { method := .post, path := "/token"
      form := .ok [("grant_type", tokenExchangeGrantType), ("subject_token", "sa-token"),
        ("subject_token_type", issuedTokenType), ("resource", "ctx"), ("scope", "read")] }
  outside := sampleOutside

end Jwtlet

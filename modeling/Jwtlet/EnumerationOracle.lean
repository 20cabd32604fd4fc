import Jwtlet.ExchangeApi
import Jwtlet.ResourceMem

/-!
# Refusals by policy look alike, up to a claim conflict

A caller without a mapping, with a scope too many or with an audience that the
mapping does not permit should learn nothing from the response: all three are
meant to be `403 unauthorized_client`.  The checks run in sequence, with the
expansion of the scopes between the scope check and the audience check, and a
conflict in the expansion answers first.  So the refusals are indistinguishable
exactly when no store masks its refusal by such a conflict.
-/

namespace Jwtlet

open Rust

section Refusals

variable {σ τ : Type} [PolicyStore σ] [PolicyStore τ]

/-- The policy refuses the request of the verified client `c`: there is no
mapping, or a requested scope is not listed, or the audience is not permitted. -/
def RefusedByPolicy (svc : TokenExchangeService) (store : σ) (form : TokenExchangeForm)
    (c : TokenClaims) : Prop :=
  (PolicyStore.policy store).mapping (c.sub, form.resource) = none ∨
  ∃ m, (PolicyStore.policy store).mapping (c.sub, form.resource) = some m ∧
    ((¬ ∀ s ∈ form.requestedScopes, s ∈ m.scopes) ∨
      ¬ m.PermitsAudience svc.audience (form.targetAudience svc))

/-- The mapping of the client lists the requested scopes, but two of them conflict.  The
conflict is reported before the audience is looked at. -/
def MaskedByConflict (store : σ) (form : TokenExchangeForm) (c : TokenClaims) : Prop :=
  ∃ m, (PolicyStore.policy store).mapping (c.sub, form.resource) = some m ∧
    (∀ s ∈ form.requestedScopes, s ∈ m.scopes) ∧
    (PolicyStore.policy store).ClaimConflict form.requestedScopes

variable {svc : TokenExchangeService} {store : σ} {env : Environment}
  {form : TokenExchangeForm} {c : TokenClaims}

/-- Without a conflict, the first check that fails on a request refused by policy is one
of those that answer 403. -/
theorem firstFailure_of_refused (hg : form.grantType = tokenExchangeGrantType)
    (ht : form.subjectTokenType = issuedTokenType)
    (hv : svc.verifier svc.clientAudience form.subjectToken = .ok c)
    (hr : RefusedByPolicy svc store form c) (hmask : ¬ MaskedByConflict store form c) :
    FirstFailure svc store form (oauthError 403 "unauthorized_client") := by
  rcases hr with hm | ⟨m, hm, hs | ha⟩
  · exact .mapping hg ht hv hm
  · exact .scope hg ht hv hm hs
  · by_cases hs : ∀ s ∈ form.requestedScopes, s ∈ m.scopes
    · have hc : ¬ (PolicyStore.policy store).ClaimConflict form.requestedScopes :=
        fun hc => hmask ⟨m, hm, hs, hc⟩
      exact .audience hg ht hv hm hs hc ha
    · exact .scope hg ht hv hm hs

/-- One store: a refusal by policy is answered with 403 exactly when no
conflict masks it. -/
theorem refused_response_iff (hg : form.grantType = tokenExchangeGrantType)
    (ht : form.subjectTokenType = issuedTokenType)
    (hv : svc.verifier svc.clientAudience form.subjectToken = .ok c)
    (hr : RefusedByPolicy svc store form c) :
    (tokenExchange svc store env form).1 = oauthError 403 "unauthorized_client" ↔
      ¬ MaskedByConflict store form c := by
  constructor
  · intro h403 hmask
    obtain ⟨m, hm, hs, hc⟩ := hmask
    rw [(FirstFailure.conflict hg ht hv hm hs hc).tokenExchange_eq env] at h403
    cases h403
  · intro hmask
    rw [(firstFailure_of_refused hg ht hv hr hmask).tokenExchange_eq env]

/-- **No enumeration oracle, exactly.**  Take a well-formed request of a verified
caller and two stores that both refuse it by policy.  Both answer `403
unauthorized_client` without description exactly when in neither store the
caller's mapping lists the requested scopes while two of them conflict. -/
theorem refusals_indistinguishable_iff (svc : TokenExchangeService) (store : σ) (store' : τ)
    (env env' : Environment) (form : TokenExchangeForm) (c : TokenClaims)
    (hg : form.grantType = tokenExchangeGrantType)
    (ht : form.subjectTokenType = issuedTokenType)
    (hv : svc.verifier svc.clientAudience form.subjectToken = .ok c)
    (hr : RefusedByPolicy svc store form c) (hr' : RefusedByPolicy svc store' form c) :
    ((tokenExchange svc store env form).1 = oauthError 403 "unauthorized_client" ∧
      (tokenExchange svc store' env' form).1 = oauthError 403 "unauthorized_client") ↔
      ¬ MaskedByConflict store form c ∧ ¬ MaskedByConflict store' form c := by
  rw [refused_response_iff hg ht hv hr, refused_response_iff hg ht hv hr']

end Refusals

/-- The client may use `read` and `write` in `ctx`, for one other audience than the
default of the service. -/
def otherAudienceMapping : ResourceMapping where
  clientIdentifier := "client"
  participantContext := "ctx"
  scopes := Std.ExtTreeSet.ofList ["read", "write"] compare
  audiences := Std.ExtTreeSet.ofList ["https://other"] compare

/-- A scope mapping that gives a scope a number as its level. -/
def levelMapping (scope : String) (level : UInt64) : ScopeMapping where
  scope := scope
  claims := Std.ExtTreeMap.ofList [("level", .number (.posInt level))] compare

/-- Both scopes define the number `level`, so requesting both is a conflict. -/
def conflictingStore : InnerStore where
  entries := Std.ExtTreeMap.ofList [(("client", "ctx"), otherAudienceMapping)] compare
  scopeMappings := Std.ExtTreeMap.ofList
    [("read", levelMapping "read" 1), ("write", levelMapping "write" 2)] compare

/-- The client may use `read` alone, so requesting both scopes is refused by the mapping.
-/
def readOnlyStore : InnerStore where
  entries := Std.ExtTreeMap.ofList [(("client", "ctx"),
    { otherAudienceMapping with scopes := Std.ExtTreeSet.ofList ["read"] compare })] compare
  scopeMappings := conflictingStore.scopeMappings

/-- The policy of `conflictingStore` refuses the request, since the default audience is
not on the allowlist. -/
theorem conflictingStore_refused :
    RefusedByPolicy sampleService conflictingStore sampleForm sampleClient := by
  refine Or.inr ⟨otherAudienceMapping, by decide, Or.inr ?_⟩
  intro hpermits
  rcases hpermits with ⟨hempty, -⟩ | hin
  · exact absurd hempty (by decide)
  · exact absurd hin (by decide)

/-- Both `readOnlyStore` and the empty store refuse the request without a
conflict, and the responses are the same. -/
theorem refusals_indistinguishable_sample :
    (tokenExchange sampleService readOnlyStore sampleEnvironment sampleForm).1 =
      oauthError 403 "unauthorized_client" ∧
    (tokenExchange sampleService MemoryResourceStore.new sampleEnvironment sampleForm).1 =
      oauthError 403 "unauthorized_client" := by
  refine (refusals_indistinguishable_iff sampleService readOnlyStore MemoryResourceStore.new
    sampleEnvironment sampleEnvironment sampleForm sampleClient rfl rfl (by decide)
    (Or.inr ⟨_, rfl, Or.inl (by decide)⟩) (Or.inl (by decide))).mpr ⟨?_, ?_⟩
  · intro hmask
    obtain ⟨m, hm, hs, -⟩ := hmask
    cases hm
    exact absurd hs (by decide)
  · intro hmask
    obtain ⟨m, hm, -⟩ := hmask
    cases hm

/-- The default audience is not on the allowlist, but the response is
`400 invalid_scope`; a store without any mapping answers 403. -/
theorem refusals_distinguishable :
    sampleForm.grantType = tokenExchangeGrantType ∧
    sampleForm.subjectTokenType = issuedTokenType ∧
    sampleService.verifier sampleService.clientAudience sampleForm.subjectToken =
      .ok sampleClient ∧
    RefusedByPolicy sampleService conflictingStore sampleForm sampleClient ∧
    RefusedByPolicy sampleService MemoryResourceStore.new sampleForm sampleClient ∧
    (tokenExchange sampleService conflictingStore sampleEnvironment sampleForm).1 =
      oauthError 400 "invalid_scope" ∧
    (tokenExchange sampleService MemoryResourceStore.new sampleEnvironment sampleForm).1 =
      oauthError 403 "unauthorized_client" := by
  exact ⟨rfl, rfl, by decide, conflictingStore_refused, Or.inl (by decide), by decide, by decide⟩

end Jwtlet

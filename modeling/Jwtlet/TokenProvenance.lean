import Jwtlet.IssuedPayload
import Jwtlet.LeastPrivilege
import Jwtlet.ServerHistory

/-!
# Where tokens come from

Every token that the server issues, in any run from an empty store, is decided by
the history of the server and traced to the accounts behind it: the mapping in
force was granted by a verified holder of the mappings role, every claim that the
exchange does not write itself was defined by a verified holder of the scopes
role, and neither was taken back in between.
-/

namespace Jwtlet

open Rust Machine

variable {κ : Type}

/-- What a verified client gets is what the requested scopes contribute: for each key, the
claims of the scopes under it, joined. -/
theorem verified_claims {σ : Type} [PolicyStore σ] {store : σ} {c x : String}
    {scopes : List String} {r : VerificationResult}
    (h : ResourceService.verify store c x scopes = .ok r) (hverified : r.verified = true)
    (k : String) :
    r.claims[k]? = ResourceService.joined
      ((Std.ExtTreeSet.ofList scopes compare : BTreeSet String).toList.filterMap fun s =>
        (PolicyStore.policy store).claim s k) := by
  rw [ResourceService.verify_eq] at h
  cases hpair : (PolicyStore.policy store).resolve c x with
  | none =>
      rw [hpair] at h
      cases h
      cases hverified
  | some pair =>
      rw [hpair] at h
      by_cases hsub : ∀ s ∈ (Std.ExtTreeSet.ofList scopes compare : BTreeSet String),
          s ∈ pair.resourceMapping.scopes
      · rw [ResourceService.verifyResolved_of_subset hsub] at h
        cases hexpand : ResourceService.expandScopes pair (Std.ExtTreeSet.ofList scopes compare) with
        | error e => rw [hexpand] at h; cases h
        | ok claims =>
            rw [hexpand] at h
            cases h
            rw [← ResourceService.contributed_resolve hpair hsub]
            exact (ResourceService.expandScopesIn_ok ResourceService.ascending_lawful hexpand k).2
      · rw [ResourceService.verifyResolved_of_not_subset hsub] at h
        cases h
        cases hverified

/-- The audience of a token is the one requested, or the default when none is. -/
theorem resolveAudience_eq_ok {requested : Option String} {allowed : HashSet String}
    {default aud : String} (h : resolveAudience requested allowed default = .ok aud) :
    aud = requested.getD default := by
  unfold resolveAudience at h
  split at h
  · split_ifs at h <;> cases h <;> rfl
  · split_ifs at h <;> cases h <;> rfl

/-- The form of a request that gets to the token endpoint.  A refused body has none, and
neither has a form without a required field. -/
def ServerEvent.tokenForm (ev : ServerEvent κ) : Option TokenExchangeForm :=
  match ev.request with
  | .management _ => none
  | .exchange request =>
      match request.route, request.form with
      | .ok .tokenExchange, .ok pairs => TokenExchangeForm.deserialize pairs
      | _, _ => none

section Calls

variable {σ : Type} [ResourceStore σ] {rt : JwtletRuntime κ}

/-- A token request is answered by the token endpoint, so its calls of the generator are
those that the endpoint makes. -/
theorem step_of_tokenForm {ev : ServerEvent κ} {form : TokenExchangeForm}
    (h : ev.tokenForm = some form) (store : σ) :
    (rt.step store ev).1.calls =
      (tokenExchange (rt.exchangeService ev.outside) store ev.outside.env form).2 := by
  obtain ⟨request, outside⟩ := ev
  cases request with
  | management request => cases h
  | exchange request =>
      simp only [ServerEvent.tokenForm] at h
      split at h
      · next pairs hroute hform =>
        simp only [JwtletRuntime.step, handleExchange, hroute, hform, h]
      · cases h

/-- No other request calls the generator: not the remaining routes of the exchange port,
and not the management port. -/
theorem calls_of_no_form {ev : ServerEvent κ} (h : ev.tokenForm = none) (store : σ) :
    (rt.step store ev).1.calls = [] := by
  obtain ⟨request, outside⟩ := ev
  cases request with
  | management request =>
      simp only [JwtletRuntime.step, handleManagement]
      split
      · split <;> rfl
      · split <;> rfl
  | exchange request =>
      simp only [ServerEvent.tokenForm] at h
      simp only [JwtletRuntime.step, handleExchange]
      split
      · rfl
      · rfl
      · rfl
      · rfl
      · next hroute =>
        split
        · rfl
        · next pairs hform =>
          simp only [hroute, hform] at h
          rw [h]

/-- The calls of the endpoint are those of the exchange, on the requested scopes without
repetitions and in ascending order. -/
theorem mem_tokenExchange_calls {svc : TokenExchangeService} {store : σ} {env : Environment}
    {form : TokenExchangeForm} {call : GeneratorCall}
    (h : call ∈ (tokenExchange svc store env form).2) :
    call ∈ (exchangeToken svc store env form.resource
      (Std.ExtTreeSet.ofList form.requestedScopes compare : BTreeSet String).toList
      form.subjectToken form.audience).2 := by
  simp only [tokenExchange] at h
  split at h
  · cases h
  · split at h
    · cases h
    · split at h <;> exact h

end Calls

section Issuance

variable (rt : JwtletRuntime κ)

/-- A claim in force: the scope mapping in force for `s` has it, with that value. -/
def ClaimInForce (h : List (ServerEntry κ)) (s k : String) (v : Json) : Prop :=
  ∃ sm, ScopeInForce rt h s sm ∧ sm.claims[k]? = some v

/-- Everything the exchange of a form needs after the history `h`: the request is
well-formed, its subject token verified as that of `c`, and the mapping `m` in force for
`c` covers it.  The store is not mentioned. -/
structure Permitted (h : List (ServerEntry κ)) (outside : Surroundings κ)
    (form : TokenExchangeForm) (c : TokenClaims) (m : ResourceMapping) : Prop where
  grantType : form.grantType = tokenExchangeGrantType
  tokenType : form.subjectTokenType = issuedTokenType
  verified : outside.verifier rt.tokenService.clientAudience form.subjectToken = .ok c
  mapping : MappingInForce rt h c.sub form.resource m
  scopes : ∀ s ∈ form.requestedScopes, s ∈ m.scopes
  consistent : ¬ ∃ s ∈ form.requestedScopes, ∃ s' ∈ form.requestedScopes, s ≠ s' ∧ ∃ k v v',
    ClaimInForce rt h s k v ∧ ClaimInForce rt h s' k v' ∧
      (v.isString = false ∨ v'.isString = false)
  audience : m.PermitsAudience rt.tokenService.audience
    (form.audience.getD rt.tokenService.audience)

variable {rt}

/-- The claims that the store holds are those in force after the run. -/
theorem claim_after_iff (events : List (ServerEvent κ)) (s k : String) (v : Json) :
    (PolicyStore.policy (rt.storeAfter events)).claim s k = some v ↔
      ClaimInForce rt (rt.historyOf events) s k v := by
  simp only [Policy.claim, Option.bind_eq_some_iff, scope_after_iff, ClaimInForce]

/-- The history permits what the store authorizes.  Everything about stores has been
translated into words about answered requests after this. -/
theorem authorized_iff_permitted {events : List (ServerEvent κ)} {outside : Surroundings κ}
    {form : TokenExchangeForm} {c : TokenClaims} {m : ResourceMapping} :
    Authorized (rt.exchangeService outside) (rt.storeAfter events) form c m ↔
      Permitted rt (rt.historyOf events) outside form c m := by
  have hconflict : (PolicyStore.policy (rt.storeAfter events)).ClaimConflict form.requestedScopes ↔
      ∃ s ∈ form.requestedScopes, ∃ s' ∈ form.requestedScopes, s ≠ s' ∧ ∃ k v v',
        ClaimInForce rt (rt.historyOf events) s k v ∧
          ClaimInForce rt (rt.historyOf events) s' k v' ∧
          (v.isString = false ∨ v'.isString = false) := by
    simp only [Policy.ClaimConflict, claim_after_iff]
  constructor
  · intro h
    exact ⟨h.grantType, h.tokenType, h.verified, (mapping_after_iff events _ _ _).mp h.mapping,
      h.scopes, fun hc => h.consistent (hconflict.mpr hc), h.audience⟩
  · intro h
    exact ⟨h.grantType, h.tokenType, h.verified, (mapping_after_iff events _ _ _).mpr h.mapping,
      h.scopes, fun hc => h.consistent (hconflict.mp hc), h.audience⟩

/-- The endpoint calls the generator once for an authorized request, and not at all
otherwise.  Whether the generator then fails is its own matter. -/
theorem calls_of_tokenExchange {σ : Type} [PolicyStore σ] (svc : TokenExchangeService)
    (store : σ) (env : Environment) (form : TokenExchangeForm) :
    ((∃ c m, Authorized svc store form c m) ∧
      ∃ call, (tokenExchange svc store env form).2 = [call]) ∨
    ((¬ ∃ c m, Authorized svc store form c m) ∧ (tokenExchange svc store env form).2 = []) := by
  by_cases hauth : ∃ c m, Authorized svc store form c m
  · obtain ⟨c, m, h⟩ := hauth
    obtain ⟨call, hcall, -⟩ := h.tokenExchange_call env
    exact Or.inl ⟨⟨c, m, h⟩, call, hcall⟩
  · obtain ⟨r, hfail⟩ := (authorized_or_firstFailure svc store form).resolve_left hauth
    exact Or.inr ⟨hauth, by rw [hfail.tokenExchange_eq env]⟩

/-- **Issuance is decided by the history.**  After any run from an empty store,
a request calls the generator exactly when it is a token request that the history
permits, and then it calls it once. -/
theorem issued_iff_permitted (rt : JwtletRuntime κ) (events : List (ServerEvent κ))
    (ev : ServerEvent κ) :
    ((rt.step (rt.storeAfter events) ev).1.calls ≠ [] ↔
      ∃ form c m, ev.tokenForm = some form ∧
        Permitted rt (rt.historyOf events) ev.outside form c m) ∧
    (rt.step (rt.storeAfter events) ev).1.calls.length ≤ 1 := by
  cases hform : ev.tokenForm with
  | none =>
      rw [calls_of_no_form hform]
      simp
  | some form =>
      have hiff : (∃ form' c m, some form = some form' ∧
          Permitted rt (rt.historyOf events) ev.outside form' c m) ↔
            ∃ c m, Authorized (rt.exchangeService ev.outside) (rt.storeAfter events) form c m := by
        simp [authorized_iff_permitted]
      rw [step_of_tokenForm hform, hiff]
      rcases calls_of_tokenExchange (rt.exchangeService ev.outside) (rt.storeAfter events)
        ev.outside.env form with ⟨hauth, call, hcall⟩ | ⟨hauth, hnone⟩
      · rw [hcall]
        exact ⟨iff_of_true (List.cons_ne_nil _ _) hauth, le_rfl⟩
      · rw [hnone]
        exact ⟨iff_of_false (fun hne => hne rfl) hauth, Nat.zero_le 1⟩

/-- The claims of a token that a form gets for the verified client `c` after the history
`h`: those the exchange writes itself, and the contributions of the scopes in force. -/
structure IssuedFrom (rt : JwtletRuntime κ) (h : List (ServerEntry κ)) (env : Environment)
    (form : TokenExchangeForm) (c : TokenClaims) (t : TokenClaims) : Prop where
  sub : t.sub = form.resource
  iss : t.iss = rt.tokenService.issuer
  aud : t.aud = form.audience.getD rt.tokenService.audience
  jti : t.custom["jti"]? = some (.string env.uuid)
  act : ∃ act, t.custom["act"]? = some (.ofMap act) ∧ IsActor c act
  /-- Every other claim is made of the claims in force for the requested scopes, in
  their ascending order. -/
  others : ∃ claimOf : String → String → Option Json,
    (∀ s k v, claimOf s k = some v ↔ ClaimInForce rt h s k v) ∧
    ∀ k, k ≠ "jti" → k ≠ "act" → t.custom[k]? = ResourceService.joined
      ((Std.ExtTreeSet.ofList form.requestedScopes compare : BTreeSet String).toList.filterMap
        fun s => claimOf s k)

/-- The store of a run holds a valid policy, because every record in it passed validation.
-/
theorem storeAfter_valid (rt : JwtletRuntime κ) (events : List (ServerEvent κ)) :
    (PolicyStore.policy (rt.storeAfter events)).Valid := by
  rw [storeAfter_eq]
  exact reachable_valid (operations rt events)

/-- A call of the generator has the claims in force, and the request behind it was
permitted. -/
theorem issuedFrom_of_call {events : List (ServerEvent κ)} {outside : Surroundings κ}
    {form : TokenExchangeForm} {call : GeneratorCall}
    (hcall : call ∈ (tokenExchange (rt.exchangeService outside) (rt.storeAfter events) outside.env
      form).2) :
    ∃ c m, Permitted rt (rt.historyOf events) outside form c m ∧
      IssuedFrom rt (rt.historyOf events) outside.env form c call.claims := by
  have hauth : ∃ c m, Authorized (rt.exchangeService outside) (rt.storeAfter events) form c m := by
    rcases calls_of_tokenExchange (rt.exchangeService outside) (rt.storeAfter events) outside.env
      form with ⟨hauth, -⟩ | ⟨-, hnone⟩
    · exact hauth
    · rw [hnone] at hcall
      cases hcall
  obtain ⟨c, m, hauth⟩ := hauth
  obtain ⟨c', r, aud, hv, hr, hverified, haud, hclaims⟩ :=
    exchangeToken_call (mem_tokenExchange_calls hcall)
  have hc : c' = c := Except.ok.inj (hv.symm.trans hauth.verified)
  subst hc
  refine ⟨c', m, authorized_iff_permitted.mp hauth, ?_⟩
  rw [hclaims, resolveAudience_eq_ok haud]
  obtain ⟨act, hact, hactor⟩ := exists_isActor c'
  refine ⟨rfl, rfl, rfl, ?_, ⟨act, ?_, hactor⟩, _, claim_after_iff events, fun k hjti hk => ?_⟩
  · rw [getElem?_participantClaims_custom, if_pos rfl]
  · rw [getElem?_participantClaims_custom, if_neg (by decide), if_pos rfl, hact]
  · have hmerged := verified_claims hr hverified k
    rw [setOfList_toList] at hmerged
    rw [getElem?_participantClaims_custom, if_neg hjti, if_neg hk, ← hmerged]
    split
    · -- No reserved claim gets into a merge.
      next hreserved =>
      cases hvalue : r.claims[k]? with
      | none => rfl
      | some v =>
          have hmem : k ∈ r.claims := by
            rw [← Std.ExtTreeMap.isSome_getElem?_iff_mem, hvalue]
            rfl
          have hfree := merged_claim_not_reserved (storeAfter_valid rt events) hr hmem
          rw [hfree] at hreserved
          cases hreserved
    · rfl

/-- **The claims of a token are those in force.**  After any run from an empty
store, whatever the generator is called with is, claim by claim, what the history
has put in force for the verified client and the requested scopes. -/
theorem issued_claims_in_force (rt : JwtletRuntime κ) (events : List (ServerEvent κ))
    (ev : ServerEvent κ) :
    ∀ call ∈ (rt.step (rt.storeAfter events) ev).1.calls, ∃ form c m,
      ev.tokenForm = some form ∧ Permitted rt (rt.historyOf events) ev.outside form c m ∧
      IssuedFrom rt (rt.historyOf events) ev.outside.env form c call.claims := by
  intro call hcall
  cases hform : ev.tokenForm with
  | none =>
      rw [calls_of_no_form hform] at hcall
      cases hcall
  | some form =>
      rw [step_of_tokenForm hform] at hcall
      obtain ⟨c, m, hpermitted, hissued⟩ := issuedFrom_of_call hcall
      exact ⟨form, c, m, rfl, hpermitted, hissued⟩

/-- The token for reading in `ctx` after the administrator has set it up, with the role of
a reader. -/
theorem issued_claims_in_force_sample :
    ∃ call ∈ (sampleRuntime.step (sampleRuntime.storeAfter [createMappingEvent, createScopeEvent])
        exchangeEvent).1.calls, ∃ form c m, exchangeEvent.tokenForm = some form ∧
      Permitted sampleRuntime (sampleRuntime.historyOf [createMappingEvent, createScopeEvent])
        sampleOutside form c m ∧
      IssuedFrom sampleRuntime (sampleRuntime.historyOf [createMappingEvent, createScopeEvent])
        sampleEnvironment form c call.claims := by
  have hne : (sampleRuntime.step (sampleRuntime.storeAfter [createMappingEvent, createScopeEvent])
      exchangeEvent).1.calls ≠ [] := by decide +kernel
  obtain ⟨call, hcall⟩ := List.exists_mem_of_ne_nil _ hne
  exact ⟨call, hcall, issued_claims_in_force sampleRuntime [createMappingEvent, createScopeEvent]
    exchangeEvent call hcall⟩

end Issuance

end Jwtlet

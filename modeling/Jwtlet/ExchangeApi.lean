import Jwtlet.Http
import Jwtlet.TokenExchange

/-!
# The token endpoint

`token_exchange` of `jwtlet-server/src/exchange/mod.rs` with the error responses
of `error.rs`, and what the whole path from the form to the generator decides.

`FirstFailure` lists the checks in the order of the code with the response of
each; `tokenExchange_authorization_exact` says that the endpoint calls the
generator exactly when all checks pass and answers with the first that fails
otherwise.
-/

namespace Jwtlet

open Rust

/-- The one grant type that the endpoint supports, as RFC 8693 names it. -/
def tokenExchangeGrantType : String := "urn:ietf:params:oauth:grant-type:token-exchange"

/-- The type of the tokens that are issued, and the only type that a subject token may
have. -/
def issuedTokenType : String := "urn:ietf:params:oauth:token-type:jwt"

/-- `TokenExchangeForm`: the fields of a token request.  The participant context is sent
as `resource`, and the scopes are one string. -/
structure TokenExchangeForm where
  grantType : String
  subjectToken : String
  subjectTokenType : String
  resource : String
  scope : Option String
  audience : Option String

/-- `TokenExchangeResponse`: what a successful exchange answers.  The lifetime is the
configured one, in seconds. -/
structure TokenExchangeResponse where
  accessToken : String
  issuedTokenType : String
  tokenType : String
  expiresIn : Int64
  scope : Option String
  deriving DecidableEq

/-- `ExchangeApiError`: what the endpoint itself checks before the exchange, and the
errors of the exchange. -/
inductive ExchangeApiError where
  | unsupportedGrantType (grantType : String)
  | unsupportedTokenType (tokenType : String)
  | exchange (e : ExchangeError)

/-- `OAuthErrorResponse`: the error codes of OAuth with a description, which the endpoint
never gives. -/
structure OAuthErrorResponse where
  error : String
  errorDescription : Option String
  deriving DecidableEq

/-- A response of the token endpoint: a token, or an error with its status. -/
inductive ExchangeResponse where
  | token (status : StatusCode) (body : TokenExchangeResponse)
  | failure (status : StatusCode) (body : OAuthErrorResponse)
  deriving DecidableEq

/-- An error response without description, so that nothing but its status and its code
tells errors apart. -/
def oauthError (status : StatusCode) (error : String) : ExchangeResponse :=
  .failure status { error, errorDescription := none }

/-- `into_response` of the errors.  What is refused by policy is one response, and so is
whatever the subject token is refused for. -/
def ExchangeApiError.intoResponse : ExchangeApiError → ExchangeResponse
  | .unsupportedGrantType _ => oauthError .badRequest "unsupported_grant_type"
  | .unsupportedTokenType _ => oauthError .badRequest "invalid_request"
  | .exchange (.tokenVerification _) => oauthError .badRequest "invalid_grant"
  | .exchange .unauthorized => oauthError .forbidden "unauthorized_client"
  | .exchange (.scopeConflict _) => oauthError .badRequest "invalid_scope"
  | .exchange (.serviceError _) | .exchange (.generation _) =>
      oauthError .internalServerError "server_error"

/-- The words of the scope parameter, in their order and with repetitions.  A request
without the parameter asks for none. -/
def TokenExchangeForm.requestedScopes (form : TokenExchangeForm) : List String :=
  splitWhitespace (form.scope.getD "")

/-- `token_exchange`: the response, and the calls of the generator it made.  The scopes
that are granted are those requested, written in ascending order. -/
def tokenExchange {σ : Type} [ResourceStore σ] (svc : TokenExchangeService) (store : σ)
    (env : Environment) (form : TokenExchangeForm) : ExchangeResponse × List GeneratorCall :=
  if form.grantType ≠ tokenExchangeGrantType then
    ((ExchangeApiError.unsupportedGrantType form.grantType).intoResponse, [])
  else if form.subjectTokenType ≠ issuedTokenType then
    ((ExchangeApiError.unsupportedTokenType form.subjectTokenType).intoResponse, [])
  else
    let scopes : BTreeSet String := Std.ExtTreeSet.ofList form.requestedScopes compare
    let grantedScope :=
      if scopes.isEmpty then none else some (String.intercalate " " scopes.toList)
    let (result, calls) :=
      exchangeToken svc store env form.resource scopes.toList form.subjectToken form.audience
    match result with
    | .error e => ((ExchangeApiError.exchange e).intoResponse, calls)
    | .ok token =>
        (.token .ok
          { accessToken := token
            issuedTokenType := issuedTokenType
            tokenType := "Bearer"
            expiresIn := svc.tokenTtlSecs
            scope := grantedScope }, calls)

/-- The audience that a request aims at: the requested one, or else the default of the
service. -/
def TokenExchangeForm.targetAudience (form : TokenExchangeForm) (svc : TokenExchangeService) :
    String :=
  form.audience.getD svc.audience

section Authorization

variable {σ : Type} [PolicyStore σ]

/-- Everything an exchange by the verified client `c` under mapping `m` needs.  It speaks
of the policy and of the request, not of the order of the checks. -/
structure Authorized (svc : TokenExchangeService) (store : σ) (form : TokenExchangeForm)
    (c : TokenClaims) (m : ResourceMapping) : Prop where
  grantType : form.grantType = tokenExchangeGrantType
  tokenType : form.subjectTokenType = issuedTokenType
  verified : svc.verifier svc.clientAudience form.subjectToken = .ok c
  mapping : (PolicyStore.policy store).mapping (c.sub, form.resource) = some m
  scopes : ∀ s ∈ form.requestedScopes, s ∈ m.scopes
  consistent : ¬ (PolicyStore.policy store).ClaimConflict form.requestedScopes
  audience : m.PermitsAudience svc.audience (form.targetAudience svc)

/-- The first check that fails, with its response.  Each case assumes that the checks
before it pass, so that at most one case applies. -/
inductive FirstFailure (svc : TokenExchangeService) (store : σ) (form : TokenExchangeForm) :
    ExchangeResponse → Prop
  | grantType (hg : form.grantType ≠ tokenExchangeGrantType) :
      FirstFailure svc store form (oauthError 400 "unsupported_grant_type")
  | tokenType (hg : form.grantType = tokenExchangeGrantType)
      (ht : form.subjectTokenType ≠ issuedTokenType) :
      FirstFailure svc store form (oauthError 400 "invalid_request")
  | subjectToken (hg : form.grantType = tokenExchangeGrantType)
      (ht : form.subjectTokenType = issuedTokenType) {e : JwtVerificationError}
      (hv : svc.verifier svc.clientAudience form.subjectToken = .error e) :
      FirstFailure svc store form (oauthError 400 "invalid_grant")
  | mapping (hg : form.grantType = tokenExchangeGrantType)
      (ht : form.subjectTokenType = issuedTokenType) {c : TokenClaims}
      (hv : svc.verifier svc.clientAudience form.subjectToken = .ok c)
      (hm : (PolicyStore.policy store).mapping (c.sub, form.resource) = none) :
      FirstFailure svc store form (oauthError 403 "unauthorized_client")
  | scope (hg : form.grantType = tokenExchangeGrantType)
      (ht : form.subjectTokenType = issuedTokenType) {c : TokenClaims}
      (hv : svc.verifier svc.clientAudience form.subjectToken = .ok c) {m : ResourceMapping}
      (hm : (PolicyStore.policy store).mapping (c.sub, form.resource) = some m)
      (hs : ¬ ∀ s ∈ form.requestedScopes, s ∈ m.scopes) :
      FirstFailure svc store form (oauthError 403 "unauthorized_client")
  | conflict (hg : form.grantType = tokenExchangeGrantType)
      (ht : form.subjectTokenType = issuedTokenType) {c : TokenClaims}
      (hv : svc.verifier svc.clientAudience form.subjectToken = .ok c) {m : ResourceMapping}
      (hm : (PolicyStore.policy store).mapping (c.sub, form.resource) = some m)
      (hs : ∀ s ∈ form.requestedScopes, s ∈ m.scopes)
      (hc : (PolicyStore.policy store).ClaimConflict form.requestedScopes) :
      FirstFailure svc store form (oauthError 400 "invalid_scope")
  | audience (hg : form.grantType = tokenExchangeGrantType)
      (ht : form.subjectTokenType = issuedTokenType) {c : TokenClaims}
      (hv : svc.verifier svc.clientAudience form.subjectToken = .ok c) {m : ResourceMapping}
      (hm : (PolicyStore.policy store).mapping (c.sub, form.resource) = some m)
      (hs : ∀ s ∈ form.requestedScopes, s ∈ m.scopes)
      (hc : ¬ (PolicyStore.policy store).ClaimConflict form.requestedScopes)
      (ha : ¬ m.PermitsAudience svc.audience (form.targetAudience svc)) :
      FirstFailure svc store form (oauthError 403 "unauthorized_client")

variable {svc : TokenExchangeService} {store : σ} {env : Environment}
  {form : TokenExchangeForm}

/-- The claims that the exchange of a well-formed request prepares, with the set of its
scopes. -/
def TokenExchangeForm.prepare (form : TokenExchangeForm) (svc : TokenExchangeService)
    (store : σ) (env : Environment) : Except ExchangeError TokenClaims :=
  prepareClaims svc store env form.resource
    (Std.ExtTreeSet.ofList form.requestedScopes compare : BTreeSet String).toList
    form.subjectToken form.audience

/-- The set of requested scopes has the words of the parameter as elements, each once. -/
theorem mem_requestedScopes_toList (form : TokenExchangeForm) (s : String) :
    s ∈ (Std.ExtTreeSet.ofList form.requestedScopes compare : BTreeSet String).toList ↔
      s ∈ form.requestedScopes := by
  rw [Std.ExtTreeSet.mem_toList, mem_ofList]

/-- A well-formed request whose exchange fails before the generator is answered with the
response to that error. -/
theorem tokenExchange_of_error (hg : form.grantType = tokenExchangeGrantType)
    (ht : form.subjectTokenType = issuedTokenType) {e : ExchangeError}
    (h : form.prepare svc store env = .error e) :
    tokenExchange svc store env form = ((ExchangeApiError.exchange e).intoResponse, []) := by
  rw [TokenExchangeForm.prepare] at h
  simp [tokenExchange, hg, ht, exchangeToken, h]

/-- A well-formed request whose claims reach the generator calls it once, with these
claims and in the context of jwtlet. -/
theorem tokenExchange_of_claims (hg : form.grantType = tokenExchangeGrantType)
    (ht : form.subjectTokenType = issuedTokenType) {claims : TokenClaims}
    (h : form.prepare svc store env = .ok claims) :
    (tokenExchange svc store env form).2 =
      [{ context := { id := svc.jwtletParticipantContext }, claims }] := by
  rw [TokenExchangeForm.prepare] at h
  simp only [tokenExchange, hg, ht, exchangeToken, h]
  cases svc.generator { id := svc.jwtletParticipantContext } claims <;> rfl

/-- A check that fails first answers with its response, and the generator is not
called. -/
theorem FirstFailure.tokenExchange_eq {r : ExchangeResponse} (h : FirstFailure svc store form r)
    (env : Environment) : tokenExchange svc store env form = (r, []) := by
  cases h with
  | grantType hg =>
      simp [tokenExchange, hg, ExchangeApiError.intoResponse, StatusCode.badRequest]
  | tokenType hg ht =>
      simp [tokenExchange, hg, ht, ExchangeApiError.intoResponse, StatusCode.badRequest]
  | subjectToken hg ht hv => exact tokenExchange_of_error hg ht (prepareClaims_of_rejected hv)
  | mapping hg ht hv hm => exact tokenExchange_of_error hg ht (prepareClaims_of_no_mapping hv hm)
  | scope hg ht hv hm hs =>
      simp only [← mem_requestedScopes_toList form] at hs
      exact tokenExchange_of_error hg ht (prepareClaims_of_scope_denied hv hm hs)
  | conflict hg ht hv hm hs hc =>
      simp only [← mem_requestedScopes_toList form] at hs
      rw [← Policy.claimConflict_congr (mem_requestedScopes_toList form)] at hc
      obtain ⟨msg, hmsg⟩ := prepareClaims_of_conflict hv hm hs hc
      exact tokenExchange_of_error hg ht hmsg
  | audience hg ht hv hm hs hc ha =>
      simp only [← mem_requestedScopes_toList form] at hs
      rw [← Policy.claimConflict_congr (mem_requestedScopes_toList form)] at hc
      exact tokenExchange_of_error hg ht (prepareClaims_of_audience_denied hv hm hs hc ha)

/-- An authorized request calls the generator once, for the target audience. -/
theorem Authorized.tokenExchange_call {c : TokenClaims} {m : ResourceMapping}
    (h : Authorized svc store form c m) (env : Environment) :
    ∃ call, (tokenExchange svc store env form).2 = [call] ∧
      call.claims.aud = form.targetAudience svc := by
  have hs := h.scopes
  simp only [← mem_requestedScopes_toList form] at hs
  have hc := h.consistent
  rw [← Policy.claimConflict_congr (mem_requestedScopes_toList form)] at hc
  obtain ⟨claims, hok⟩ := prepareClaims_of_granted h.verified h.mapping hs hc h.audience
  exact ⟨_, tokenExchange_of_claims h.grantType h.tokenType hok, rfl⟩

/-- Either all checks pass or one fails first.  The cases are split in the order in which
the code makes the checks. -/
theorem authorized_or_firstFailure (svc : TokenExchangeService) (store : σ)
    (form : TokenExchangeForm) :
    (∃ c m, Authorized svc store form c m) ∨ ∃ r, FirstFailure svc store form r := by
  by_cases hg : form.grantType = tokenExchangeGrantType
  swap
  · exact Or.inr ⟨_, .grantType hg⟩
  by_cases ht : form.subjectTokenType = issuedTokenType
  swap
  · exact Or.inr ⟨_, .tokenType hg ht⟩
  cases hv : svc.verifier svc.clientAudience form.subjectToken with
  | error e => exact Or.inr ⟨_, .subjectToken hg ht hv⟩
  | ok c =>
      cases hm : (PolicyStore.policy store).mapping (c.sub, form.resource) with
      | none => exact Or.inr ⟨_, .mapping hg ht hv hm⟩
      | some m =>
          by_cases hs : ∀ s ∈ form.requestedScopes, s ∈ m.scopes
          swap
          · exact Or.inr ⟨_, .scope hg ht hv hm hs⟩
          by_cases hc : (PolicyStore.policy store).ClaimConflict form.requestedScopes
          · exact Or.inr ⟨_, .conflict hg ht hv hm hs hc⟩
          by_cases ha : m.PermitsAudience svc.audience (form.targetAudience svc)
          · exact Or.inl ⟨c, m, ⟨hg, ht, hv, hm, hs, hc, ha⟩⟩
          · exact Or.inr ⟨_, .audience hg ht hv hm hs hc ha⟩

/-- **Authorization exactness.**  The endpoint calls the generator exactly when
the request is authorized; then it calls it once, for the target audience.
Otherwise the generator is not called and the response is that of the first
failing check. -/
theorem tokenExchange_authorization_exact (svc : TokenExchangeService) (store : σ)
    (env : Environment) (form : TokenExchangeForm) :
    ((tokenExchange svc store env form).2 ≠ [] ↔ ∃ c m, Authorized svc store form c m) ∧
    ((∃ c m, Authorized svc store form c m) →
      ∃ call, (tokenExchange svc store env form).2 = [call] ∧
        call.claims.aud = form.targetAudience svc) ∧
    ((¬ ∃ c m, Authorized svc store form c m) →
      (tokenExchange svc store env form).2 = [] ∧
        FirstFailure svc store form (tokenExchange svc store env form).1) := by
  have hcalled : (∃ c m, Authorized svc store form c m) →
      ∃ call, (tokenExchange svc store env form).2 = [call] ∧
        call.claims.aud = form.targetAudience svc := by
    intro hauthorized
    obtain ⟨c, m, hauth⟩ := hauthorized
    exact hauth.tokenExchange_call env
  have hrefused : (¬ ∃ c m, Authorized svc store form c m) →
      (tokenExchange svc store env form).2 = [] ∧
        FirstFailure svc store form (tokenExchange svc store env form).1 := by
    intro hno
    obtain ⟨r, hfail⟩ := (authorized_or_firstFailure svc store form).resolve_left hno
    rw [hfail.tokenExchange_eq env]
    exact ⟨rfl, hfail⟩
  refine ⟨⟨fun hne => ?_, fun hauth => ?_⟩, hcalled, hrefused⟩
  · by_contra hno
    exact hne (hrefused hno).1
  · obtain ⟨call, hcall, -⟩ := hcalled hauth
    rw [hcall]
    exact List.cons_ne_nil _ _

end Authorization

/-- The claims of a service account, as the verifier of a cluster gives them. -/
def sampleClient : TokenClaims where
  sub := "client"
  iss := "https://cluster"
  aud := "jwtlet-exchange"
  iat := 1699999000
  exp := 1700002600
  nbf := none
  custom := Std.ExtTreeMap.ofList [(k8sUidClaim, .string "7c1e")] compare

/-- A service whose verifier knows one token, the one of the sample client, and whose
generator signs everything. -/
def sampleService : TokenExchangeService where
  clientAudience := "jwtlet-exchange"
  audience := "https://api"
  issuer := "https://jwtlet"
  verifier := fun audience token =>
    if audience = "jwtlet-exchange" ∧ token = "sa-token" then .ok sampleClient
    else .error .invalidSignature
  generator := fun _ _ => .ok "token"

/-- A clock and an id for a sample exchange. -/
def sampleEnvironment : Environment where
  now := { secs := 1700000000, min_le := by decide, le_max := by decide }
  uuid := "3b241101-e2bb-4255-8caf-4136c566a962"

/-- A request for `read` and `write` and the default audience. -/
def sampleForm : TokenExchangeForm where
  grantType := tokenExchangeGrantType
  subjectToken := "sa-token"
  subjectTokenType := issuedTokenType
  resource := "ctx"
  scope := some "read write"
  audience := none

end Jwtlet

import Jwtlet.ScopeParameter

/-!
# The phases of a token exchange

`token_exchange` and `exchange_token` in three parts: the checks and the
verification of the subject token, the one question to the store, and what is made
of its answer.
-/

namespace Jwtlet

open Rust

/-- `token_exchange` and `exchange_token` up to the store: the verified client, or the
response to a request that does not get that far. -/
def prepareExchange (svc : TokenExchangeService) (form : TokenExchangeForm) :
    Except ExchangeResponse TokenClaims :=
  if form.grantType ≠ tokenExchangeGrantType then
    .error (ExchangeApiError.unsupportedGrantType form.grantType).intoResponse
  else if form.subjectTokenType ≠ issuedTokenType then
    .error (ExchangeApiError.unsupportedTokenType form.subjectTokenType).intoResponse
  else
    match svc.verifier svc.clientAudience form.subjectToken with
    | .error e => .error (ExchangeApiError.exchange (.tokenVerification e)).intoResponse
    | .ok clientClaims => .ok clientClaims

/-- `exchange_token` and `token_exchange` from the answer of the store on.  The store is
not asked again, and the generator is called here if it is called at all. -/
def finishExchange (svc : TokenExchangeService) (env : Environment) (form : TokenExchangeForm)
    (clientClaims : TokenClaims) (verification : Except ResourceError VerificationResult) :
    ExchangeResponse × List GeneratorCall :=
  match verification with
  | .error (.claimConflict msg) => ((ExchangeApiError.exchange (.scopeConflict msg)).intoResponse, [])
  | .error e => ((ExchangeApiError.exchange (.serviceError e)).intoResponse, [])
  | .ok verification =>
      if !verification.verified then ((ExchangeApiError.exchange .unauthorized).intoResponse, [])
      else
        match resolveAudience form.audience verification.audiences svc.audience with
        | .error e => ((ExchangeApiError.exchange e).intoResponse, [])
        | .ok aud =>
            let claims :=
              participantClaims svc env form.resource clientClaims verification.claims aud
            let jwtletPc : ParticipantContext := { id := svc.jwtletParticipantContext }
            match svc.generator jwtletPc claims with
            | .error e =>
                ((ExchangeApiError.exchange (.generation e)).intoResponse,
                  [{ context := jwtletPc, claims }])
            | .ok token =>
                (.token .ok
                  { accessToken := token
                    issuedTokenType := issuedTokenType
                    tokenType := "Bearer"
                    expiresIn := svc.tokenTtlSecs
                    scope := form.grantedScope },
                  [{ context := jwtletPc, claims }])

/-- The phases, one after the other, are the endpoint.  So an exchange asks the store one
question, for the mapping and the claims of the verified client. -/
theorem tokenExchange_eq_phases {σ : Type} [ResourceStore σ] (svc : TokenExchangeService)
    (store : σ) (env : Environment) (form : TokenExchangeForm) :
    tokenExchange svc store env form =
      match prepareExchange svc form with
      | .error response => (response, [])
      | .ok clientClaims =>
          finishExchange svc env form clientClaims
            (ResourceService.verify store clientClaims.sub form.resource form.scopeSet.toList) := by
  rw [tokenExchange, prepareExchange]
  split
  · rfl
  · split
    · rfl
    · simp only [exchangeToken, prepareClaims]
      cases svc.verifier svc.clientAudience form.subjectToken with
      | error e => rfl
      | ok c =>
          simp only [TokenExchangeForm.scopeSet, finishExchange]
          cases ResourceService.verify store c.sub form.resource
            (Std.ExtTreeSet.ofList form.requestedScopes compare : BTreeSet String).toList with
          | error e => cases e <;> rfl
          | ok verification =>
              cases hverified : verification.verified with
              | false => simp [hverified]
              | true =>
                  simp only [hverified, Bool.not_true, Bool.false_eq_true, if_false]
                  cases resolveAudience form.audience verification.audiences svc.audience with
                  | error e => rfl
                  | ok aud =>
                      simp only [Except.map]
                      cases svc.generator ⟨svc.jwtletParticipantContext⟩
                        (participantClaims svc env form.resource c verification.claims aud) <;> rfl

end Jwtlet

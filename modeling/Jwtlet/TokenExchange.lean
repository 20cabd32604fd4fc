import Jwtlet.ResourceService

/-!
# Token exchange

`TokenExchangeService::exchange_token` of `jwtlet-core/src/token/mod.rs`.  The
verifier and the generator are parameters of the service, as they are traits of
another crate; every call of the generator is recorded.  The clock and the
generated id are what one exchange reads from outside.

Each way an exchange can end has its lemma (`prepareClaims_of_*`), stated
against the policy that the store holds.
-/

namespace Jwtlet

open Rust

/-- `TokenClaims`, for the tokens that are verified as for those that are issued.  The map
`custom` is flattened into the payload, so its keys stand beside the registered claims. -/
structure TokenClaims where
  sub : String
  iss : String
  aud : String
  iat : Int64
  exp : Int64
  nbf : Option Int64
  custom : Map
  deriving DecidableEq

/-- `JwtVerificationError`, as far as the code tells its variants apart.  The endpoint
answers all of them alike. -/
inductive JwtVerificationError where
  | verificationFailed (msg : String)
  | invalidSignature
  | other (msg : String)
  deriving DecidableEq, Repr

/-- `JwtGenerationError`: the generator could not make a token.  Its text is logged and
never shown to a client. -/
structure JwtGenerationError where
  msg : String
  deriving DecidableEq, Repr

/-- `ParticipantContext`, of which the exchange sets the identifier.  It tells the
generator whose key to sign with. -/
structure ParticipantContext where
  id : String
  deriving DecidableEq, Repr

/-- `JwtVerifier::verify_token`: it takes the audience that a token must be for and the
token, and gives the claims of the token or says why it is not accepted. -/
abbrev JwtVerifier := String → String → Except JwtVerificationError TokenClaims

/-- `JwtGenerator::generate_token`: it signs the given claims, and may fail at it.  What a
signed token looks like is left to it. -/
abbrev JwtGenerator := ParticipantContext → TokenClaims → Except JwtGenerationError String

/-- What `Utc::now().timestamp()` can return: the seconds between the bounds
`DateTime::<Utc>::MIN_UTC` and `MAX_UTC` of `chrono`. -/
structure UtcTimestamp where
  secs : Int64
  min_le : -8334601228800 ≤ secs.toInt
  le_max : secs.toInt ≤ 8210266876799

/-- What one exchange reads from outside: the clock and a new id.  Each exchange has its
own, so that time may pass between two of them. -/
structure Environment where
  now : UtcTimestamp
  uuid : String

/-- The longest lifetime that the validation of the configuration allows for a token, one
day. -/
def maxTokenTtlSecs : Int64 := 86400

/-- The custom claim with the Kubernetes UID of the caller.  The verifier sets it and the
exchange copies it into the actor of the token. -/
def k8sUidClaim : String := "k8s_uid"

/-- `TokenExchangeService` with its defaults.  The verifier and the generator are fields,
as they are trait objects in the code; the store is passed to each operation. -/
structure TokenExchangeService where
  clientAudience : String
  audience : String
  issuer : String
  jwtletParticipantContext : String := "jwtlet_pc"
  tokenTtlSecs : Int64 := 3600
  verifier : JwtVerifier
  generator : JwtGenerator

/-- `ExchangeError`: why an exchange did not give a token.  What is refused by policy is
one variant, so that the reason does not get any further. -/
inductive ExchangeError where
  | tokenVerification (e : JwtVerificationError)
  | unauthorized
  | serviceError (e : ResourceError)
  | scopeConflict (msg : String)
  | generation (e : JwtGenerationError)
  deriving DecidableEq, Repr

/-- One call of the generator, with the claims that it was asked to sign.  It is recorded
whether the generator succeeded or not. -/
structure GeneratorCall where
  context : ParticipantContext
  claims : TokenClaims
  deriving DecidableEq

/-- `resolve_audience`: an empty allowlist permits only the default audience, and any
other permits what is on it, which need not include the default. -/
def resolveAudience (requested : Option String) (allowed : HashSet String) (default : String) :
    Except ExchangeError String :=
  match requested with
  | none =>
      if allowed.isEmpty then .ok default
      else if allowed.contains default then .ok default
      else .error .unauthorized
  | some req =>
      if allowed.isEmpty && req == default then .ok req
      else if allowed.isEmpty then .error .unauthorized
      else if allowed.contains req then .ok req
      else .error .unauthorized

/-- The loop that drops reserved keys from the merged claims.  Validation keeps such keys
out of the store, and this loop would keep them out of a token. -/
def dropReserved (claims : HashMap String Json) : Map :=
  claims.toList.foldl
    (fun custom kv => if isReservedClaim kv.1 then custom else custom.insert kv.1 kv.2) ∅

/-- The `act` claim: the verified client with its issuer and, if the verifier has given
one, its Kubernetes UID. -/
def actorClaim (clientClaims : TokenClaims) : Json :=
  let act : Map := Std.ExtTreeMap.ofList
    [("sub", .string clientClaims.sub), ("iss", .string clientClaims.iss)] compare
  match clientClaims.custom[k8sUidClaim]? with
  | some uid => Json.ofMap (act.insert k8sUidClaim uid)
  | none => Json.ofMap act

/-- The claims handed to the generator.  The registered claims come from the
configuration, the request and the clock, and `act` and `jti` replace any merged claim of
these names. -/
def participantClaims (svc : TokenExchangeService) (env : Environment)
    (participantContext : String) (clientClaims : TokenClaims)
    (claims : HashMap String Json) (aud : String) : TokenClaims :=
  let custom := ((dropReserved claims).insert "act" (actorClaim clientClaims)).insert "jti"
    (.string env.uuid)
  let now := env.now.secs
  { sub := participantContext
    iss := svc.issuer
    aud
    iat := now
    nbf := some now
    exp := now + svc.tokenTtlSecs
    custom }

section Exchange

variable {σ : Type} [ResourceStore σ]

/-- `exchange_token` up to the call of the generator.  The token is verified before the
store is asked, and the audience is resolved after the claims are merged. -/
def prepareClaims (svc : TokenExchangeService) (store : σ) (env : Environment)
    (participantContext : String) (scopes : List String) (authToken : String)
    (audience : Option String) : Except ExchangeError TokenClaims :=
  match svc.verifier svc.clientAudience authToken with
  | .error e => .error (.tokenVerification e)
  | .ok clientClaims =>
      match ResourceService.verify store clientClaims.sub participantContext scopes with
      | .error (.claimConflict msg) => .error (.scopeConflict msg)
      | .error e => .error (.serviceError e)
      | .ok verification =>
          if !verification.verified then .error .unauthorized
          else
            (resolveAudience audience verification.audiences svc.audience).map fun aud =>
              participantClaims svc env participantContext clientClaims verification.claims aud

/-- `exchange_token`: the result, and the calls of the generator it made.  There is one
call if the claims could be prepared, and none otherwise. -/
def exchangeToken (svc : TokenExchangeService) (store : σ) (env : Environment)
    (participantContext : String) (scopes : List String) (authToken : String)
    (audience : Option String) : Except ExchangeError String × List GeneratorCall :=
  match prepareClaims svc store env participantContext scopes authToken audience with
  | .error e => (.error e, [])
  | .ok claims =>
      let jwtletPc : ParticipantContext := { id := svc.jwtletParticipantContext }
      ((svc.generator jwtletPc claims).mapError .generation, [{ context := jwtletPc, claims }])

end Exchange

/-- The keys that a merge of scope claims may pass on to a token: all but the reserved
ones. -/
def issuable (k : String) : Bool := !isReservedClaim k

/-- The loop over the merged claims is a filter: the order in which the hash map is
iterated over does not matter. -/
theorem dropReserved_eq_filter (claims : HashMap String Json) :
    dropReserved claims = claims.filter fun k _ => issuable k := by
  have hflip : (fun (custom : Map) (kv : String × Json) =>
      if isReservedClaim kv.1 then custom else custom.insert kv.1 kv.2) =
      fun custom kv => if issuable kv.1 then custom.insert kv.1 kv.2 else custom := by
    funext custom kv
    cases hk : isReservedClaim kv.1 <;> simp [issuable, hk]
  rw [← ofList_toList (claims.filter fun k _ => issuable k), Std.ExtTreeMap.toList_filter,
    Std.ExtTreeMap.ofList_eq_foldl, List.foldl_filter, dropReserved, hflip]

/-- An audience is permitted: it is the default and there is no allowlist, or it is on the
allowlist.  With an allowlist the default is permitted only if it is listed. -/
def ResourceMapping.PermitsAudience (m : ResourceMapping) (default target : String) : Prop :=
  (m.audiences = ∅ ∧ target = default) ∨ target ∈ m.audiences

/-- A permitted audience is the one that the token gets, whether it was requested or is
the default. -/
theorem resolveAudience_of_permitted {m : ResourceMapping} {requested : Option String}
    {default : String} (h : m.PermitsAudience default (requested.getD default)) :
    resolveAudience requested m.audiences default = .ok (requested.getD default) := by
  have hmem : ∀ target, target ∈ m.audiences → m.audiences.isEmpty = false := by
    intro target ht
    rw [Std.ExtTreeSet.isEmpty_eq_false_iff]
    intro hempty
    rw [hempty] at ht
    exact Std.ExtTreeSet.not_mem_empty ht
  cases requested with
  | none =>
      rcases h with ⟨hempty, -⟩ | hin
      · simp [resolveAudience, hempty]
      · simp only [Option.getD_none] at hin ⊢
        simp [resolveAudience, hmem default hin, Std.ExtTreeSet.contains_iff_mem.mpr hin]
  | some req =>
      rcases h with ⟨hempty, heq⟩ | hin
      · simp only [Option.getD_some] at heq
        simp [resolveAudience, hempty, heq]
      · simp only [Option.getD_some] at hin ⊢
        simp [resolveAudience, hmem req hin, Std.ExtTreeSet.contains_iff_mem.mpr hin]

/-- An audience that is not permitted is refused, also when it is the default that nobody
asked for. -/
theorem resolveAudience_of_not_permitted {m : ResourceMapping} {requested : Option String}
    {default : String} (h : ¬ m.PermitsAudience default (requested.getD default)) :
    resolveAudience requested m.audiences default = .error .unauthorized := by
  simp only [ResourceMapping.PermitsAudience, not_or, not_and,
    ← Std.ExtTreeSet.contains_iff_mem, Bool.not_eq_true] at h
  obtain ⟨hempty, hin⟩ := h
  cases requested with
  | none =>
      have hne : m.audiences ≠ ∅ := fun he => hempty he rfl
      have hfalse := Std.ExtTreeSet.isEmpty_eq_false_iff.mpr hne
      simp only [Option.getD_none] at hin
      simp [resolveAudience, hfalse, hin]
  | some req =>
      simp only [Option.getD_some] at hempty hin
      cases hcase : m.audiences.isEmpty with
      | true =>
          have hne : (req == default) = false := by
            rw [beq_eq_false_iff_ne]
            exact hempty (Std.ExtTreeSet.isEmpty_iff.mp hcase)
          simp [resolveAudience, hcase, hne]
      | false => simp [resolveAudience, hcase, hin]

section Outcomes

variable {σ : Type} [PolicyStore σ] {svc : TokenExchangeService} {store : σ}
  {env : Environment} {participantContext : String} {scopes : List String}
  {authToken : String} {audience : Option String}

/-- A conflict depends only on which scopes are requested, not on how often or in which
order. -/
theorem Policy.claimConflict_congr {p : Policy} {l l' : List String}
    (h : ∀ s, s ∈ l ↔ s ∈ l') : p.ClaimConflict l ↔ p.ClaimConflict l' := by
  simp only [Policy.ClaimConflict, h]

/-- A subject token that is not accepted ends the exchange before the store is asked. -/
theorem prepareClaims_of_rejected {e : JwtVerificationError}
    (hv : svc.verifier svc.clientAudience authToken = .error e) :
    prepareClaims svc store env participantContext scopes authToken audience =
      .error (.tokenVerification e) := by
  simp [prepareClaims, hv]

/-- A verified client without a mapping in the context is refused. -/
theorem prepareClaims_of_no_mapping {c : TokenClaims}
    (hv : svc.verifier svc.clientAudience authToken = .ok c)
    (hm : (PolicyStore.policy store).mapping (c.sub, participantContext) = none) :
    prepareClaims svc store env participantContext scopes authToken audience =
      .error .unauthorized := by
  simp [prepareClaims, hv, ResourceService.verify_eq, Policy.resolve, hm,
    ResourceService.verifyResolved, ResourceService.notVerified]

/-- A verified client that asks for a scope off its mapping is refused, even if the other
scopes are in conflict. -/
theorem prepareClaims_of_scope_denied {c : TokenClaims} {m : ResourceMapping}
    (hv : svc.verifier svc.clientAudience authToken = .ok c)
    (hm : (PolicyStore.policy store).mapping (c.sub, participantContext) = some m)
    (hs : ¬ ∀ s ∈ scopes, s ∈ m.scopes) :
    prepareClaims svc store env participantContext scopes authToken audience =
      .error .unauthorized := by
  obtain ⟨pair, hpair, rfl⟩ := Policy.resolve_of_mapping hm
  have hsub : ¬ ∀ s ∈ (Std.ExtTreeSet.ofList scopes compare : BTreeSet String),
      s ∈ pair.resourceMapping.scopes := by
    simpa only [mem_ofList] using hs
  simp [prepareClaims, hv, ResourceService.verify_eq, hpair,
    ResourceService.verifyResolved_of_not_subset hsub, ResourceService.notVerified]

/-- With all scopes listed, `verify` is the expansion of the scopes. -/
theorem verify_of_granted {c : String} {m : ResourceMapping}
    (hm : (PolicyStore.policy store).mapping (c, participantContext) = some m)
    (hs : ∀ s ∈ scopes, s ∈ m.scopes) :
    ((PolicyStore.policy store).ClaimConflict scopes ∧
      ∃ msg, ResourceService.verify store c participantContext scopes =
        .error (.claimConflict msg)) ∨
    (¬ (PolicyStore.policy store).ClaimConflict scopes ∧
      ∃ claims, ResourceService.verify store c participantContext scopes =
        .ok { verified := true, claims, audiences := m.audiences }) := by
  obtain ⟨pair, hpair, rfl⟩ := Policy.resolve_of_mapping hm
  have hsub : ∀ s ∈ (Std.ExtTreeSet.ofList scopes compare : BTreeSet String),
      s ∈ pair.resourceMapping.scopes := by
    simpa only [mem_ofList] using hs
  have hsame : ∀ s, s ∈ (Std.ExtTreeSet.ofList scopes compare : BTreeSet String).toList ↔
      s ∈ scopes := by
    intro s
    rw [Std.ExtTreeSet.mem_toList, mem_ofList]
  have hconflict := ResourceService.expandScopes_isError_iff hpair hsub
  rw [Policy.claimConflict_congr hsame] at hconflict
  rw [ResourceService.verify_eq, hpair, ResourceService.verifyResolved_of_subset hsub]
  cases hexp : ResourceService.expandScopes pair (Std.ExtTreeSet.ofList scopes compare) with
  | error e =>
      obtain ⟨msg, rfl⟩ := ResourceService.expandScopes_error hexp
      exact Or.inl ⟨hconflict.mp ⟨_, hexp⟩, msg, rfl⟩
  | ok claims =>
      refine Or.inr ⟨?_, claims, rfl⟩
      rw [← hconflict, hexp]
      simp

/-- A verified client whose mapping lists the requested scopes gets a conflict if two of
them are in one, whatever the audience. -/
theorem prepareClaims_of_conflict {c : TokenClaims} {m : ResourceMapping}
    (hv : svc.verifier svc.clientAudience authToken = .ok c)
    (hm : (PolicyStore.policy store).mapping (c.sub, participantContext) = some m)
    (hs : ∀ s ∈ scopes, s ∈ m.scopes)
    (hc : (PolicyStore.policy store).ClaimConflict scopes) :
    ∃ msg, prepareClaims svc store env participantContext scopes authToken audience =
      .error (.scopeConflict msg) := by
  rcases verify_of_granted hm hs with ⟨-, msg, hverify⟩ | ⟨hno, -⟩
  · exact ⟨msg, by simp [prepareClaims, hv, hverify]⟩
  · exact absurd hc hno

/-- A verified client that is granted the scopes is refused if the audience is not
permitted. -/
theorem prepareClaims_of_audience_denied {c : TokenClaims} {m : ResourceMapping}
    (hv : svc.verifier svc.clientAudience authToken = .ok c)
    (hm : (PolicyStore.policy store).mapping (c.sub, participantContext) = some m)
    (hs : ∀ s ∈ scopes, s ∈ m.scopes)
    (hc : ¬ (PolicyStore.policy store).ClaimConflict scopes)
    (ha : ¬ m.PermitsAudience svc.audience (audience.getD svc.audience)) :
    prepareClaims svc store env participantContext scopes authToken audience =
      .error .unauthorized := by
  rcases verify_of_granted hm hs with ⟨hyes, -⟩ | ⟨-, claims, hverify⟩
  · exact absurd hyes hc
  · simp only [prepareClaims, hv, hverify, resolveAudience_of_not_permitted ha]
    rfl

/-- A verified client that is granted the scopes and the audience gets the claims that are
handed to the generator. -/
theorem prepareClaims_of_granted {c : TokenClaims} {m : ResourceMapping}
    (hv : svc.verifier svc.clientAudience authToken = .ok c)
    (hm : (PolicyStore.policy store).mapping (c.sub, participantContext) = some m)
    (hs : ∀ s ∈ scopes, s ∈ m.scopes)
    (hc : ¬ (PolicyStore.policy store).ClaimConflict scopes)
    (ha : m.PermitsAudience svc.audience (audience.getD svc.audience)) :
    ∃ claims, prepareClaims svc store env participantContext scopes authToken audience =
      .ok (participantClaims svc env participantContext c claims
        (audience.getD svc.audience)) := by
  rcases verify_of_granted hm hs with ⟨hyes, -⟩ | ⟨-, claims, hverify⟩
  · exact absurd hyes hc
  · refine ⟨claims, ?_⟩
    simp only [prepareClaims, hv, hverify, resolveAudience_of_permitted ha]
    rfl

end Outcomes

end Jwtlet

import Jwtlet.ExchangeApi
import Jwtlet.ResourceMem

/-!
# Reserved claims in the store, erased

Rows written around the service may give scopes reserved claims.  The exchange
drops them, but only after the merge, so the merge still sees them.
`Policy.stripReserved` is the same policy without them; an exchange cannot tell
the two apart, with one exception: two requested scopes that conflict at a
reserved key are refused like any other conflict.

The argument is that selecting keys commutes with the merge
(`Keyed.accumulate_filter`) as long as no fold at an unselected key fails.
-/

namespace Jwtlet

open Rust

/-- The scope mapping without its reserved keys.  A mapping that passed validation has
none and stays as it is. -/
def ScopeMapping.stripReserved (m : ScopeMapping) : ScopeMapping :=
  { m with claims := m.claims.filter fun k _ => issuable k }

/-- The policy whose scope mappings have no reserved keys.  The resource mappings, which
have no claims, are those of the policy. -/
def Policy.stripReserved (p : Policy) : Policy :=
  { p with scope := fun s => (p.scope s).map ScopeMapping.stripReserved }

/-- Two distinct requested scopes define the same reserved claim key, and one of
the two values is no string. -/
def Policy.ReservedConflict (p : Policy) (requested : List String) : Prop :=
  ∃ s ∈ requested, ∃ s' ∈ requested, s ≠ s' ∧ ∃ k v v', isReservedClaim k = true ∧
    p.claim s k = some v ∧ p.claim s' k = some v' ∧
      (v.isString = false ∨ v'.isString = false)

/-- A conflict at a reserved key is a conflict like any other. -/
theorem Policy.ReservedConflict.claimConflict {p : Policy} {requested : List String}
    (h : p.ReservedConflict requested) : p.ClaimConflict requested := by
  obtain ⟨s, hs, s', hs', hne, k, v, v', -, hv, hv', hstr⟩ := h
  exact ⟨s, hs, s', hs', hne, k, v, v', hv, hv', hstr⟩

/-- Such a conflict depends only on which scopes are requested, not on how often or in
which order. -/
theorem Policy.reservedConflict_congr {p : Policy} {l l' : List String}
    (h : ∀ s, s ∈ l ↔ s ∈ l') : p.ReservedConflict l ↔ p.ReservedConflict l' := by
  simp only [Policy.ReservedConflict, h]

section Merge

variable {p : Policy} {c x : String} {pair : MappingPair} {scopes : BTreeSet String}

/-- The stripped policy resolves to the same mapping with stripped scopes, since which
mapping is found has nothing to do with claims. -/
theorem stripReserved_resolve (h : p.resolve c x = some pair) :
    ∃ pair', p.stripReserved.resolve c x = some pair' ∧
      pair'.resourceMapping = pair.resourceMapping ∧
      ∀ s : String, pair'.scopeMappings[s]? =
        (pair.scopeMappings[s]?).map ScopeMapping.stripReserved := by
  obtain ⟨m, hm, rfl⟩ := Option.map_eq_some_iff.mp h
  obtain ⟨pair', hpair', hsame⟩ :=
    Policy.resolve_of_mapping (show p.stripReserved.mapping (c, x) = some m from hm)
  refine ⟨pair', hpair', hsame, fun s => ?_⟩
  rw [Policy.resolve_scopeMappings hpair', Policy.resolve_scopeMappings h, hsame]
  split <;> rfl

/-- A policy without the mapping has none after stripping, so a client is refused over
both alike. -/
theorem stripReserved_resolve_none (h : p.resolve c x = none) :
    p.stripReserved.resolve c x = none := by
  rw [Policy.resolve, Option.map_eq_none_iff] at h ⊢
  exact h

/-- Stripped scopes contribute the issuable ones of their claims, in the order in which
the scopes contribute them. -/
theorem contributions_stripped {pair pair' : MappingPair}
    (h : ∀ s : String, pair'.scopeMappings[s]? =
      (pair.scopeMappings[s]?).map ScopeMapping.stripReserved)
    (l : List String) :
    ResourceService.contributions pair' l =
      (ResourceService.contributions pair l).filter fun kv => issuable kv.1 := by
  rw [ResourceService.contributions, ResourceService.contributions, List.filter_flatMap]
  apply List.flatMap_congr
  intro s _
  rw [h]
  cases pair.scopeMappings[s]? with
  | none => rfl
  | some sm => exact Std.ExtTreeMap.toList_filter

/-- Without a conflict at a reserved key, no fold at a reserved key fails.  This is what
the selection of keys needs to commute with the merge. -/
theorem foldKey_reserved_ne_error (h : p.resolve c x = some pair)
    (hsub : ∀ s ∈ scopes, s ∈ pair.resourceMapping.scopes)
    (hno : ¬ p.ReservedConflict scopes.toList) (k : String) (e : ResourceError)
    (hk : issuable k = false) :
    Keyed.foldKey ResourceService.combineClaims k (∅ : HashMap String Json)[k]?
      (Keyed.valuesAt k (ResourceService.contributions pair scopes.toList)) ≠ .error e := by
  intro he
  rw [ResourceService.valuesAt_contributions_resolve h hsub,
    Std.ExtTreeMap.getElem?_empty] at he
  obtain ⟨s, hs, s', hs', hne, v, v', hv, hv', hstr⟩ :=
    (ResourceService.foldKey_filterMap_eq_error_iff (nodup_toList scopes) k).mp ⟨e, he⟩
  have hreserved : isReservedClaim k = true := by simpa [issuable] using hk
  exact hno ⟨s, hs, s', hs', hne, k, v, v', hreserved, hv, hv', Or.inl hstr⟩

/-- The merge of stripped scopes is the merge of the scopes, stripped.  If the merge
fails, it fails with the same error. -/
theorem expandScopes_stripped {pair' : MappingPair} (h : p.resolve c x = some pair)
    (hscopes : ∀ s : String, pair'.scopeMappings[s]? =
      (pair.scopeMappings[s]?).map ScopeMapping.stripReserved)
    (hsub : ∀ s ∈ scopes, s ∈ pair.resourceMapping.scopes)
    (hno : ¬ p.ReservedConflict scopes.toList) :
    ResourceService.expandScopes pair' scopes =
      (ResourceService.expandScopes pair scopes).map fun claims =>
        claims.filter fun k _ => issuable k := by
  rw [ResourceService.expandScopes_eq_accumulate, ResourceService.expandScopes_eq_accumulate,
    contributions_stripped hscopes]
  have hfilter := Keyed.accumulate_filter issuable (foldKey_reserved_ne_error h hsub hno)
  have hempty : (∅ : HashMap String Json).filter (fun k _ => issuable k) = ∅ := rfl
  rwa [hempty] at hfilter

end Merge

/-- The result of a verification without reserved claims.  Whether the client is verified,
and for which audiences, stays. -/
def VerificationResult.stripReserved (r : VerificationResult) : VerificationResult :=
  { r with claims := r.claims.filter fun k _ => issuable k }

section Exchange

variable {σ τ : Type} [PolicyStore σ] [PolicyStore τ] {store : σ} {store' : τ}

/-- `verify` over the stripped policy gives the stripped result, unless listed scopes
conflict at a reserved key. -/
theorem verify_stripped (h : PolicyStore.policy store' = (PolicyStore.policy store).stripReserved)
    {c x : String} {scopes : List String}
    (hno : ∀ m, (PolicyStore.policy store).mapping (c, x) = some m →
      (∀ s ∈ scopes, s ∈ m.scopes) → ¬ (PolicyStore.policy store).ReservedConflict scopes) :
    ResourceService.verify store' c x scopes =
      (ResourceService.verify store c x scopes).map VerificationResult.stripReserved := by
  rw [ResourceService.verify_eq, ResourceService.verify_eq, h]
  cases hpair : (PolicyStore.policy store).resolve c x with
  | none =>
      rw [stripReserved_resolve_none hpair]
      rfl
  | some pair =>
      obtain ⟨pair', hpair', hsame, hscopes⟩ := stripReserved_resolve hpair
      rw [hpair']
      by_cases hsub : ∀ s ∈ (Std.ExtTreeSet.ofList scopes compare : BTreeSet String),
          s ∈ pair.resourceMapping.scopes
      · obtain ⟨m, hm, hpair_eq⟩ := Option.map_eq_some_iff.mp hpair
        have hfree := hno m hm (by simpa only [mem_ofList, ← hpair_eq] using hsub)
        rw [← @Policy.reservedConflict_congr (PolicyStore.policy store) (Std.ExtTreeSet.ofList
          scopes compare : BTreeSet String).toList scopes
          (fun s => by rw [Std.ExtTreeSet.mem_toList, mem_ofList])] at hfree
        rw [ResourceService.verifyResolved_of_subset hsub,
          ResourceService.verifyResolved_of_subset (by rwa [hsame]),
          expandScopes_stripped hpair hscopes hsub hfree, hsame]
        cases ResourceService.expandScopes pair (Std.ExtTreeSet.ofList scopes compare) <;> rfl
      · rw [ResourceService.verifyResolved_of_not_subset hsub,
          ResourceService.verifyResolved_of_not_subset (by rwa [hsame])]
        rfl

/-- Reserved claims that reach the issuance are dropped there, so it does not matter
whether they are dropped before. -/
theorem participantClaims_stripped (svc : TokenExchangeService) (env : Environment) (x : String)
    (c : TokenClaims) (claims : HashMap String Json) (aud : String) :
    participantClaims svc env x c (claims.filter fun k _ => issuable k) aud =
      participantClaims svc env x c claims aud := by
  have hdrop : dropReserved (claims.filter fun k _ => issuable k) = dropReserved claims := by
    rw [dropReserved_eq_filter, dropReserved_eq_filter]
    apply Std.ExtTreeMap.ext_getElem?
    intro k
    simp only [Std.ExtTreeMap.getElem?_filter']
    cases claims[k]? with
    | none => rfl
    | some v => cases issuable k <;> simp [Option.filter]
  simp only [participantClaims, hdrop]

/-- The verified caller holds every requested scope, and two of them conflict at a
reserved key.  Only then does the exchange see the reserved claims. -/
def ReachesReservedConflict (svc : TokenExchangeService) (store : σ) (participantContext : String)
    (scopes : List String) (authToken : String) : Prop :=
  ∃ c m, svc.verifier svc.clientAudience authToken = .ok c ∧
    (PolicyStore.policy store).mapping (c.sub, participantContext) = some m ∧
    (∀ s ∈ scopes, s ∈ m.scopes) ∧ (PolicyStore.policy store).ReservedConflict scopes

/-- **Reserved claims in the store are inert up to conflicts.**  Let `store'`
hold the policy of `store` with all reserved keys removed.  Unless the exchange
reaches a conflict at a reserved key, both exchanges have the same result and
hand the same claims to the generator.  If it reaches one, the exchange over
`store` is refused as a scope conflict and the generator is not called. -/
theorem reserved_claims_inert (svc : TokenExchangeService) (store : σ) (store' : τ)
    (env : Environment) (participantContext : String) (scopes : List String)
    (authToken : String) (audience : Option String)
    (h : PolicyStore.policy store' = (PolicyStore.policy store).stripReserved) :
    (¬ ReachesReservedConflict svc store participantContext scopes authToken →
      exchangeToken svc store' env participantContext scopes authToken audience =
        exchangeToken svc store env participantContext scopes authToken audience) ∧
    (ReachesReservedConflict svc store participantContext scopes authToken →
      ∃ msg, exchangeToken svc store env participantContext scopes authToken audience =
        (.error (.scopeConflict msg), [])) := by
  constructor
  · intro hno
    have hprepare : prepareClaims svc store' env participantContext scopes authToken audience =
        prepareClaims svc store env participantContext scopes authToken audience := by
      cases hv : svc.verifier svc.clientAudience authToken with
      | error e => rw [prepareClaims_of_rejected hv, prepareClaims_of_rejected hv]
      | ok c =>
          have hverify := @verify_stripped σ τ _ _ store store' h c.sub participantContext scopes
            (fun m hm hs hc => hno ⟨c, m, hv, hm, hs, hc⟩)
          simp only [prepareClaims, hv, hverify]
          cases ResourceService.verify store c.sub participantContext scopes with
          | error e => rfl
          | ok r =>
              simp only [Except.map, VerificationResult.stripReserved, participantClaims_stripped]
    rw [exchangeToken, exchangeToken, hprepare]
  · intro hreach
    obtain ⟨c, m, hv, hm, hs, hc⟩ := hreach
    obtain ⟨msg, hmsg⟩ := @prepareClaims_of_conflict _ _ svc store env participantContext scopes
      authToken audience c m hv hm hs hc.claimConflict
    exact ⟨msg, by rw [exchangeToken, hmsg]⟩

end Exchange

/-- A memory store with all reserved keys removed from its scope mappings. -/
def InnerStore.stripReserved (store : InnerStore) : InnerStore :=
  { store with scopeMappings := store.scopeMappings.map fun _ m => m.stripReserved }

/-- It holds the stripped policy of the store. -/
theorem policy_stripReserved (store : InnerStore) :
    PolicyStore.policy store.stripReserved = (PolicyStore.policy store).stripReserved := by
  apply Policy.ext
  · rfl
  · funext s
    exact Std.ExtTreeMap.getElem?_map

/-- A scope mapping with the reserved claim `exp`, as only a row that was written around
the service can have it. -/
def expiryMapping (scope : String) (exp : UInt64) : ScopeMapping where
  scope := scope
  claims := Std.ExtTreeMap.ofList
    [("exp", .number (.posInt exp)), ("role", .string scope)] compare

/-- The client may use `read` and `write`, and both scopes set `exp`. -/
def expiryStore : InnerStore where
  entries := Std.ExtTreeMap.ofList [(("client", "ctx"),
    { clientIdentifier := "client", participantContext := "ctx"
      scopes := Std.ExtTreeSet.ofList ["read", "write"] compare, audiences := ∅ })] compare
  scopeMappings := Std.ExtTreeMap.ofList
    [("read", expiryMapping "read" 1), ("write", expiryMapping "write" 2)] compare

/-- With one scope requested, the `exp` of its row changes nothing: the exchange succeeds
over both stores, with the same claims. -/
theorem reserved_claims_inert_sample :
    exchangeToken sampleService expiryStore.stripReserved sampleEnvironment "ctx" ["read"]
      "sa-token" none =
    exchangeToken sampleService expiryStore sampleEnvironment "ctx" ["read"] "sa-token" none := by
  refine (reserved_claims_inert sampleService expiryStore expiryStore.stripReserved
    sampleEnvironment "ctx" ["read"] "sa-token" none (policy_stripReserved expiryStore)).1 ?_
  intro hreach
  obtain ⟨c, m, -, -, -, s, hs, s', hs', hne, -⟩ := hreach
  rw [List.mem_singleton] at hs hs'
  exact hne (hs.trans hs'.symm)

/-- With both scopes requested, the rows conflict at `exp`; without their
reserved keys the exchange succeeds. -/
theorem reserved_claims_conflict :
    PolicyStore.policy expiryStore.stripReserved =
      (PolicyStore.policy expiryStore).stripReserved ∧
    exchangeToken sampleService expiryStore sampleEnvironment "ctx" ["read", "write"]
      "sa-token" none =
        (.error (.scopeConflict "claim key 'exp' is defined by multiple requested scopes"), []) ∧
    (exchangeToken sampleService expiryStore.stripReserved sampleEnvironment "ctx"
      ["read", "write"] "sa-token" none).1 = .ok "token" := by
  exact ⟨policy_stripReserved expiryStore, by decide, by decide +kernel⟩

end Jwtlet

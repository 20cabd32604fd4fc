import Jwtlet.KeyedAccumulation
import Jwtlet.PolicyModel

/-!
# The resource service

`ResourceService` of `jwtlet-core/src/resource/mod.rs`: `verify` decides
whether a client may use the requested scopes in a context and expands the
scopes to claims; the writing operations validate before they reach the store.

The expansion is a nested loop over scopes and their claims with an early
return.  `expandScopes_eq_accumulate` flattens it to one keyed accumulation, and
from there a conflict has an order-free reading (`Policy.ClaimConflict`).
-/

namespace Jwtlet

open Rust

/-- What `verify` returns: whether the client may use the scopes, and if so, their claims
and the audiences that the mapping permits. -/
structure VerificationResult where
  verified : Bool
  claims : HashMap String Json
  audiences : HashSet String
  deriving DecidableEq

namespace ResourceService

/-- The result of a refused verification.  It has no claims and no audiences, and does not
tell why. -/
def notVerified : VerificationResult := { verified := false, claims := ∅, audiences := ∅ }

/-- The body of the inner loop of `verify`.  Two strings are joined with a space between
them; any other second value for a key is a conflict. -/
def mergeClaim (claims : HashMap String Json) (kv : String × Json) :
    Except ResourceError (HashMap String Json) :=
  let (k, v) := kv
  match claims[k]? with
  | some (.string existing) =>
      match v with
      | .string newVal => .ok (claims.insert k (.string (existing ++ " " ++ newVal)))
      | _ => .error (.claimConflict
          ("claim key '" ++ k ++ "' has conflicting types across scopes"))
  | some _ => .error (.claimConflict
      ("claim key '" ++ k ++ "' is defined by multiple requested scopes"))
  | none => .ok (claims.insert k v)

/-- The body of the outer loop of `verify`: the claims of one scope are merged in, and a
scope that nobody has defined adds none. -/
def expandScope (pair : MappingPair) (claims : HashMap String Json) (s : String) :
    Except ResourceError (HashMap String Json) :=
  match pair.scopeMappings[s]? with
  | some sm => sm.claims.toList.foldlM mergeClaim claims
  | none => .ok claims

/-- The outer loop of `verify`, over the requested scopes in ascending order, which starts
with no claims and ends at the first conflict. -/
def expandScopes (pair : MappingPair) (scopes : BTreeSet String) :
    Except ResourceError (HashMap String Json) :=
  scopes.toList.foldlM (expandScope pair) ∅

/-- `verify` after the store has answered: a client without a mapping is refused, and so
is one that asks for a scope off its mapping. -/
def verifyResolved (scopes : BTreeSet String) :
    Option MappingPair → Except ResourceError VerificationResult
  | none => .ok notVerified
  | some pair =>
      if !(scopes.toList.all fun s => pair.resourceMapping.scopes.contains s) then
        .ok notVerified
      else
        (expandScopes pair scopes).map fun claims =>
          { verified := true, claims, audiences := pair.resourceMapping.audiences }

section Operations

variable {σ : Type} [ResourceStore σ]

/-- `ResourceService::verify`: the requested scopes are made a set, the mapping is
resolved, and its answer decides. -/
def verify (store : σ) (clientIdentifier participantContext : String) (scopes : List String) :
    Except ResourceError VerificationResult := do
  let scopes := Std.ExtTreeSet.ofList scopes compare
  let resolved ← ResourceStore.resolveMapping store clientIdentifier participantContext
  verifyResolved scopes resolved

/-- `ResourceService::save`: the mapping is validated, and only then handed to the store.
-/
def save (store : σ) (mapping : ResourceMapping) : Except ResourceError Unit × σ :=
  match validateResourceMapping mapping with
  | .error e => (.error e, store)
  | .ok () => ResourceStore.saveMapping store mapping

/-- `ResourceService::update`: the mapping is validated, and only then handed to the
store. -/
def update (store : σ) (mapping : ResourceMapping) : Except ResourceError Unit × σ :=
  match validateResourceMapping mapping with
  | .error e => (.error e, store)
  | .ok () => ResourceStore.updateMapping store mapping

/-- `ResourceService::remove`, which validates nothing: a key that no valid mapping can
have is simply not there. -/
def remove (store : σ) (clientId context : String) : Except ResourceError Unit × σ :=
  ResourceStore.removeMapping store clientId context

/-- `ResourceService::remove_for`, which validates nothing either. -/
def removeFor (store : σ) (clientId : String) : Except ResourceError Unit × σ :=
  ResourceStore.removeMappingsFor store clientId

/-- `ResourceService::save_scope_mappings`: every mapping of the batch is validated before
the store sees any of them. -/
def saveScopeMappings (store : σ) (mappings : List ScopeMapping) :
    Except ResourceError Unit × σ :=
  match mappings.forM validateScopeMapping with
  | .error e => (.error e, store)
  | .ok () => ResourceStore.saveScopeMappings store mappings

/-- `ResourceService::update_scope_mapping`: the mapping is validated, and only then
handed to the store. -/
def updateScopeMapping (store : σ) (mapping : ScopeMapping) : Except ResourceError Unit × σ :=
  match validateScopeMapping mapping with
  | .error e => (.error e, store)
  | .ok () => ResourceStore.updateScopeMapping store mapping

/-- `ResourceService::delete_scope_mapping`, which validates nothing.  Mappings that list
the scope are left as they are. -/
def deleteScopeMapping (store : σ) (scope : String) : Except ResourceError Unit × σ :=
  ResourceStore.removeScopeMapping store scope

/-- `ResourceService::list_mappings`: what the store lists, without any filter on who
asks. -/
def listMappings (store : σ) : Except ResourceError (List ResourceMapping) :=
  ResourceStore.listMappings store

/-- `ResourceService::list_scope_mappings`: what the store lists, with the claims in full.
-/
def listScopeMappings (store : σ) : Except ResourceError (List ScopeMapping) :=
  ResourceStore.listScopeMappings store

end Operations

/-- What the loop makes of a second value for the claim key `k`, apart from the map that
it is kept in. -/
def combineClaims (k : String) (old new : Json) : Except ResourceError Json :=
  match old with
  | .string existing =>
      match new with
      | .string newVal => .ok (.string (existing ++ " " ++ newVal))
      | _ => .error (.claimConflict
          ("claim key '" ++ k ++ "' has conflicting types across scopes"))
  | _ => .error (.claimConflict
      ("claim key '" ++ k ++ "' is defined by multiple requested scopes"))

/-- An order to iterate over the claims of a scope, which may be another one for each
scope. -/
abbrev ClaimOrder := String → Map → List (String × Json)

/-- Whatever the order, the claims of the map are met, each of them once.  It may depend
on the scope and on the claims. -/
def ClaimOrder.Lawful (order : ClaimOrder) : Prop := ∀ s claims, (order s claims).Perm claims.toList

/-- The ascending order of `serde_json::Map`, the one that the code has as it is built:
without the feature that preserves the order of insertion, the map is a B-tree. -/
def ascending : ClaimOrder := fun _ claims => claims.toList

/-- Iteration in ascending order meets each claim once. -/
theorem ascending_lawful : ascending.Lawful := fun _ _ => List.Perm.refl _

/-- The outer loop of `verify`, with the claims of every scope met in the given order.
The scopes themselves come in ascending order, from a `BTreeSet`. -/
def expandScopesIn (order : ClaimOrder) (pair : MappingPair) (scopes : BTreeSet String) :
    Except ResourceError (HashMap String Json) :=
  scopes.toList.foldlM (fun claims s =>
    match pair.scopeMappings[s]? with
    | some sm => (order s sm.claims).foldlM mergeClaim claims
    | none => .ok claims) ∅

/-- The loop of the code is the one in ascending order, so what holds of every order holds
of it. -/
theorem expandScopes_eq_expandScopesIn (pair : MappingPair) (scopes : BTreeSet String) :
    expandScopes pair scopes = expandScopesIn ascending pair scopes := rfl

/-- All claims that the scopes contribute, in the order of the two loops with the given
order in the inner one. -/
def contributionsIn (order : ClaimOrder) (pair : MappingPair) (scopes : List String) :
    List (String × Json) :=
  scopes.flatMap fun s => (pair.scopeMappings[s]?).elim [] fun sm => order s sm.claims

/-- All claims that the scopes contribute, in the order in which the loops of the code
meet them. -/
def contributions (pair : MappingPair) (scopes : List String) : List (String × Json) :=
  scopes.flatMap fun s => (pair.scopeMappings[s]?).elim [] fun sm => sm.claims.toList

/-- The value that scope `s` contributes to claim key `k`, if the scope is defined and has
the key. -/
def scopeClaim (pair : MappingPair) (s k : String) : Option Json :=
  (pair.scopeMappings[s]?).bind fun sm => sm.claims[k]?

/-- The body of the inner loop is one round of an accumulation by key, with the rule that
strings are joined and other values conflict. -/
theorem mergeClaim_eq (claims : HashMap String Json) (kv : String × Json) :
    mergeClaim claims kv = Keyed.accumulateOne combineClaims claims kv := by
  obtain ⟨k, v⟩ := kv
  simp only [mergeClaim, Keyed.accumulateOne, Keyed.contribute]
  cases claims[k]? with
  | none => rfl
  | some old => cases old <;> cases v <;> rfl

/-- The nested loop is one accumulation of the contributions.  From here on the results of
`KeyedAccumulation` speak of it. -/
theorem expandScopesIn_eq_accumulate (order : ClaimOrder) (pair : MappingPair)
    (scopes : BTreeSet String) :
    expandScopesIn order pair scopes =
      Keyed.accumulate combineClaims ∅ (contributionsIn order pair scopes.toList) := by
  have hmerge : mergeClaim = Keyed.accumulateOne combineClaims :=
    funext fun claims => funext fun kv => mergeClaim_eq claims kv
  unfold expandScopesIn Keyed.accumulate
  generalize scopes.toList = l, (∅ : HashMap String Json) = acc
  induction l generalizing acc with
  | nil => rfl
  | cons s l ih =>
      rw [List.foldlM_cons, contributionsIn, List.flatMap_cons, List.foldlM_append,
        ← contributionsIn]
      simp only [← ih]
      cases pair.scopeMappings[s]? with
      | none => rfl
      | some sm => rw [hmerge]; rfl

/-- The nested loop of the code is one accumulation of the contributions, scope by scope
and claim by claim.  What the library says of accumulations applies from here on. -/
theorem expandScopes_eq_accumulate (pair : MappingPair) (scopes : BTreeSet String) :
    expandScopes pair scopes =
      Keyed.accumulate combineClaims ∅ (contributions pair scopes.toList) := by
  rw [expandScopes_eq_expandScopesIn, expandScopesIn_eq_accumulate]
  rfl

/-- The values at a key are the contributions of the scopes that define it, in
the order of the scopes: the order within a scope does not matter. -/
theorem valuesAt_contributionsIn {order : ClaimOrder} (horder : order.Lawful)
    (pair : MappingPair) (scopes : List String) (k : String) :
    Keyed.valuesAt k (contributionsIn order pair scopes) =
      scopes.filterMap fun s => scopeClaim pair s k := by
  induction scopes with
  | nil => rfl
  | cons s scopes ih =>
      have hone : Keyed.valuesAt k
          ((pair.scopeMappings[s]?).elim [] fun sm => order s sm.claims) =
            (scopeClaim pair s k).toList := by
        rw [scopeClaim]
        cases pair.scopeMappings[s]? with
        | none => rfl
        | some sm =>
            have hperm := horder s sm.claims
            simp only [Option.elim_some, Option.bind_some]
            cases hv : sm.claims[k]? with
            | none =>
                apply Keyed.valuesAt_eq_nil
                intro v hmem
                rw [hperm.mem_iff, mem_toList_iff, hv] at hmem
                cases hmem
            | some v =>
                have hnodup : ((order s sm.claims).map Prod.fst).Nodup :=
                  (hperm.map Prod.fst).nodup_iff.mpr (nodup_keys_toList _)
                exact Keyed.valuesAt_of_nodup hnodup (hperm.mem_iff.mpr (mem_toList_iff.mpr hv))
      rw [contributionsIn, List.flatMap_cons, Keyed.valuesAt_append, hone, ← contributionsIn, ih]
      cases hv : scopeClaim pair s k <;> simp [hv]

/-- The values at a key are the contributions of the scopes that define it, in the order
of the scopes. -/
theorem valuesAt_contributions (pair : MappingPair) (scopes : List String) (k : String) :
    Keyed.valuesAt k (contributions pair scopes) =
      scopes.filterMap fun s => scopeClaim pair s k :=
  valuesAt_contributionsIn ascending_lawful pair scopes k

/-- Once a value is held, merging more values fails exactly when there are some and they
or the held value include one that is no string. -/
private theorem foldKey_some_eq_error_iff (k : String) (held : Json) (vs : List Json) :
    (∃ e, Keyed.foldKey combineClaims k (some held) vs = .error e) ↔
      vs ≠ [] ∧ ∃ v ∈ held :: vs, v.isString = false := by
  induction vs generalizing held with
  | nil => simp
  | cons v vs ih =>
      rw [Keyed.foldKey_cons, Keyed.contribute]
      cases held with
      | string a =>
          cases v with
          | string b =>
              simp only [combineClaims, Except.bind, ih]
              cases vs <;> simp [Json.isString]
          | _ => simp [combineClaims, Except.bind, Json.isString]
      | _ => simp [combineClaims, Except.bind, Json.isString]

/-- Merging the values of a key fails exactly when there are at least two and one of them
is no string.  Their order does not matter for that. -/
theorem foldKey_eq_error_iff (k : String) (vs : List Json) :
    (∃ e, Keyed.foldKey combineClaims k none vs = .error e) ↔
      2 ≤ vs.length ∧ ∃ v ∈ vs, v.isString = false := by
  cases vs with
  | nil => simp
  | cons v vs =>
      rw [Keyed.foldKey_cons, Keyed.contribute]
      simp only [Except.bind, foldKey_some_eq_error_iff]
      refine and_congr_left fun _ => ?_
      cases vs <;> simp

/-- Every error of a merge is a claim conflict, the one error that the exchange answers
with `invalid_scope`. -/
theorem foldKey_error_isClaimConflict (k : String) (held : Option Json) (vs : List Json)
    {e : ResourceError} (h : Keyed.foldKey combineClaims k held vs = .error e) :
    ∃ msg, e = .claimConflict msg := by
  induction vs generalizing held with
  | nil => cases h
  | cons v vs ih =>
      rw [Keyed.foldKey_cons] at h
      cases hw : Keyed.contribute combineClaims k held v with
      | ok w => rw [hw] at h; exact ih (some w) h
      | error e' =>
          rw [hw] at h
          cases h
          cases held with
          | none => cases hw
          | some old =>
              cases old <;> cases v <;> cases hw <;> exact ⟨_, rfl⟩

end ResourceService

/-- The value that scope `s` gives to claim key `k` in a policy, whether a mapping lists
the scope or not. -/
def Policy.claim (p : Policy) (s k : String) : Option Json :=
  (p.scope s).bind fun sm => sm.claims[k]?

/-- Two distinct requested scopes define the same claim key, and one of the two values is
no string.  Neither scope comes first here. -/
def Policy.ClaimConflict (p : Policy) (requested : List String) : Prop :=
  ∃ s ∈ requested, ∃ s' ∈ requested, s ≠ s' ∧ ∃ k v v',
    p.claim s k = some v ∧ p.claim s' k = some v' ∧
      (v.isString = false ∨ v'.isString = false)

namespace ResourceService

/-- A conflict can be read with the value that is no string first. -/
theorem claimConflict_iff {p : Policy} {requested : List String} :
    p.ClaimConflict requested ↔ ∃ k, ∃ s ∈ requested, ∃ s' ∈ requested, s ≠ s' ∧ ∃ v v',
      p.claim s k = some v ∧ p.claim s' k = some v' ∧ v.isString = false := by
  constructor
  · intro hconflict
    rcases hconflict with ⟨s, hs, s', hs', hne, k, v, v', hv, hv', hstr | hstr⟩
    · exact ⟨k, s, hs, s', hs', hne, v, v', hv, hv', hstr⟩
    · exact ⟨k, s', hs', s, hs, hne.symm, v', v, hv', hv, hstr⟩
  · intro hkey
    obtain ⟨k, s, hs, s', hs', hne, v, v', hv, hv', hstr⟩ := hkey
    exact ⟨s, hs, s', hs', hne, k, v, v', hv, hv', Or.inl hstr⟩

/-- A scope that the mapping lists contributes what the policy gives it, since the
resolution has fetched its scope mapping. -/
theorem scopeClaim_resolve {p : Policy} {c x : String} {pair : MappingPair}
    (h : p.resolve c x = some pair) {s : String} (hs : s ∈ pair.resourceMapping.scopes)
    (k : String) : scopeClaim pair s k = p.claim s k := by
  rw [scopeClaim, Policy.resolve_scopeMappings h, if_pos hs, Policy.claim]

/-- The values that listed scopes contribute to a key are those that the policy gives
them, in the order of the scopes. -/
theorem valuesAt_contributions_resolve {p : Policy} {c x : String} {pair : MappingPair}
    (h : p.resolve c x = some pair) {scopes : BTreeSet String}
    (hsub : ∀ s ∈ scopes, s ∈ pair.resourceMapping.scopes) (k : String) :
    Keyed.valuesAt k (contributions pair scopes.toList) =
      scopes.toList.filterMap fun s => p.claim s k := by
  rw [valuesAt_contributions]
  apply List.filterMap_congr
  intro s hs
  exact scopeClaim_resolve h (hsub s (Std.ExtTreeSet.mem_toList.mp hs)) k

/-- Merging the contributions of one key fails exactly on a conflict at it, between two of
the scopes. -/
theorem foldKey_filterMap_eq_error_iff {p : Policy} {l : List String} (hl : l.Nodup)
    (k : String) :
    (∃ e, Keyed.foldKey combineClaims k none (l.filterMap fun s => p.claim s k) = .error e) ↔
      ∃ s ∈ l, ∃ s' ∈ l, s ≠ s' ∧ ∃ v v',
        p.claim s k = some v ∧ p.claim s' k = some v' ∧ v.isString = false := by
  rw [foldKey_eq_error_iff]
  exact Keyed.two_contributors_iff hl (fun s => p.claim s k) fun v => v.isString = false

/-- Expanding listed scopes fails exactly when two of them conflict, at whatever key. -/
theorem expandScopes_isError_iff {p : Policy} {c x : String} {pair : MappingPair}
    (h : p.resolve c x = some pair) {scopes : BTreeSet String}
    (hsub : ∀ s ∈ scopes, s ∈ pair.resourceMapping.scopes) :
    (∃ e, expandScopes pair scopes = .error e) ↔ p.ClaimConflict scopes.toList := by
  rw [claimConflict_iff, expandScopes_eq_accumulate]
  have hkey : ∀ k, Keyed.foldKey combineClaims k (∅ : HashMap String Json)[k]?
      (Keyed.valuesAt k (contributions pair scopes.toList)) =
        Keyed.foldKey combineClaims k none (scopes.toList.filterMap fun s => p.claim s k) := by
    intro k
    rw [valuesAt_contributions_resolve h hsub, Std.ExtTreeMap.getElem?_empty]
  constructor
  · intro herror
    obtain ⟨e, he⟩ := herror
    obtain ⟨k, hk⟩ := Keyed.exists_foldKey_eq_error he
    rw [hkey] at hk
    exact ⟨k, (foldKey_filterMap_eq_error_iff (nodup_toList scopes) k).mp ⟨e, hk⟩⟩
  · intro hconflict
    obtain ⟨k, hk⟩ := hconflict
    obtain ⟨e, he⟩ := (foldKey_filterMap_eq_error_iff (nodup_toList scopes) k).mpr hk
    cases hacc : Keyed.accumulate combineClaims ∅ (contributions pair scopes.toList) with
    | error e' => exact ⟨e', rfl⟩
    | ok claims =>
        rw [← hkey, Keyed.accumulate_eq_ok_iff.mp hacc k] at he
        cases he

/-- An error of the expansion is a claim conflict, whose text names the key.  The
expansion has no other way to fail. -/
theorem expandScopes_error {pair : MappingPair} {scopes : BTreeSet String} {e : ResourceError}
    (h : expandScopes pair scopes = .error e) : ∃ msg, e = .claimConflict msg := by
  rw [expandScopes_eq_accumulate] at h
  obtain ⟨k, hk⟩ := Keyed.exists_foldKey_eq_error h
  exact foldKey_error_isClaimConflict k _ _ hk

/-- Scopes that the mapping does not all list are refused, before any of them is expanded.
-/
theorem verifyResolved_of_not_subset {scopes : BTreeSet String} {pair : MappingPair}
    (h : ¬ ∀ s ∈ scopes, s ∈ pair.resourceMapping.scopes) :
    verifyResolved scopes (some pair) = .ok notVerified := by
  have hall : (scopes.toList.all fun s => pair.resourceMapping.scopes.contains s) = false := by
    rw [Bool.eq_false_iff, Ne, List.all_eq_true]
    simpa only [Std.ExtTreeSet.mem_toList, Std.ExtTreeSet.contains_iff_mem] using h
  simp [verifyResolved, hall]

/-- Scopes that the mapping lists are expanded, and the audiences come from the mapping.
-/
theorem verifyResolved_of_subset {scopes : BTreeSet String} {pair : MappingPair}
    (h : ∀ s ∈ scopes, s ∈ pair.resourceMapping.scopes) :
    verifyResolved scopes (some pair) =
      (expandScopes pair scopes).map fun claims =>
        { verified := true, claims, audiences := pair.resourceMapping.audiences } := by
  have hall : (scopes.toList.all fun s => pair.resourceMapping.scopes.contains s) = true := by
    rw [List.all_eq_true]
    simpa only [Std.ExtTreeSet.mem_toList, Std.ExtTreeSet.contains_iff_mem] using h
  simp [verifyResolved, hall]

section Verify

variable {σ : Type} [PolicyStore σ]

/-- `verify` depends on the policy that the store holds, and on nothing else of the store.
-/
theorem verify_eq (store : σ) (c x : String) (scopes : List String) :
    verify store c x scopes =
      verifyResolved (Std.ExtTreeSet.ofList scopes compare)
        ((PolicyStore.policy store).resolve c x) := by
  rw [verify, PolicyStore.resolveMapping_eq]
  rfl

/-- The expansion reads the scope mappings of the requested scopes only, so others may
come and go. -/
theorem expandScopes_congr {pair pair' : MappingPair} {scopes : BTreeSet String}
    (h : ∀ s ∈ scopes, pair.scopeMappings[s]? = pair'.scopeMappings[s]?) :
    expandScopes pair scopes = expandScopes pair' scopes := by
  rw [expandScopes_eq_accumulate, expandScopes_eq_accumulate]
  congr 1
  apply List.flatMap_congr
  intro s hs
  rw [h s (Std.ExtTreeSet.mem_toList.mp hs)]

/-- `verify` reads the mapping of the client in the context and the scope
mappings of the requested scopes, and nothing else. -/
theorem verify_congr {τ : Type} [PolicyStore τ] {store : σ} {store' : τ} {c x : String}
    {scopes : List String}
    (hmapping : (PolicyStore.policy store).mapping (c, x) =
      (PolicyStore.policy store').mapping (c, x))
    (hscopes : ∀ s ∈ scopes, (PolicyStore.policy store).scope s =
      (PolicyStore.policy store').scope s) :
    verify store c x scopes = verify store' c x scopes := by
  rw [verify_eq, verify_eq]
  cases hm : (PolicyStore.policy store).mapping (c, x) with
  | none =>
      have hm' := hmapping.symm.trans hm
      simp only [Policy.resolve, hm, hm', Option.map_none]
  | some m =>
      obtain ⟨pair, hpair, rfl⟩ := Policy.resolve_of_mapping hm
      obtain ⟨pair', hpair', hsame⟩ := Policy.resolve_of_mapping (hmapping.symm.trans hm)
      rw [hpair, hpair']
      by_cases hsub : ∀ s ∈ (Std.ExtTreeSet.ofList scopes compare : BTreeSet String),
          s ∈ pair.resourceMapping.scopes
      · rw [verifyResolved_of_subset hsub, verifyResolved_of_subset (by rwa [hsame]), hsame]
        congr 1
        apply expandScopes_congr
        intro s hs
        rw [Policy.resolve_scopeMappings hpair, Policy.resolve_scopeMappings hpair', hsame,
          hscopes s (mem_ofList.mp hs)]
      · rw [verifyResolved_of_not_subset hsub, verifyResolved_of_not_subset (by rwa [hsame])]

end Verify

end ResourceService

end Jwtlet

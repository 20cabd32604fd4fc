import Jwtlet.IssuedPayload
import Jwtlet.ResourcePostgres
import Jwtlet.ServiceOperations

/-!
# Stored policy stays valid

Every state that the service can bring a store into, from empty and with any
arguments, holds valid records only, each under its own key.  Validation runs
before every write that carries data, and no write changes a record it does not
carry, so validity is an invariant of the step (`Policy.Valid.write`).

Valid scope mappings have no reserved claims, so in such states the merge has
none either and the filter of the exchange drops nothing.
-/

namespace Jwtlet

open Rust

/-- Every record in force is valid and under its own key.  This is the invariant of all
states that the service leads to. -/
structure Policy.Valid (p : Policy) : Prop where
  keyed : p.Keyed
  mapping : ∀ k m, p.mapping k = some m → m.Valid
  scope : ∀ s m, p.scope s = some m → m.Valid

/-- The records that a write carries are valid.  A removal carries none. -/
def StoreWrite.Valid : StoreWrite → Prop
  | .saveMapping m | .updateMapping m => m.Valid
  | .saveScopeMappings ms => ∀ m ∈ ms, m.Valid
  | .updateScopeMapping m => m.Valid
  | .removeMapping _ _ | .removeMappingsFor _ | .removeScopeMapping _ => True

/-- Validation lets only valid records through to the store. -/
theorem accepted_valid {op : ServiceOp} {w : StoreWrite} (h : op.accepted = some w) : w.Valid := by
  cases op with
  | save m =>
      obtain ⟨hok, rfl⟩ := passOn_eq_some_iff.mp h
      exact validateResourceMapping_eq_ok_iff.mp hok
  | update m =>
      obtain ⟨hok, rfl⟩ := passOn_eq_some_iff.mp h
      exact validateResourceMapping_eq_ok_iff.mp hok
  | saveScopeMappings ms =>
      obtain ⟨hok, rfl⟩ := passOn_eq_some_iff.mp h
      intro m hm
      exact validateScopeMapping_eq_ok_iff.mp (forM_eq_ok_iff.mp hok m hm)
  | updateScopeMapping m =>
      obtain ⟨hok, rfl⟩ := passOn_eq_some_iff.mp h
      exact validateScopeMapping_eq_ok_iff.mp hok
  | remove c x => cases h; trivial
  | removeFor c => cases h; trivial
  | deleteScopeMapping s => cases h; trivial
  | verify c x scopes => cases h
  | listMappings => cases h
  | listScopeMappings => cases h

/-- Overwriting one place keeps a property of all values, if the new value has it or the
place is cleared. -/
private theorem update_forall {K A : Type} [DecidableEq K] {Q : A → Prop} {f : K → Option A}
    (h : ∀ k a, f k = some a → Q a) {k₀ : K} {o : Option A} (ho : ∀ a, o = some a → Q a) :
    ∀ k a, Function.update f k₀ o k = some a → Q a := by
  intro k a ha
  rw [Function.update_apply] at ha
  split at ha
  · exact ho a ha
  · exact h k a ha

/-- A batch of valid mappings keeps the scope table valid, whatever it held before under
the scopes of the batch. -/
theorem addScopes_valid {scope : String → Option ScopeMapping} {ms : List ScopeMapping}
    (h : ∀ s m, scope s = some m → m.Valid) (hms : ∀ m ∈ ms, m.Valid) :
    ∀ s m, Policy.addScopes scope ms s = some m → m.Valid := by
  induction ms generalizing scope with
  | nil => exact h
  | cons m₀ ms ih =>
      refine ih (update_forall h ?_) fun m hm => hms m (List.mem_cons_of_mem _ hm)
      intro m hm
      exact Option.some.inj hm ▸ hms m₀ List.mem_cons_self

/-- A write of valid records keeps the policy valid, whether it is accepted or not. -/
theorem Policy.Valid.write {p : Policy} (hp : p.Valid) {w : StoreWrite} (hw : w.Valid) :
    (p.write w).2.Valid := by
  have hkeyed := hp.keyed.write w
  cases w with
  | saveMapping m =>
      simp only [Policy.write] at hkeyed ⊢
      split
      · exact hp
      · next hfree =>
        rw [if_neg hfree] at hkeyed
        exact ⟨hkeyed, update_forall hp.mapping (fun a ha => Option.some.inj ha ▸ hw), hp.scope⟩
  | updateMapping m =>
      simp only [Policy.write] at hkeyed ⊢
      split
      · next htaken =>
        rw [if_pos htaken] at hkeyed
        exact ⟨hkeyed, update_forall hp.mapping (fun a ha => Option.some.inj ha ▸ hw), hp.scope⟩
      · exact hp
  | removeMapping c x => exact ⟨hkeyed, update_forall hp.mapping (by simp), hp.scope⟩
  | removeMappingsFor c =>
      refine ⟨hkeyed, fun k m hm => ?_, hp.scope⟩
      simp only [Policy.write] at hm
      split at hm
      · cases hm
      · exact hp.mapping k m hm
  | saveScopeMappings ms =>
      simp only [Policy.write] at hkeyed ⊢
      split
      · exact hp
      · next hfree =>
        rw [hfree] at hkeyed
        exact ⟨hkeyed, hp.mapping, addScopes_valid hp.scope hw⟩
  | updateScopeMapping m =>
      simp only [Policy.write] at hkeyed ⊢
      split
      · next htaken =>
        rw [if_pos htaken] at hkeyed
        exact ⟨hkeyed, hp.mapping, update_forall hp.scope (fun a ha => Option.some.inj ha ▸ hw)⟩
      · exact hp
  | removeScopeMapping s => exact ⟨hkeyed, hp.mapping, update_forall hp.scope (by simp)⟩

section Runs

variable {σ : Type} [PolicyStore σ]

/-- Every operation of the service keeps the policy valid: it writes valid records, or
none. -/
theorem perform_valid (store : σ) (op : ServiceOp) (h : (PolicyStore.policy store).Valid) :
    (PolicyStore.policy (op.perform store).2).Valid := by
  rw [perform_policy]
  cases hop : op.accepted with
  | none => exact h
  | some w => exact h.write (accepted_valid hop)

/-- Every state that the service reaches from empty holds a valid policy, with any
operations and in either store. -/
theorem reachable_valid (ops : List ServiceOp) :
    (PolicyStore.policy (Machine.after ServiceOp.perform (PolicyStore.empty : σ) ops)).Valid := by
  refine Machine.after_invariant perform_valid ?_ ops
  rw [PolicyStore.policy_empty]
  exact ⟨Policy.keyed_empty, by simp [Policy.empty], by simp [Policy.empty]⟩

/-- Records that are looked up under their own keys are listed with distinct keys, and a
listing has all of them. -/
private theorem listing_keys {K A : Type} {f : K → Option A} {key : A → K}
    (hkey : ∀ k a, f k = some a → key a = k) {l : List A} (hnodup : l.Nodup)
    (hmem : ∀ a, a ∈ l ↔ ∃ k, f k = some a) :
    (l.map key).Nodup ∧ ∀ a, a ∈ l ↔ f (key a) = some a := by
  have hself : ∀ a, a ∈ l ↔ f (key a) = some a := by
    intro a
    rw [hmem]
    refine ⟨fun hk => ?_, fun ha => ⟨key a, ha⟩⟩
    obtain ⟨k, hk⟩ := hk
    rwa [hkey k a hk]
  refine ⟨hnodup.map_on ?_, hself⟩
  intro a ha b hb heq
  rw [hself] at ha hb
  rw [heq, hb] at ha
  exact (Option.some.inj ha).symm

/-- Of a keyed policy, the listed mappings have distinct keys, and they are the mappings
in force. -/
theorem listMappings_keys {store : σ} (h : (PolicyStore.policy store).Keyed) :
    ∃ l, ResourceStore.listMappings store = .ok l ∧ (l.map ResourceMapping.key).Nodup ∧
      ∀ m, m ∈ l ↔ (PolicyStore.policy store).mapping m.key = some m := by
  obtain ⟨l, hl, hmem, hnodup⟩ := PolicyStore.listMappings_spec store
  exact ⟨l, hl, listing_keys h.mapping (hnodup h) hmem⟩

/-- Of a keyed policy, the listed scope mappings have distinct scopes, and they are the
scope mappings in force. -/
theorem listScopeMappings_keys {store : σ} (h : (PolicyStore.policy store).Keyed) :
    ∃ l, ResourceStore.listScopeMappings store = .ok l ∧ (l.map ScopeMapping.scope).Nodup ∧
      ∀ m, m ∈ l ↔ (PolicyStore.policy store).scope m.scope = some m := by
  obtain ⟨l, hl, hmem, hnodup⟩ := PolicyStore.listScopeMappings_spec store
  exact ⟨l, hl, listing_keys h.scope (hnodup h) hmem⟩

/-- A merged claim comes from a requested scope that defines it.  The merge makes up no
keys. -/
theorem merged_claim_origin {store : σ} {c x : String} {scopes : List String}
    {r : VerificationResult} (h : ResourceService.verify store c x scopes = .ok r) {k : String}
    (hk : k ∈ r.claims) :
    ∃ s ∈ scopes, ∃ m, (PolicyStore.policy store).scope s = some m ∧ k ∈ m.claims := by
  rw [ResourceService.verify_eq] at h
  cases hpair : (PolicyStore.policy store).resolve c x with
  | none =>
      rw [hpair] at h
      cases h
      exact absurd hk Std.ExtTreeMap.not_mem_empty
  | some pair =>
      rw [hpair] at h
      by_cases hsub : ∀ s ∈ (Std.ExtTreeSet.ofList scopes compare : BTreeSet String),
          s ∈ pair.resourceMapping.scopes
      · rw [ResourceService.verifyResolved_of_subset hsub] at h
        cases hexp : ResourceService.expandScopes pair (Std.ExtTreeSet.ofList scopes compare) with
        | error e => rw [hexp] at h; cases h
        | ok claims =>
            rw [hexp] at h
            cases h
            -- A key without contributions stays absent.
            rw [ResourceService.expandScopes_eq_accumulate] at hexp
            have hfold := Keyed.accumulate_eq_ok_iff.mp hexp k
            rw [ResourceService.valuesAt_contributions_resolve hpair hsub,
              Std.ExtTreeMap.getElem?_empty] at hfold
            by_contra hno
            have hnil : ((Std.ExtTreeSet.ofList scopes compare : BTreeSet String).toList.filterMap
                fun s => (PolicyStore.policy store).claim s k) = [] := by
              rw [List.filterMap_eq_nil_iff]
              intro s hs
              rw [Std.ExtTreeSet.mem_toList, mem_ofList] at hs
              rw [Policy.claim, Option.bind_eq_none_iff]
              intro m hm
              exact Std.ExtTreeMap.getElem?_eq_none fun hkm => hno ⟨s, hs, m, hm, hkm⟩
            rw [hnil, Keyed.foldKey_nil, Except.ok.injEq] at hfold
            rw [← Std.ExtTreeMap.isSome_getElem?_iff_mem, ← hfold] at hk
            cases hk
      · rw [ResourceService.verifyResolved_of_not_subset hsub] at h
        cases h
        exact absurd hk Std.ExtTreeMap.not_mem_empty

/-- Over a valid policy no merged claim is reserved, since no scope defines such a claim.
-/
theorem merged_claim_not_reserved {store : σ} (hvalid : (PolicyStore.policy store).Valid)
    {c x : String} {scopes : List String} {r : VerificationResult}
    (h : ResourceService.verify store c x scopes = .ok r) {k : String} (hk : k ∈ r.claims) :
    isReservedClaim k = false := by
  obtain ⟨s, -, m, hm, hkm⟩ := merged_claim_origin h hk
  exact (hvalid.scope s m hm).claims k hkm

/-- Over a valid policy the filter of the exchange drops nothing, so the claims of the
scopes are issued as they were merged. -/
theorem dropReserved_of_valid {store : σ} (hvalid : (PolicyStore.policy store).Valid)
    {c x : String} {scopes : List String} {r : VerificationResult}
    (h : ResourceService.verify store c x scopes = .ok r) : dropReserved r.claims = r.claims := by
  rw [dropReserved_eq_filter]
  apply Std.ExtTreeMap.ext_getElem?
  intro k
  rw [Std.ExtTreeMap.getElem?_filter']
  cases hv : r.claims[k]? with
  | none => rfl
  | some v =>
      have hk : k ∈ r.claims := by
        rw [← Std.ExtTreeMap.isSome_getElem?_iff_mem, hv]
        rfl
      simp [Option.filter, issuable, merged_claim_not_reserved hvalid h hk]

/-- What a state with a valid policy guarantees, about the records that it holds, its
listings, and the exchanges over it. -/
structure ValidState (store : σ) : Prop where
  mappings : ∀ k m, (PolicyStore.policy store).mapping k = some m → m.Valid ∧ m.key = k
  scopes : ∀ s m, (PolicyStore.policy store).scope s = some m → m.Valid ∧ m.scope = s
  mappingKeys : ∃ l, ResourceStore.listMappings store = .ok l ∧
    (l.map ResourceMapping.key).Nodup ∧
    ∀ m, m ∈ l ↔ (PolicyStore.policy store).mapping m.key = some m
  scopeKeys : ∃ l, ResourceStore.listScopeMappings store = .ok l ∧
    (l.map ScopeMapping.scope).Nodup ∧
    ∀ m, m ∈ l ↔ (PolicyStore.policy store).scope m.scope = some m
  /-- The reserved-claim filter drops nothing, and the custom claims of a token
  are `act`, `jti` and the merged claims. -/
  issuance : ∀ svc env x scopes authToken audience,
    ∀ call ∈ (exchangeToken svc store env x scopes authToken audience).2,
    ∃ c r, svc.verifier svc.clientAudience authToken = .ok c ∧
      ResourceService.verify store c.sub x scopes = .ok r ∧
      dropReserved r.claims = r.claims ∧
      ∀ k, (k ∈ call.claims.custom ∧ k ≠ "act" ∧ k ≠ "jti") ↔ k ∈ r.claims

/-- A key is among the custom claims of a token exactly when it is `act`, `jti` or a
merged claim. -/
theorem custom_keys_of_valid {store : σ} (hvalid : (PolicyStore.policy store).Valid)
    {svc : TokenExchangeService} {env : Environment} {x : String} {c : TokenClaims}
    {scopes : List String} {aud : String} {r : VerificationResult}
    (h : ResourceService.verify store c.sub x scopes = .ok r) (k : String) :
    (k ∈ (participantClaims svc env x c r.claims aud).custom ∧ k ≠ "act" ∧ k ≠ "jti") ↔
      k ∈ r.claims := by
  rw [← Std.ExtTreeMap.isSome_getElem?_iff_mem, getElem?_participantClaims_custom]
  constructor
  · intro h
    obtain ⟨hk, hact, hjti⟩ := h
    rw [if_neg hjti, if_neg hact] at hk
    split at hk
    · cases hk
    · rwa [Std.ExtTreeMap.isSome_getElem?_iff_mem] at hk
  · intro hk
    have hfree := merged_claim_not_reserved hvalid h hk
    have hact : k ≠ "act" := by
      intro heq
      subst heq
      cases hfree
    have hjti : k ≠ "jti" := by
      intro heq
      subst heq
      cases hfree
    refine ⟨?_, hact, hjti⟩
    rw [if_neg hjti, if_neg hact, hfree]
    simpa only [Bool.false_eq_true, if_false, Std.ExtTreeMap.isSome_getElem?_iff_mem] using hk

/-- A store with a valid policy gives all these guarantees. -/
theorem validState_of_valid {store : σ} (hvalid : (PolicyStore.policy store).Valid) :
    ValidState store where
  mappings k m hm := ⟨hvalid.mapping k m hm, hvalid.keyed.mapping k m hm⟩
  scopes s m hm := ⟨hvalid.scope s m hm, hvalid.keyed.scope s m hm⟩
  mappingKeys := listMappings_keys hvalid.keyed
  scopeKeys := listScopeMappings_keys hvalid.keyed
  issuance := by
    intro svc env x scopes authToken audience call hcall
    obtain ⟨c, r, aud, hv, hr, -, -, hclaims⟩ := exchangeToken_call hcall
    refine ⟨c, r, hv, hr, dropReserved_of_valid hvalid hr, fun k => ?_⟩
    rw [hclaims]
    exact custom_keys_of_valid hvalid hr k

end Runs

/-- **Stored-policy validity is an invariant.**  Every state of either store that
the service reaches from empty, with any operations and arguments, holds only
valid records, each under its own key and no two under one, and no exchange over
it has a reserved claim to drop. -/
theorem stored_policy_valid (ops : List ServiceOp) :
    ValidState (Machine.after ServiceOp.perform MemoryResourceStore.new ops) ∧
    ValidState (Machine.after ServiceOp.perform PostgresResourceStore.initialized ops) :=
  ⟨validState_of_valid (reachable_valid ops), validState_of_valid (reachable_valid ops)⟩

end Jwtlet

import Jwtlet.ExchangeApi
import Jwtlet.IssuedPayload
import Jwtlet.ScopeExpansion
import Jwtlet.WhitespaceWords

/-!
# Asking for less

Two exchanges of one client in one context: the second asks for some of the
scopes of the first, under a mapping that permits at least as much.  What the
scopes contribute to a claim key is then a sublist of what they contributed
before, and everything follows from that: no new conflict, no new claim, and
joining a sublist of strings gives a sublist of the words.
-/

namespace Jwtlet

open Rust

/-- A claim value that says no more than another: the same value or, of two
strings, one whose words are found in the other in the same order. -/
def Json.Within (v' v : Json) : Prop :=
  (v'.isString = false ∧ v' = v) ∨ ∃ str' str, v' = .string str' ∧ v = .string str ∧
    (splitWhitespace str').Sublist (splitWhitespace str)

theorem Json.within_refl (v : Json) : v.Within v := by
  cases v with
  | string str => exact Or.inr ⟨str, str, rfl, rfl, List.Sublist.refl _⟩
  | _ => exact Or.inl ⟨rfl, rfl⟩

namespace ResourceService

/-- Contributions that are all strings, and not none, amount to these strings joined by
spaces, also if there is only one. -/
theorem joined_strings {strs : List String} (h : strs ≠ []) :
    joined (strs.map .string) = some (.string (" ".intercalate strs)) := by
  match strs with
  | [] => exact absurd rfl h
  | [s] => simp [joined]
  | s :: t :: strs =>
      rw [joined_of_two_le (by simp)]
      simp [List.filterMap_map, Function.comp_def, Json.string?]

/-- Joining fewer contributions gives a value within the old one, if the old ones are not
in conflict. -/
theorem joined_within {vs' vs : List Json} (hsub : vs'.Sublist vs)
    (hclear : ¬ (2 ≤ vs.length ∧ ∃ v ∈ vs, v.isString = false)) {v' : Json}
    (hv' : joined vs' = some v') : ∃ v, joined vs = some v ∧ v'.Within v := by
  have hne' : vs' ≠ [] := by
    rw [← joined_isSome_iff, hv']
    rfl
  by_cases htwo : 2 ≤ vs.length
  · have hall : ∀ v ∈ vs, v.isString = true := by
      intro v hv
      by_contra hstr
      exact hclear ⟨htwo, v, hv, by simpa using hstr⟩
    obtain ⟨strs, rfl, -⟩ := filterMap_string?_of_all hall
    obtain ⟨strs', hstrs, rfl⟩ := List.sublist_map_iff.mp hsub
    have hmore' : strs' ≠ [] := by simpa using hne'
    have hmore : strs ≠ [] := by
      intro hnil
      rw [hnil] at hstrs
      exact hmore' (List.sublist_nil.mp hstrs)
    rw [joined_strings hmore'] at hv'
    cases hv'
    refine ⟨_, joined_strings hmore, Or.inr ⟨_, _, rfl, rfl, ?_⟩⟩
    rw [splitWhitespace_intercalate, splitWhitespace_intercalate]
    exact hstrs.flatMap splitWhitespace
  · -- A single contribution can only be kept.
    have heq : vs' = vs := by
      apply hsub.eq_of_length_le
      have hpos := List.length_pos_iff.mpr hne'
      omega
    rw [heq] at hv'
    exact ⟨v', hv', v'.within_refl⟩

section Contributions

variable {p p' : Policy} {c x : String} {pair pair' : MappingPair}
  {scopes scopes' : BTreeSet String}

/-- What listed scopes contribute is decided by the scope table, not by the mapping that
lists them. -/
theorem contributed_resolve (hpair : p.resolve c x = some pair)
    (hsub : ∀ s ∈ scopes, s ∈ pair.resourceMapping.scopes) (k : String) :
    contributed pair scopes k = scopes.toList.filterMap fun s => p.claim s k := by
  apply List.filterMap_congr
  intro s hs
  exact scopeClaim_resolve hpair (hsub s (Std.ExtTreeSet.mem_toList.mp hs)) k

variable (htable : p'.scope = p.scope) (hpair : p.resolve c x = some pair)
  (hpair' : p'.resolve c x = some pair')
  (hsub : ∀ s ∈ scopes, s ∈ pair.resourceMapping.scopes)
  (hsub' : ∀ s ∈ scopes', s ∈ pair'.resourceMapping.scopes)
  (hless : ∀ s ∈ scopes', s ∈ scopes)

include htable hpair hpair' hsub hsub' hless

/-- Fewer scopes contribute less to every key, and in the same order. -/
theorem contributed_sublist (k : String) :
    (contributed pair' scopes' k).Sublist (contributed pair scopes k) := by
  have hclaim : ∀ s, p'.claim s k = p.claim s k := fun s => by
    rw [Policy.claim, Policy.claim, htable]
  rw [contributed_resolve hpair hsub, contributed_resolve hpair' hsub']
  simp only [hclaim]
  exact (toList_sublist hless).filterMap _

/-- Fewer scopes do not bring a key into conflict, since a conflict is one between
contributions. -/
theorem conflicting_of_fewer {k : String} (h : pair'.Conflicting scopes' k) :
    pair.Conflicting scopes k := by
  have hsublist := contributed_sublist htable hpair hpair' hsub hsub' hless k
  rw [conflicting_iff] at h ⊢
  obtain ⟨htwo, v, hv, hstr⟩ := h
  exact ⟨htwo.trans hsublist.length_le, v, hsublist.mem hv, hstr⟩

/-- Where the expansion of the scopes succeeds, the expansion of fewer scopes
succeeds with claims within it. -/
theorem expandScopes_of_fewer {claims : HashMap String Json}
    (h : expandScopes pair scopes = .ok claims) :
    ∃ claims', expandScopes pair' scopes' = .ok claims' ∧
      ∀ (k : String) (v' : Json), claims'[k]? = some v' →
        ∃ v, claims[k]? = some v ∧ v'.Within v := by
  have hold := fun k => expandScopesIn_ok ascending_lawful h k
  have hclear : ¬ ∃ k, pair'.Conflicting scopes' k := by
    intro hconflict
    obtain ⟨k, hk⟩ := hconflict
    exact (hold k).1 (conflicting_of_fewer htable hpair hpair' hsub hsub' hless hk)
  obtain ⟨claims', hok⟩ := (expandScopesIn_isOk_iff ascending_lawful).mpr hclear
  refine ⟨claims', hok, ?_⟩
  intro k v' hv'
  rw [(expandScopesIn_ok ascending_lawful hok k).2] at hv'
  rw [(hold k).2]
  have hnone := (hold k).1
  rw [conflicting_iff] at hnone
  exact joined_within (contributed_sublist htable hpair hpair' hsub hsub' hless k) hnone hv'

end Contributions

end ResourceService

/-- Whether the generator can sign does not depend on the claims it signs.  It is assumed
of the generator where a result says that a second token is issued. -/
def TokenExchangeService.SignsAlike (svc : TokenExchangeService) : Prop :=
  ∀ context claims claims' token, svc.generator context claims = .ok token →
    ∃ token', svc.generator context claims' = .ok token'

/-- A mapping permits at least as much as another: all of its scopes, and, where
either restricts the audiences, all of its audiences. -/
structure ResourceMapping.Below (m m' : ResourceMapping) : Prop where
  scopes : ∀ s ∈ m.scopes, s ∈ m'.scopes
  audiences : (m.audiences = ∅ ∧ m'.audiences = ∅) ∨
    (m.audiences ≠ ∅ ∧ ∀ a ∈ m.audiences, a ∈ m'.audiences)

/-- A mapping that permits at least as much permits every audience that the other one
permits. -/
theorem ResourceMapping.Below.permitsAudience {m m' : ResourceMapping} (h : m.Below m')
    {default target : String} (ht : m.PermitsAudience default target) :
    m'.PermitsAudience default target := by
  rcases h.audiences with ⟨hempty, hempty'⟩ | ⟨hne, hsub⟩
  · rcases ht with ⟨-, heq⟩ | hmem
    · exact Or.inl ⟨hempty', heq⟩
    · rw [hempty] at hmem
      exact absurd hmem Std.ExtTreeSet.not_mem_empty
  · rcases ht with ⟨hempty, -⟩ | hmem
    · exact absurd hempty hne
    · exact Or.inr (hsub target hmem)

section Exchange

variable {σ : Type} [PolicyStore σ] {svc : TokenExchangeService} {store : σ}
  {env : Environment} {x : String} {scopes : List String} {authToken : String}
  {audience : Option String} {c : TokenClaims} {pair : MappingPair}

/-- An exchange whose expansion and audience succeed calls the generator once, and ends as
the generator does. -/
theorem exchangeToken_of_expanded (env : Environment) {claims : HashMap String Json}
    (hclient : svc.verifier svc.clientAudience authToken = .ok c)
    (hpair : (PolicyStore.policy store).resolve c.sub x = some pair)
    (hsub : ∀ s ∈ scopes, s ∈ pair.resourceMapping.scopes)
    (hexpand : ResourceService.expandScopes pair (Std.ExtTreeSet.ofList scopes compare) =
      .ok claims)
    (haud : pair.resourceMapping.PermitsAudience svc.audience (audience.getD svc.audience)) :
    let issued := participantClaims svc env x c claims (audience.getD svc.audience)
    exchangeToken svc store env x scopes authToken audience =
      ((svc.generator ⟨svc.jwtletParticipantContext⟩ issued).mapError .generation,
        [{ context := ⟨svc.jwtletParticipantContext⟩, claims := issued }]) := by
  have hsub' : ∀ s ∈ (Std.ExtTreeSet.ofList scopes compare : BTreeSet String),
      s ∈ pair.resourceMapping.scopes := by
    simpa only [mem_ofList] using hsub
  have hverify : ResourceService.verify store c.sub x scopes =
      .ok { verified := true, claims, audiences := pair.resourceMapping.audiences } := by
    rw [ResourceService.verify_eq, hpair, ResourceService.verifyResolved_of_subset hsub', hexpand]
    rfl
  simp [exchangeToken, prepareClaims, hclient, hverify, resolveAudience_of_permitted haud,
    Except.map]

/-- An exchange that issues a token was for listed scopes whose expansion succeeds, and
for a permitted audience. -/
theorem expanded_of_exchangeToken {token : String}
    (hclient : svc.verifier svc.clientAudience authToken = .ok c)
    (hpair : (PolicyStore.policy store).resolve c.sub x = some pair)
    (hok : (exchangeToken svc store env x scopes authToken audience).1 = .ok token) :
    (∀ s ∈ scopes, s ∈ pair.resourceMapping.scopes) ∧
    (∃ claims, ResourceService.expandScopes pair (Std.ExtTreeSet.ofList scopes compare) =
      .ok claims) ∧
    pair.resourceMapping.PermitsAudience svc.audience (audience.getD svc.audience) := by
  have hm : (PolicyStore.policy store).mapping (c.sub, x) = some pair.resourceMapping := by
    obtain ⟨m, hm, rfl⟩ := Option.map_eq_some_iff.mp hpair
    exact hm
  have hprepared : ∀ e, prepareClaims svc store env x scopes authToken audience ≠ .error e := by
    intro e he
    simp [exchangeToken, he] at hok
  have hsub : ∀ s ∈ scopes, s ∈ pair.resourceMapping.scopes := by
    by_contra hnot
    exact hprepared _ (prepareClaims_of_scope_denied hclient hm hnot)
  have hclear : ¬ (PolicyStore.policy store).ClaimConflict scopes := by
    intro hconflict
    obtain ⟨msg, hmsg⟩ := prepareClaims_of_conflict hclient hm hsub hconflict
    exact hprepared _ hmsg
  refine ⟨hsub, ?_, ?_⟩
  · rcases verify_of_granted hm hsub with ⟨hconflict, -⟩ | ⟨-, claims, hverify⟩
    · exact absurd hconflict hclear
    · rw [ResourceService.verify_eq, hpair, ResourceService.verifyResolved_of_subset
        (by simpa only [mem_ofList] using hsub)] at hverify
      cases hexp : ResourceService.expandScopes pair (Std.ExtTreeSet.ofList scopes compare) with
      | ok claims => exact ⟨claims, rfl⟩
      | error e =>
          rw [hexp] at hverify
          cases hverify
  · by_contra hnot
    exact hprepared _ (prepareClaims_of_audience_denied hclient hm hsub hclear hnot)

/-- A claim that is not reserved is issued as it was expanded, neither dropped nor
replaced. -/
theorem custom_of_not_reserved (svc : TokenExchangeService) (env : Environment) (x : String)
    (c : TokenClaims) (claims : HashMap String Json) (target : String) {k : String}
    (hk : isReservedClaim k = false) :
    (participantClaims svc env x c claims target).custom[k]? = claims[k]? := by
  have hjti : k ≠ "jti" := by
    intro heq
    subst heq
    cases hk
  have hact : k ≠ "act" := by
    intro heq
    subst heq
    cases hk
  rw [getElem?_participantClaims_custom]
  simp only [if_neg hjti, if_neg hact, hk, Bool.false_eq_true, if_false]

/-- The generator signed what a successful exchange passed to it, and the token is what it
returned. -/
theorem generator_eq_ok {result : Except ExchangeError String × List GeneratorCall}
    {issued : TokenClaims} {calls : List GeneratorCall} {token : String}
    (hrun : result =
      ((svc.generator ⟨svc.jwtletParticipantContext⟩ issued).mapError .generation, calls))
    (hok : result.1 = .ok token) :
    svc.generator ⟨svc.jwtletParticipantContext⟩ issued = .ok token := by
  rw [hrun] at hok
  cases hgen : svc.generator ⟨svc.jwtletParticipantContext⟩ issued with
  | ok t => simpa [hgen, Except.mapError] using hok
  | error e => simp [hgen, Except.mapError] at hok

end Exchange

/-- **Asking for less is monotone.**  Take two mappings of a client in a context,
the second permitting at least as much as the first, over the same scope table.
If an exchange succeeds under the first, then an exchange for some of its scopes
under the second reaches the generator, so it succeeds if the generator signs.
The token has the same audience, and each of its claims from scopes is within
that of the first token. -/
theorem exchange_monotone {σ τ : Type} [PolicyStore σ] [PolicyStore τ]
    (svc : TokenExchangeService) (store : σ) (store' : τ) (env env' : Environment)
    (x : String) (scopes scopes' : List String) (authToken : String)
    (audience : Option String) (c : TokenClaims) (m m' : ResourceMapping) (token : String)
    (htable : (PolicyStore.policy store').scope = (PolicyStore.policy store).scope)
    (hclient : svc.verifier svc.clientAudience authToken = .ok c)
    (hm : (PolicyStore.policy store).mapping (c.sub, x) = some m)
    (hm' : (PolicyStore.policy store').mapping (c.sub, x) = some m')
    (hbelow : m.Below m') (hless : ∀ s ∈ scopes', s ∈ scopes)
    (hok : (exchangeToken svc store env x scopes authToken audience).1 = .ok token) :
    ∃ claims claims' : TokenClaims,
      exchangeToken svc store env x scopes authToken audience =
        (.ok token, [{ context := ⟨svc.jwtletParticipantContext⟩, claims }]) ∧
      exchangeToken svc store' env' x scopes' authToken audience =
        ((svc.generator ⟨svc.jwtletParticipantContext⟩ claims').mapError .generation,
          [{ context := ⟨svc.jwtletParticipantContext⟩, claims := claims' }]) ∧
      (svc.SignsAlike → ∃ token',
        (exchangeToken svc store' env' x scopes' authToken audience).1 = .ok token') ∧
      claims'.aud = claims.aud ∧
      ∀ (k : String) (v' : Json), isReservedClaim k = false → claims'.custom[k]? = some v' →
        ∃ v, claims.custom[k]? = some v ∧ v'.Within v := by
  obtain ⟨pair, hpair, rfl⟩ := Policy.resolve_of_mapping hm
  obtain ⟨pair', hpair', rfl⟩ := Policy.resolve_of_mapping hm'
  obtain ⟨hsub, ⟨merged, hexpand⟩, haud⟩ := expanded_of_exchangeToken hclient hpair hok
  have hsub' : ∀ s ∈ scopes', s ∈ pair'.resourceMapping.scopes := fun s hs =>
    hbelow.scopes s (hsub s (hless s hs))
  obtain ⟨merged', hexpand', hwithin⟩ := @ResourceService.expandScopes_of_fewer _ _ _ _ _ _ _
    (Std.ExtTreeSet.ofList scopes' compare) htable hpair hpair'
    (by simpa only [mem_ofList] using hsub) (by simpa only [mem_ofList] using hsub')
    (by simpa only [mem_ofList] using hless) merged hexpand
  have hrun := exchangeToken_of_expanded env hclient hpair hsub hexpand haud
  have hrun' := exchangeToken_of_expanded env' hclient hpair' hsub' hexpand'
    (hbelow.permitsAudience haud)
  have hsigned := generator_eq_ok hrun hok
  refine ⟨participantClaims svc env x c merged (audience.getD svc.audience),
    participantClaims svc env' x c merged' (audience.getD svc.audience), ?_, hrun', ?_, rfl, ?_⟩
  · rw [hrun]
    simp only [hsigned]
    rfl
  · intro halike
    obtain ⟨token', htoken'⟩ := halike _ _
      (participantClaims svc env' x c merged' (audience.getD svc.audience)) _ hsigned
    refine ⟨token', ?_⟩
    rw [hrun', htoken']
    rfl
  · intro k v' hk hv'
    rw [custom_of_not_reserved svc env' x c merged' _ hk] at hv'
    rw [custom_of_not_reserved svc env x c merged _ hk]
    exact hwithin k v' hv'

/-- The mapping of `sharedRolePair` with one more scope, so it permits at least as much.
-/
def widerRoleMapping : ResourceMapping :=
  { sharedRolePair.resourceMapping with
    scopes := Std.ExtTreeSet.ofList ["admin", "read", "write"] compare }

/-- The store of the sample with the wider mapping. -/
def widerRoleStore : InnerStore where
  entries := Std.ExtTreeMap.ofList [(("client", "ctx"), widerRoleMapping)] compare
  scopeMappings := sharedRolePair.scopeMappings

/-- From `read` and `write` to `write` alone, under the wider mapping. -/
theorem exchange_monotone_sharedRole : ∃ claims claims' : TokenClaims,
    (exchangeToken sampleService sharedRoleStore sampleEnvironment "ctx" ["read", "write"]
      "sa-token" none).2 = [{ context := ⟨"jwtlet_pc"⟩, claims }] ∧
    exchangeToken sampleService widerRoleStore sampleEnvironment "ctx" ["write"]
      "sa-token" none = (.ok "token", [{ context := ⟨"jwtlet_pc"⟩, claims := claims' }]) ∧
    claims'.aud = claims.aud ∧
    ∃ v, claims.custom["role"]? = some v ∧ Json.Within (.string "writer") v := by
  have hbelow : sharedRolePair.resourceMapping.Below widerRoleMapping := by
    refine ⟨?_, Or.inl ⟨rfl, rfl⟩⟩
    intro s hs
    rw [widerRoleMapping, mem_ofList]
    exact List.mem_cons_of_mem _ (mem_ofList.mp hs)
  have hscopes : widerRoleStore.scopeMappings = sharedRoleStore.scopeMappings := rfl
  have htable : (PolicyStore.policy widerRoleStore).scope =
      (PolicyStore.policy sharedRoleStore).scope :=
    funext fun s => congrArg (fun table : HashMap String ScopeMapping => table[s]?) hscopes
  obtain ⟨claims, claims', hrun, hrun', -, haud, hwithin⟩ := exchange_monotone sampleService
    sharedRoleStore widerRoleStore sampleEnvironment sampleEnvironment "ctx" ["read", "write"]
    ["write"] "sa-token" none sampleClient _ _ "token" htable rfl rfl rfl hbelow
    (by decide) (by decide +kernel)
  have hrole : claims'.custom["role"]? = some (.string "writer") := by
    have hissued : (exchangeToken sampleService widerRoleStore sampleEnvironment "ctx" ["write"]
        "sa-token" none).2.map (fun call => call.claims.custom["role"]?) =
          [some (.string "writer")] := by decide +kernel
    rw [hrun'] at hissued
    exact (List.cons.inj hissued).1
  exact ⟨claims, claims', congrArg Prod.snd hrun, hrun', haud, hwithin "role" _ rfl hrole⟩

end Jwtlet

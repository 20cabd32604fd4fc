import Jwtlet.ResourceMem
import Jwtlet.ResourceService
import Jwtlet.Utf8Order

/-!
# What the scopes expand to

`verify` builds the claims of a token in a nested loop over scopes and their
claims, with an early return.  Here is the same thing without a loop.  The
requested scopes that define a claim key, in ascending order, are its
`definers`; the claim at the key is made of what they contribute (`joined`), and
a key with several definers, one of them contributing no string, is a conflict
(`Conflicting`).

`verifyIn` is `verify` with the iteration order over the claims of a scope left
open.  `verify_expansion` says that no such order matters.
-/

namespace Jwtlet

open Rust

/-- The text of a JSON string.  Other values have none. -/
def Json.string? : Json → Option String
  | .string s => some s
  | _ => none

/-- The requested scopes that define the claim key `k`, in ascending order, which is the
order of the loop. -/
def MappingPair.definers (pair : MappingPair) (scopes : BTreeSet String) (k : String) :
    List String :=
  scopes.toList.filter fun s => (ResourceService.scopeClaim pair s k).isSome

/-- Several requested scopes define `k`, and one of them with a value that is no string.
Two strings are never in conflict. -/
def MappingPair.Conflicting (pair : MappingPair) (scopes : BTreeSet String) (k : String) :
    Prop :=
  2 ≤ (pair.definers scopes k).length ∧ ∃ s ∈ pair.definers scopes k, ∃ v,
    ResourceService.scopeClaim pair s k = some v ∧ v.isString = false

namespace ResourceService

/-- What contributions to one key amount to when they do not conflict: nothing, the one
value, or the strings joined by spaces. -/
def joined : List Json → Option Json
  | [] => none
  | [v] => some v
  | vs => some (.string (" ".intercalate (vs.filterMap Json.string?)))

/-- There is a claim exactly when something was contributed to it. -/
theorem joined_isSome_iff {vs : List Json} : (joined vs).isSome ↔ vs ≠ [] := by
  match vs with
  | [] => simp [joined]
  | [v] => simp [joined]
  | v :: w :: vs => simp [joined]

/-- Two or more contributions amount to the strings among them. -/
theorem joined_of_two_le {vs : List Json} (h : 2 ≤ vs.length) :
    joined vs = some (.string (" ".intercalate (vs.filterMap Json.string?))) := by
  match vs with
  | [] => simp at h
  | [v] => simp at h
  | v :: w :: vs => rfl

theorem filterMap_string?_of_all {vs : List Json} (h : ∀ v ∈ vs, v.isString = true) :
    ∃ strs : List String, vs = strs.map .string ∧ vs.filterMap Json.string? = strs := by
  induction vs with
  | nil => exact ⟨[], rfl, rfl⟩
  | cons v vs ih =>
      obtain ⟨strs, hvs, hstrs⟩ := ih fun w hw => h w (List.mem_cons_of_mem _ hw)
      have hv := h v List.mem_cons_self
      cases v with
      | string s => exact ⟨s :: strs, by rw [hvs, List.map_cons], by simp [Json.string?, hstrs]⟩
      | _ => cases hv

/-- Strings are appended one after the other, with a space before each.  The induction is
over the strings that are still to come. -/
theorem foldKey_strings (k a : String) (strs : List String) :
    Keyed.foldKey combineClaims k (some (.string a)) (strs.map .string) =
      .ok (some (.string (" ".intercalate (a :: strs)))) := by
  induction strs generalizing a with
  | nil => simp
  | cons b strs ih =>
      have hstep : combineClaims k (.string a) (.string b) = .ok (.string (a ++ " " ++ b)) := rfl
      rw [List.map_cons, Keyed.foldKey_cons, Keyed.contribute, hstep, Except.bind, ih,
        String.intercalate_cons_append, String.intercalate_cons_cons, String.append_assoc]

/-- A merge that does not fail gives the joined contributions, whatever their number. -/
theorem foldKey_eq_ok {k : String} {vs : List Json} {o : Option Json}
    (h : Keyed.foldKey combineClaims k none vs = .ok o) : o = joined vs := by
  match vs with
  | [] =>
      cases h
      rfl
  | [v] =>
      cases h
      rfl
  | v :: w :: vs =>
      have hall : ∀ u ∈ v :: w :: vs, u.isString = true := by
        intro u hu
        by_contra hstr
        have herror := (foldKey_eq_error_iff k (v :: w :: vs)).mpr
          ⟨by simp, u, hu, by simpa using hstr⟩
        obtain ⟨e, he⟩ := herror
        rw [h] at he
        cases he
      obtain ⟨strs, hvs, hstrs⟩ := filterMap_string?_of_all hall
      rw [joined_of_two_le (by simp), hstrs]
      cases strs with
      | nil => cases hvs
      | cons a strs =>
          rw [hvs, List.map_cons, Keyed.foldKey_cons, Keyed.contribute, Except.bind,
            foldKey_strings] at h
          cases h
          rfl

section Expansion

variable {order : ClaimOrder} (horder : order.Lawful) {pair : MappingPair}
  {scopes : BTreeSet String}

/-- What the requested scopes contribute to a key, in ascending order of the scopes. -/
def contributed (pair : MappingPair) (scopes : BTreeSet String) (k : String) : List Json :=
  scopes.toList.filterMap fun s => scopeClaim pair s k

/-- The contributions come from the definers, one from each, in the same order. -/
theorem map_scopeClaim_definers (pair : MappingPair) (scopes : BTreeSet String) (k : String) :
    (pair.definers scopes k).map (fun s => scopeClaim pair s k) =
      (contributed pair scopes k).map some := by
  unfold MappingPair.definers contributed
  induction scopes.toList with
  | nil => rfl
  | cons s l ih => cases hs : scopeClaim pair s k <;> simp [hs, ih]

theorem length_contributed (pair : MappingPair) (scopes : BTreeSet String) (k : String) :
    (contributed pair scopes k).length = (pair.definers scopes k).length := by
  have hlength := congrArg List.length (map_scopeClaim_definers pair scopes k)
  simpa using hlength.symm

/-- A contribution is what one of the definers contributes. -/
theorem mem_contributed {k : String} {v : Json} :
    v ∈ contributed pair scopes k ↔
      ∃ s ∈ pair.definers scopes k, scopeClaim pair s k = some v := by
  simp only [contributed, MappingPair.definers, List.mem_filterMap, List.mem_filter]
  constructor
  · intro h
    obtain ⟨s, hs, hv⟩ := h
    exact ⟨s, ⟨hs, by rw [hv]; rfl⟩, hv⟩
  · intro h
    obtain ⟨s, hs, hv⟩ := h
    exact ⟨s, hs.1, hv⟩

/-- A key is in conflict exactly when there are several contributions and one of them is
no string. -/
theorem conflicting_iff {k : String} :
    pair.Conflicting scopes k ↔ 2 ≤ (contributed pair scopes k).length ∧
      ∃ v ∈ contributed pair scopes k, v.isString = false := by
  rw [MappingPair.Conflicting, length_contributed]
  simp only [mem_contributed]
  refine and_congr_right fun _ => ?_
  constructor
  · intro h
    obtain ⟨s, hs, v, hv, hstr⟩ := h
    exact ⟨v, ⟨s, hs, hv⟩, hstr⟩
  · intro h
    obtain ⟨v, ⟨s, hs, hv⟩, hstr⟩ := h
    exact ⟨s, hs, v, hv, hstr⟩

include horder

/-- The fold at a key is the fold of its contributions, whatever the order within a scope.
-/
theorem foldKey_contributionsIn (k : String) :
    Keyed.foldKey combineClaims k (∅ : HashMap String Json)[k]?
      (Keyed.valuesAt k (contributionsIn order pair scopes.toList)) =
        Keyed.foldKey combineClaims k none (contributed pair scopes k) := by
  rw [valuesAt_contributionsIn horder, Std.ExtTreeMap.getElem?_empty, contributed]

/-- A key in conflict is what makes the expansion fail, and a claim conflict is
what it fails with. -/
theorem expandScopesIn_error {e : ResourceError}
    (h : expandScopesIn order pair scopes = .error e) :
    (∃ msg, e = .claimConflict msg) ∧ ∃ k, pair.Conflicting scopes k := by
  rw [expandScopesIn_eq_accumulate] at h
  obtain ⟨k, hk⟩ := Keyed.exists_foldKey_eq_error h
  refine ⟨foldKey_error_isClaimConflict k _ _ hk, k, ?_⟩
  rw [foldKey_contributionsIn horder] at hk
  exact conflicting_iff.mpr ((foldKey_eq_error_iff k _).mp ⟨e, hk⟩)

/-- An expansion that succeeds met no conflict, and has at every key what was
contributed to it. -/
theorem expandScopesIn_ok {claims : HashMap String Json}
    (h : expandScopesIn order pair scopes = .ok claims) (k : String) :
    ¬ pair.Conflicting scopes k ∧ claims[k]? = joined (contributed pair scopes k) := by
  rw [expandScopesIn_eq_accumulate, Keyed.accumulate_eq_ok_iff] at h
  have hk := h k
  rw [foldKey_contributionsIn horder] at hk
  refine ⟨?_, foldKey_eq_ok hk⟩
  intro hconflict
  obtain ⟨e, he⟩ := (foldKey_eq_error_iff k _).mpr (conflicting_iff.mp hconflict)
  rw [hk] at he
  cases he

/-- The expansion succeeds exactly when no key is in conflict, whatever the order within a
scope. -/
theorem expandScopesIn_isOk_iff :
    (∃ claims, expandScopesIn order pair scopes = .ok claims) ↔
      ¬ ∃ k, pair.Conflicting scopes k := by
  constructor
  · intro hok hconflict
    obtain ⟨claims, hok⟩ := hok
    obtain ⟨k, hk⟩ := hconflict
    exact (expandScopesIn_ok horder hok k).1 hk
  · intro hnone
    cases h : expandScopesIn order pair scopes with
    | ok claims => exact ⟨claims, rfl⟩
    | error e => exact absurd (expandScopesIn_error horder h).2 hnone

end Expansion

section Verify

variable {σ : Type} [ResourceStore σ]

/-- `verify` with the claims of every scope met in the given order. -/
def verifyIn (order : ClaimOrder) (store : σ) (clientIdentifier participantContext : String)
    (scopes : List String) : Except ResourceError VerificationResult := do
  let scopes := Std.ExtTreeSet.ofList scopes compare
  match ← ResourceStore.resolveMapping store clientIdentifier participantContext with
  | none => .ok notVerified
  | some pair =>
      if !(scopes.toList.all fun s => pair.resourceMapping.scopes.contains s) then
        .ok notVerified
      else
        (expandScopesIn order pair scopes).map fun claims =>
          { verified := true, claims, audiences := pair.resourceMapping.audiences }

/-- `verify` meets them in ascending order. -/
theorem verifyIn_ascending (store : σ) (c x : String) (scopes : List String) :
    verifyIn ascending store c x scopes = verify store c x scopes := by
  rw [verifyIn, verify]
  rfl

/-- Scopes that the mapping lists are expanded, and the audiences come from the mapping.
-/
theorem verifyIn_of_subset (order : ClaimOrder) {store : σ} {c x : String} {pair : MappingPair}
    {scopes : List String} (hpair : ResourceStore.resolveMapping store c x = .ok (some pair))
    (hsub : ∀ s ∈ scopes, s ∈ pair.resourceMapping.scopes) :
    verifyIn order store c x scopes =
      (expandScopesIn order pair (Std.ExtTreeSet.ofList scopes compare)).map fun claims =>
        { verified := true, claims, audiences := pair.resourceMapping.audiences } := by
  have hall : ((Std.ExtTreeSet.ofList scopes compare : BTreeSet String).toList.all
      fun s => pair.resourceMapping.scopes.contains s) = true := by
    rw [List.all_eq_true]
    intro s hs
    rw [Std.ExtTreeSet.mem_toList, mem_ofList] at hs
    exact Std.ExtTreeSet.contains_iff_mem.mpr (hsub s hs)
  simp [verifyIn, hpair, hall, bind, Except.bind]

end Verify

end ResourceService

open ResourceService

/-- The claims that requested scopes stand for: the claim of a key with one
definer is what it contributes, the claim of a key with several is their strings
joined by single spaces, and there are no others. -/
structure MappingPair.Expands (pair : MappingPair) (scopes : BTreeSet String)
    (claims : HashMap String Json) : Prop where
  keys : ∀ k, k ∈ claims ↔ pair.definers scopes k ≠ []
  single : ∀ k s, pair.definers scopes k = [s] → claims[k]? = scopeClaim pair s k
  several : ∀ k, 2 ≤ (pair.definers scopes k).length → ∃ strs : List String,
    (pair.definers scopes k).map (fun s => scopeClaim pair s k) =
      strs.map (fun str => some (.string str)) ∧
    claims[k]? = some (.string (" ".intercalate strs))

/-- Claims made of the joined contributions are what the scopes stand for, if no key is in
conflict. -/
theorem expands_of_joined {pair : MappingPair} {scopes : BTreeSet String}
    {claims : HashMap String Json} (hclear : ∀ k, ¬ pair.Conflicting scopes k)
    (hclaims : ∀ k, claims[k]? = joined (contributed pair scopes k)) :
    pair.Expands scopes claims := by
  have hvalues : ∀ k, (pair.definers scopes k).map (fun s => scopeClaim pair s k) =
      (contributed pair scopes k).map some := fun k => map_scopeClaim_definers pair scopes k
  have hlength : ∀ k, (contributed pair scopes k).length = (pair.definers scopes k).length :=
    fun k => length_contributed pair scopes k
  constructor
  · intro k
    rw [← Std.ExtTreeMap.isSome_getElem?_iff_mem, hclaims, joined_isSome_iff,
      ← List.length_pos_iff, hlength, List.length_pos_iff]
  · intro k s hs
    have hvalue := (hvalues k).symm
    rw [hs, List.map_singleton, List.map_eq_singleton_iff] at hvalue
    obtain ⟨v, hcon, hv⟩ := hvalue
    rw [hclaims, hcon, ← hv]
    rfl
  · intro k htwo
    have hall : ∀ v ∈ contributed pair scopes k, v.isString = true := by
      intro v hv
      by_contra hstr
      exact hclear k (conflicting_iff.mpr
        ⟨by rw [hlength]; exact htwo, v, hv, by simpa using hstr⟩)
    obtain ⟨strs, hcon, hstrs⟩ := filterMap_string?_of_all hall
    refine ⟨strs, ?_, ?_⟩
    · rw [hvalues, hcon, List.map_map]
      rfl
    · rw [hclaims, joined_of_two_le (by rw [hlength]; exact htwo), hstrs]

/-- The definers of a key are the requested scopes whose mapping sets it. -/
theorem mem_definers_iff {pair : MappingPair} {scopes : List String} {k s : String} :
    s ∈ pair.definers (Std.ExtTreeSet.ofList scopes compare) k ↔
      s ∈ scopes ∧ ∃ sm v, pair.scopeMappings[s]? = some sm ∧ sm.claims[k]? = some v := by
  rw [MappingPair.definers, List.mem_filter, Std.ExtTreeSet.mem_toList, mem_ofList,
    scopeClaim, Option.isSome_iff_exists]
  simp only [Option.bind_eq_some_iff]
  exact and_congr_right fun _ => exists_comm.trans (by simp only [exists_and_left])

/-- The expansion fails exactly when some key is in conflict, and then says so. -/
theorem expandScopesIn_claimConflict_iff {order : ClaimOrder} (horder : order.Lawful)
    {pair : MappingPair} {scopes : BTreeSet String} :
    (∃ msg, expandScopesIn order pair scopes = .error (.claimConflict msg)) ↔
      ∃ k, pair.Conflicting scopes k := by
  constructor
  · intro herror
    obtain ⟨msg, hmsg⟩ := herror
    exact (expandScopesIn_error horder hmsg).2
  · intro hconflict
    cases hexp : expandScopesIn order pair scopes with
    | ok claims => exact absurd hconflict ((expandScopesIn_isOk_iff horder).mp ⟨claims, hexp⟩)
    | error e =>
        obtain ⟨⟨msg, rfl⟩, -⟩ := expandScopesIn_error horder hexp
        exact ⟨msg, rfl⟩

/-- Whatever the order, the expansion has the same value at every key, so it is the
same map. -/
theorem expandScopesIn_of_order {order order' : ClaimOrder} (horder : order.Lawful)
    (horder' : order'.Lawful) {pair : MappingPair} {scopes : BTreeSet String}
    {claims : HashMap String Json} (hok : expandScopesIn order pair scopes = .ok claims) :
    expandScopesIn order' pair scopes = .ok claims := by
  have hclear := (expandScopesIn_isOk_iff horder).mp ⟨claims, hok⟩
  obtain ⟨claims', hok'⟩ := (expandScopesIn_isOk_iff horder').mpr hclear
  have heq : claims' = claims := by
    apply Std.ExtTreeMap.ext_getElem?
    intro k
    rw [(expandScopesIn_ok horder hok k).2, (expandScopesIn_ok horder' hok' k).2]
  rw [hok', heq]

/-- **The expansion is what the scopes declare.**  Scopes that the mapping lists
are refused with a claim conflict exactly when some key has several definers of
which one contributes no string.  Otherwise they are verified, with the claims
they stand for and the audiences of the mapping.  The definers of a key are
taken in ascending byte order, the order within a scope does not matter, and
neither do the order and the repetitions of the request. -/
theorem verify_expansion {σ : Type} [ResourceStore σ] (order : ClaimOrder) (store : σ)
    (c x : String) (pair : MappingPair) (scopes : List String) (horder : order.Lawful)
    (hpair : ResourceStore.resolveMapping store c x = .ok (some pair))
    (hsub : ∀ s ∈ scopes, s ∈ pair.resourceMapping.scopes) :
    let requested : BTreeSet String := Std.ExtTreeSet.ofList scopes compare
    (∀ k, (∀ s, s ∈ pair.definers requested k ↔
        s ∈ scopes ∧ ∃ sm v, pair.scopeMappings[s]? = some sm ∧ sm.claims[k]? = some v) ∧
      (pair.definers requested k).Pairwise fun s t => utf8Bytes s < utf8Bytes t) ∧
    ((∃ msg, verifyIn order store c x scopes = .error (.claimConflict msg)) ↔
      ∃ k, pair.Conflicting requested k) ∧
    ((¬ ∃ k, pair.Conflicting requested k) → ∃ claims,
      pair.Expands requested claims ∧
      ∀ order' : ClaimOrder, order'.Lawful → ∀ scopes', (∀ s, s ∈ scopes' ↔ s ∈ scopes) →
        verifyIn order' store c x scopes' =
          .ok { verified := true, claims, audiences := pair.resourceMapping.audiences }) ∧
    ∀ scopes', (∀ s, s ∈ scopes' ↔ s ∈ scopes) →
      verifyIn order store c x scopes' = verifyIn order store c x scopes := by
  intro requested
  have hsame : ∀ scopes', (∀ s, s ∈ scopes' ↔ s ∈ scopes) →
      (Std.ExtTreeSet.ofList scopes' compare : BTreeSet String) = requested := by
    intro scopes' hset
    apply Std.ExtTreeSet.ext_mem
    intro s
    rw [mem_ofList, mem_ofList, hset]
  have hverify : ∀ (order' : ClaimOrder) (scopes' : List String),
      (∀ s, s ∈ scopes' ↔ s ∈ scopes) → verifyIn order' store c x scopes' =
        (expandScopesIn order' pair requested).map fun claims =>
          { verified := true, claims, audiences := pair.resourceMapping.audiences } := by
    intro order' scopes' hset
    rw [verifyIn_of_subset order' hpair (fun s hs => hsub s ((hset s).mp hs)), hsame scopes' hset]
  refine ⟨fun k => ⟨fun s => mem_definers_iff, (ascending_toList requested).filter _⟩,
    ?_, ?_, ?_⟩
  · rw [← expandScopesIn_claimConflict_iff horder, hverify order scopes fun _ => Iff.rfl]
    cases expandScopesIn order pair requested <;> simp [Except.map]
  · intro hclear
    obtain ⟨claims, hok⟩ := (expandScopesIn_isOk_iff horder).mpr hclear
    have hclaims := fun k => (expandScopesIn_ok horder hok k).2
    refine ⟨claims, expands_of_joined (fun k hk => hclear ⟨k, hk⟩) hclaims, ?_⟩
    intro order' horder' scopes' hset
    rw [hverify order' scopes' hset, expandScopesIn_of_order horder horder' hok]
    rfl
  · intro scopes' hset
    rw [hverify order scopes' hset, hverify order scopes fun _ => Iff.rfl]

/-- Both scopes add to the claim `role`, and one of them sets `level` besides. -/
def sharedRolePair : MappingPair where
  resourceMapping :=
    { clientIdentifier := "client", participantContext := "ctx"
      scopes := Std.ExtTreeSet.ofList ["read", "write"] compare, audiences := ∅ }
  scopeMappings := Std.ExtTreeMap.ofList
    [("read", { scope := "read"
                claims := Std.ExtTreeMap.ofList [("role", .string "reader")] compare }),
      ("write", { scope := "write"
                  claims := Std.ExtTreeMap.ofList
                    [("level", .number (.posInt 2)), ("role", .string "writer")] compare })]
    compare

/-- A store that resolves the sample client to this pair. -/
def sharedRoleStore : InnerStore where
  entries := Std.ExtTreeMap.ofList [(("client", "ctx"), sharedRolePair.resourceMapping)] compare
  scopeMappings := sharedRolePair.scopeMappings

/-- The two scopes, with the claims met in descending order and the request
turned round and repeated. -/
theorem verify_expansion_sharedRole : ∃ claims : HashMap String Json,
    verifyIn (fun _ claims => claims.toList.reverse) sharedRoleStore "client" "ctx"
      ["write", "read", "write"] = .ok { verified := true, claims, audiences := ∅ } ∧
    claims["role"]? = some (.string "reader writer") ∧
    claims["level"]? = some (.number (.posInt 2)) := by
  have hspec := verify_expansion (fun _ claims => claims.toList.reverse) sharedRoleStore
    "client" "ctx" sharedRolePair ["write", "read", "write"]
    (fun _ claims => List.reverse_perm claims.toList) (by decide +kernel) (by decide +kernel)
  obtain ⟨-, hconflict, hclear, -⟩ := hspec
  have hnone : ¬ ∃ msg, verifyIn (fun _ claims => claims.toList.reverse) sharedRoleStore
      "client" "ctx" ["write", "read", "write"] = .error (.claimConflict msg) := by
    intro herror
    obtain ⟨msg, hmsg⟩ := herror
    cases hmsg
  obtain ⟨claims, hexpands, hok⟩ := hclear (by rwa [hconflict] at hnone)
  refine ⟨claims, hok _ (fun _ claims => List.reverse_perm claims.toList) _ fun _ => Iff.rfl,
    ?_, ?_⟩
  · obtain ⟨strs, hstrs, hrole⟩ := hexpands.several "role" (by decide +kernel)
    have hvalues : strs = ["reader", "writer"] := by
      have hmap : strs.map (fun str => some (Json.string str)) =
          ["reader", "writer"].map (fun str => some (Json.string str)) := by
        rw [← hstrs]
        decide +kernel
      exact List.map_injective_iff.mpr (fun a b hab => by simpa using hab) hmap
    rw [hrole, hvalues]
    rfl
  · rw [hexpands.single "level" "write" (by decide +kernel)]
    decide +kernel

end Jwtlet

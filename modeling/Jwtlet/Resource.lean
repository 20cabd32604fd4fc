import Jwtlet.JsonValue
import Jwtlet.RustText

/-!
# Resource mappings, scope mappings and their validation

The data model of `jwtlet-core/src/resource/mod.rs`: which scopes a client may
use in a participant context (`ResourceMapping`), which claims a scope stands
for (`ScopeMapping`), the errors, the checks made before a record is written,
and the trait `ResourceStore` that both storage backends implement.
-/

namespace Jwtlet

open Rust

/-- The errors of the resource service and its stores.  What the text of each says is
fixed here and turned into a response by the ports. -/
inductive ResourceError where
  | databaseError (msg : String)
  | notFound (id : String)
  | conflict (id : String)
  | claimConflict (msg : String)
  | reservedClaim (key : String)
  | invalidMapping (msg : String)
  deriving DecidableEq, Repr

/-- Claim keys that jwtlet sets itself and that scope mappings may not set: the registered
claims, the actor and the token identifier. -/
def reservedClaims : List String :=
  ["sub", "iss", "aud", "exp", "iat", "nbf", "act", "jti"]

/-- The key is one of the reserved ones.  Keys are compared as they are, with their case.
-/
def isReservedClaim (key : String) : Bool := reservedClaims.contains key

/-- What a client may request in a participant context: the scopes it may ask for and the
audiences it may ask them for. -/
structure ResourceMapping where
  clientIdentifier : String
  participantContext : String
  scopes : HashSet String
  /-- Permitted audiences; empty means that only the server default is valid. -/
  audiences : HashSet String
  deriving DecidableEq

/-- What a scope stands for: the claims that a token with this scope has. -/
structure ScopeMapping where
  scope : String
  claims : Map
  deriving DecidableEq

/-- What `resolve_mapping` returns: a mapping with the scope mappings of its scopes.  A
scope of the mapping that nobody has defined is left out. -/
@[ext] structure MappingPair where
  resourceMapping : ResourceMapping
  scopeMappings : HashMap String ScopeMapping
  deriving DecidableEq

/-- The key that a resource mapping is stored under, its client and its context.  There is
one mapping at most for each such pair. -/
def ResourceMapping.key (m : ResourceMapping) : String × String :=
  (m.clientIdentifier, m.participantContext)

/-- The check of a scope name: what is empty or has whitespace could not be written into
the scope parameter of a request. -/
def validateScopeName (scope : String) : Except ResourceError Unit :=
  if scope == "" || scope.toList.any isWhitespace then
    .error (.invalidMapping
      ("scope '" ++ scope ++ "' must be non-empty and contain no whitespace"))
  else
    .ok ()

/-- An order to iterate over a hash set.  Rust leaves it open, and two sets with the
same elements may have different ones. -/
abbrev SetOrder := HashSet String → List String

/-- Whatever the order, the elements of the set are met, each of them once.  Nothing else
is known of the iteration over a hash set. -/
def SetOrder.Lawful (order : SetOrder) : Prop := ∀ s, (order s).Perm s.toList

/-- Sets in ascending order, the order that stands for all others where the order does not
show. -/
def ascendingOrder : SetOrder := fun s => s.toList

/-- Iteration in ascending order meets each element once. -/
theorem ascendingOrder_lawful : ascendingOrder.Lawful := fun _ => List.Perm.refl _

/-- `validate_resource_mapping`, with the order in which its loop meets the scopes.  The
four checks are made in this sequence, and the first that fails is reported. -/
def validateResourceMappingIn (order : SetOrder) (mapping : ResourceMapping) :
    Except ResourceError Unit := do
  if trim mapping.clientIdentifier == "" then
    throw (.invalidMapping "clientIdentifier must not be empty")
  if trim mapping.participantContext == "" then
    throw (.invalidMapping "participantContext must not be empty")
  (order mapping.scopes).forM validateScopeName
  if mapping.audiences.toList.any fun a => trim a == "" then
    throw (.invalidMapping "audiences must not contain empty values")

/-- The same in ascending order.  The order decides no more than which invalid scope
the error names (`validateResourceMappingIn_cases`). -/
def validateResourceMapping (mapping : ResourceMapping) : Except ResourceError Unit :=
  validateResourceMappingIn ascendingOrder mapping

/-- The check of the claims of a scope: none of their keys is reserved.  The first
reserved key in ascending order is reported. -/
def validateScopeClaims (claims : Map) : Except ResourceError Unit :=
  claims.keys.forM fun key =>
    if isReservedClaim key then .error (.reservedClaim key) else .ok ()

/-- `validate_scope_mapping`: the name of the scope is checked before its claims. -/
def validateScopeMapping (mapping : ScopeMapping) : Except ResourceError Unit := do
  validateScopeName mapping.scope
  validateScopeClaims mapping.claims

/-- A scope name that can be requested: not empty, and without whitespace.  This is what
the check of a name lets pass. -/
def ValidScopeName (scope : String) : Prop :=
  scope ≠ "" ∧ ∀ c ∈ scope.toList, isWhitespace c = false

/-- What validation asks of a resource mapping: identifiers and audiences that are not
blank, and scopes that can be requested.  Both sets may be empty. -/
structure ResourceMapping.Valid (m : ResourceMapping) : Prop where
  clientIdentifier : isBlank m.clientIdentifier = false
  participantContext : isBlank m.participantContext = false
  scopes : ∀ s ∈ m.scopes, ValidScopeName s
  audiences : ∀ a ∈ m.audiences, isBlank a = false

/-- What validation asks of a scope mapping: a name that can be requested, and no claim
that jwtlet sets itself.  The values of the claims may be anything. -/
structure ScopeMapping.Valid (m : ScopeMapping) : Prop where
  scope : ValidScopeName m.scope
  claims : ∀ k ∈ m.claims, isReservedClaim k = false

/-- A loop of checks passes exactly when every check passes, in whatever order they are
made. -/
theorem forM_eq_ok_iff {A E : Type} {f : A → Except E Unit} {l : List A} :
    l.forM f = .ok () ↔ ∀ a ∈ l, f a = .ok () := by
  induction l with
  | nil => simp [pure, Except.pure]
  | cons a l ih =>
      rw [List.forall_mem_cons, ← ih]
      change (f a >>= fun _ => l.forM f) = .ok () ↔ _
      cases f a <;> simp [bind, Except.bind]

/-- The check of a name lets pass exactly the names that can be requested. -/
theorem validateScopeName_eq_ok_iff {scope : String} :
    validateScopeName scope = .ok () ↔ ValidScopeName scope := by
  unfold validateScopeName ValidScopeName
  split
  · next h =>
    simp only [Bool.or_eq_true, beq_iff_eq, List.any_eq_true] at h
    simp only [reduceCtorEq, ne_eq, false_iff, not_and, not_forall]
    intro hne
    obtain ⟨c, hc, hws⟩ := h.resolve_left hne
    exact ⟨c, hc, by simp [hws]⟩
  · next h =>
    simp only [Bool.or_eq_true, beq_iff_eq, List.any_eq_true, not_or, not_exists,
      not_and, Bool.not_eq_true] at h
    simpa using h

/-- Any other name is refused, with an error that quotes it. -/
theorem validateScopeName_of_not_valid {scope : String} (h : ¬ ValidScopeName scope) :
    validateScopeName scope = .error (.invalidMapping
      ("scope '" ++ scope ++ "' must be non-empty and contain no whitespace")) := by
  rw [← validateScopeName_eq_ok_iff, validateScopeName] at h
  rw [validateScopeName]
  split at h
  · next hbad => rw [if_pos hbad]
  · exact absurd rfl h

/-- The loop over the scopes passes, or ends at one of them that is not valid with the
error that names it. -/
theorem forM_validateScopeName_cases (l : List String) :
    ((∀ s ∈ l, ValidScopeName s) ∧ l.forM validateScopeName = .ok ()) ∨
      ∃ s ∈ l, ¬ ValidScopeName s ∧ l.forM validateScopeName = validateScopeName s := by
  induction l with
  | nil => exact Or.inl ⟨by simp, rfl⟩
  | cons a l ih =>
      have hloop : (a :: l).forM validateScopeName =
          (validateScopeName a >>= fun _ => l.forM validateScopeName) := rfl
      by_cases ha : ValidScopeName a
      · have hrest : (a :: l).forM validateScopeName = l.forM validateScopeName := by
          rw [hloop, validateScopeName_eq_ok_iff.mpr ha]
          rfl
        rw [hrest]
        rcases ih with ⟨hvalid, hok⟩ | ⟨s, hs, hinvalid, herror⟩
        · exact Or.inl ⟨List.forall_mem_cons.mpr ⟨ha, hvalid⟩, hok⟩
        · exact Or.inr ⟨s, List.mem_cons_of_mem _ hs, hinvalid, herror⟩
      · refine Or.inr ⟨a, List.mem_cons_self, ha, ?_⟩
        rw [hloop, validateScopeName_of_not_valid ha]
        rfl

/-- Whether a mapping passes does not depend on the order in which its scopes are met. -/
theorem validateResourceMappingIn_eq_ok_iff {order : SetOrder} (horder : order.Lawful)
    {m : ResourceMapping} : validateResourceMappingIn order m = .ok () ↔ m.Valid := by
  have hscopes : (order m.scopes).forM validateScopeName = .ok () ↔
      ∀ s ∈ m.scopes, ValidScopeName s := by
    simp only [forM_eq_ok_iff, validateScopeName_eq_ok_iff, (horder m.scopes).mem_iff,
      Std.ExtTreeSet.mem_toList]
  have haudiences : (m.audiences.toList.any fun a => trim a == "") = false ↔
      ∀ a ∈ m.audiences, isBlank a = false := by
    rw [List.any_eq_false]
    simp only [Std.ExtTreeSet.mem_toList, isBlank, Bool.not_eq_true]
  constructor
  · intro h
    simp only [validateResourceMappingIn, bind, Except.bind, pure, Except.pure, throw,
      throwThe, MonadExceptOf.throw] at h
    split at h
    · cases h
    · next hclient =>
      split at h
      · cases h
      · next hcontext =>
        split at h
        · cases h
        · next hforM =>
          split at h
          · cases h
          · next hany =>
            exact ⟨by simpa [isBlank] using hclient, by simpa [isBlank] using hcontext,
              hscopes.mp hforM, haudiences.mp (by simpa using hany)⟩
  · intro h
    have hclient : (trim m.clientIdentifier == "") = false := h.clientIdentifier
    have hcontext : (trim m.participantContext == "") = false := h.participantContext
    simp [validateResourceMappingIn, hclient, hcontext, hscopes.mpr h.scopes,
      haudiences.mpr h.audiences, bind, Except.bind, pure, Except.pure]

/-- The validation lets pass exactly the valid mappings. -/
theorem validateResourceMapping_eq_ok_iff {m : ResourceMapping} :
    validateResourceMapping m = .ok () ↔ m.Valid :=
  validateResourceMappingIn_eq_ok_iff ascendingOrder_lawful

/-- **What the order of the scopes decides.**  Either nothing, or the validation ends
at a scope that is not valid, and the order decides at which. -/
theorem validateResourceMappingIn_cases (m : ResourceMapping) :
    (∀ order : SetOrder, order.Lawful →
      validateResourceMappingIn order m = validateResourceMapping m) ∨
    ∀ order : SetOrder, order.Lawful → ∃ s ∈ m.scopes, ¬ ValidScopeName s ∧
      validateResourceMappingIn order m = validateScopeName s := by
  by_cases hclient : trim m.clientIdentifier == ""
  · left
    intro order _
    simp [validateResourceMapping, validateResourceMappingIn, hclient, bind, Except.bind, throw,
      throwThe, MonadExceptOf.throw]
  by_cases hcontext : trim m.participantContext == ""
  · left
    intro order _
    simp [validateResourceMapping, validateResourceMappingIn, hclient, hcontext, bind,
      Except.bind, throw, throwThe, MonadExceptOf.throw]
  by_cases hvalid : ∀ s ∈ m.scopes, ValidScopeName s
  · left
    intro order horder
    have hloop : ∀ order : SetOrder, order.Lawful →
        (order m.scopes).forM validateScopeName = .ok () := by
      intro order horder
      rw [forM_eq_ok_iff]
      intro s hs
      rw [validateScopeName_eq_ok_iff]
      exact hvalid s (Std.ExtTreeSet.mem_toList.mp ((horder m.scopes).mem_iff.mp hs))
    simp only [validateResourceMapping, validateResourceMappingIn, hloop order horder,
      hloop ascendingOrder ascendingOrder_lawful]
  · right
    intro order horder
    rcases forM_validateScopeName_cases (order m.scopes) with ⟨hall, -⟩ | ⟨s, hs, hinvalid, herror⟩
    · refine absurd (fun s hs => hall s ?_) hvalid
      exact (horder m.scopes).mem_iff.mpr (Std.ExtTreeSet.mem_toList.mpr hs)
    · refine ⟨s, Std.ExtTreeSet.mem_toList.mp ((horder m.scopes).mem_iff.mp hs), hinvalid, ?_⟩
      rw [validateScopeName_of_not_valid hinvalid] at herror ⊢
      simp [validateResourceMappingIn, hclient, hcontext, herror, bind, Except.bind]

/-- The validation lets pass exactly the valid scope mappings. -/
theorem validateScopeMapping_eq_ok_iff {m : ScopeMapping} :
    validateScopeMapping m = .ok () ↔ m.Valid := by
  have hclaims : validateScopeClaims m.claims = .ok () ↔
      ∀ k ∈ m.claims, isReservedClaim k = false := by
    unfold validateScopeClaims
    rw [forM_eq_ok_iff]
    simp only [Std.ExtTreeMap.mem_keys]
    refine forall₂_congr fun k _ => ?_
    cases isReservedClaim k <;> simp
  constructor
  · intro h
    simp only [validateScopeMapping, bind, Except.bind] at h
    split at h
    · cases h
    · next hname =>
      exact ⟨validateScopeName_eq_ok_iff.mp hname, hclaims.mp h⟩
  · intro h
    simp [validateScopeMapping, validateScopeName_eq_ok_iff.mpr h.scope,
      hclaims.mpr h.claims, bind, Except.bind]

/-- `trait ResourceStore`, the interface of a storage backend.  A writing method returns
its result and the store after it; the reading ones leave the store as it is. -/
class ResourceStore (σ : Type) where
  resolveMapping : σ → String → String → Except ResourceError (Option MappingPair)
  saveMapping : σ → ResourceMapping → Except ResourceError Unit × σ
  updateMapping : σ → ResourceMapping → Except ResourceError Unit × σ
  removeMapping : σ → String → String → Except ResourceError Unit × σ
  removeMappingsFor : σ → String → Except ResourceError Unit × σ
  saveScopeMappings : σ → List ScopeMapping → Except ResourceError Unit × σ
  updateScopeMapping : σ → ScopeMapping → Except ResourceError Unit × σ
  removeScopeMapping : σ → String → Except ResourceError Unit × σ
  listMappings : σ → Except ResourceError (List ResourceMapping)
  listScopeMappings : σ → Except ResourceError (List ScopeMapping)

end Jwtlet

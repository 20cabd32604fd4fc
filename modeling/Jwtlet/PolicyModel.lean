import Jwtlet.Resource

/-!
# The policy in force

What a resource store is for, apart from how it keeps its records: a `Policy`
is a partial function from `(client, context)` to the resource mapping in force
and one from scope names to the scope mapping in force.  `Policy.write` says
what each writing operation of the trait means for it, and answers the way the
operation must answer.

`PolicyStore` is the contract of a storage backend: its contents read as a
policy, and every operation answers and moves that policy as specified here.
-/

namespace Jwtlet

open Rust

/-- The writing operations of `ResourceStore` with their arguments, so that a run of
writes is a list of them. -/
inductive StoreWrite where
  | saveMapping (mapping : ResourceMapping)
  | updateMapping (mapping : ResourceMapping)
  | removeMapping (clientIdentifier participantContext : String)
  | removeMappingsFor (clientIdentifier : String)
  | saveScopeMappings (mappings : List ScopeMapping)
  | updateScopeMapping (mapping : ScopeMapping)
  | removeScopeMapping (scope : String)

/-- The write goes to the resource mappings, not to the scope mappings.  No write goes to
both. -/
def StoreWrite.toMappings : StoreWrite → Bool
  | .saveMapping _ | .updateMapping _ | .removeMapping _ _ | .removeMappingsFor _ => true
  | .saveScopeMappings _ | .updateScopeMapping _ | .removeScopeMapping _ => false

/-- The scope mappings that a write carries, in their order.  A scope mapping in force has
come with such a write. -/
def StoreWrite.scopeRecords : StoreWrite → List ScopeMapping
  | .saveScopeMappings ms => ms
  | .updateScopeMapping m => [m]
  | .saveMapping _ | .updateMapping _ | .removeMapping _ _ | .removeMappingsFor _
  | .removeScopeMapping _ => []

/-- Call a writing operation by name, on any storage backend. -/
def ResourceStore.write {σ : Type} [ResourceStore σ] (store : σ) :
    StoreWrite → Except ResourceError Unit × σ
  | .saveMapping m => saveMapping store m
  | .updateMapping m => updateMapping store m
  | .removeMapping c x => removeMapping store c x
  | .removeMappingsFor c => removeMappingsFor store c
  | .saveScopeMappings ms => saveScopeMappings store ms
  | .updateScopeMapping m => updateScopeMapping store m
  | .removeScopeMapping s => removeScopeMapping store s

/-- The resource mappings and scope mappings in force, as partial functions.  Nothing is
said of how or in what order they are kept. -/
@[ext] structure Policy where
  mapping : String × String → Option ResourceMapping
  scope : String → Option ScopeMapping

namespace Policy

/-- Nothing is permitted, and no scope has a meaning.  This is what a new store holds. -/
def empty : Policy := ⟨fun _ => none, fun _ => none⟩

/-- The mapping of a client in a context, with the scope mappings of its scopes.  Other
scope mappings are not looked at. -/
def resolve (p : Policy) (c x : String) : Option MappingPair :=
  (p.mapping (c, x)).map fun m =>
    { resourceMapping := m
      scopeMappings := Std.ExtTreeMap.ofList
        (m.scopes.toList.filterMap fun s => (p.scope s).map fun sm => (s, sm)) compare }

/-- The first scope of a batch that is taken already or repeats in the batch.  It is the
one that the error of the batch names. -/
def firstTaken (taken : String → Bool) : List ScopeMapping → Option String
  | [] => none
  | m :: ms =>
      if taken m.scope then some m.scope
      else firstTaken (fun s => s == m.scope || taken s) ms

/-- The scope mappings after a batch, taken in one after another.  Whether a scope was
free is decided before. -/
def addScopes (scope : String → Option ScopeMapping) (ms : List ScopeMapping) :
    String → Option ScopeMapping :=
  ms.foldl (fun f m => Function.update f m.scope (some m)) scope

/-- The meaning of a writing operation: how it is answered, and the policy after it.  A
write that is refused leaves the policy as it is. -/
def write (p : Policy) : StoreWrite → Except ResourceError Unit × Policy
  | .saveMapping m =>
      if (p.mapping m.key).isSome then (.error (.conflict m.clientIdentifier), p)
      else (.ok (), { p with mapping := Function.update p.mapping m.key (some m) })
  | .updateMapping m =>
      if (p.mapping m.key).isSome then
        (.ok (), { p with mapping := Function.update p.mapping m.key (some m) })
      else (.error (.notFound m.clientIdentifier), p)
  | .removeMapping c x =>
      (.ok (), { p with mapping := Function.update p.mapping (c, x) none })
  | .removeMappingsFor c =>
      (.ok (), { p with mapping := fun k => if k.1 = c then none else p.mapping k })
  | .saveScopeMappings ms =>
      match firstTaken (fun s => (p.scope s).isSome) ms with
      | some s => (.error (.conflict s), p)
      | none => (.ok (), { p with scope := addScopes p.scope ms })
  | .updateScopeMapping m =>
      if (p.scope m.scope).isSome then
        (.ok (), { p with scope := Function.update p.scope m.scope (some m) })
      else (.error (.notFound m.scope), p)
  | .removeScopeMapping s =>
      (.ok (), { p with scope := Function.update p.scope s none })

/-- Every record is in force under the key made of its own identifiers.  Listings, which
have the records only, say everything then. -/
structure Keyed (p : Policy) : Prop where
  mapping : ∀ k m, p.mapping k = some m → m.key = k
  scope : ∀ s m, p.scope s = some m → m.scope = s

theorem keyed_empty : Keyed empty := by
  constructor <;> simp [empty]

/-- Writing a record under its own key, or clearing a key, keeps every record under its
own key. -/
private theorem update_keyed {A : Type} {K : Type} [DecidableEq K] {key : A → K}
    {f : K → Option A} (h : ∀ k a, f k = some a → key a = k) {k₀ : K} {o : Option A}
    (ho : ∀ a, o = some a → key a = k₀) :
    ∀ k a, Function.update f k₀ o k = some a → key a = k := by
  intro k a ha
  rw [Function.update_apply] at ha
  split at ha
  · next heq => rw [heq]; exact ho a ha
  · exact h k a ha

/-- A batch adds each of its mappings under its own scope, so the scope mappings stay
under their own names. -/
theorem addScopes_keyed {scope : String → Option ScopeMapping} {ms : List ScopeMapping}
    (h : ∀ s m, scope s = some m → m.scope = s) :
    ∀ s m, addScopes scope ms s = some m → m.scope = s := by
  induction ms generalizing scope with
  | nil => exact h
  | cons m₀ ms ih => exact ih (update_keyed h (by simp))

/-- Every writing operation keeps records under their own keys, so this holds of every
policy that a run of writes leads to. -/
theorem Keyed.write {p : Policy} (hp : p.Keyed) (w : StoreWrite) : (p.write w).2.Keyed := by
  cases w with
  | saveMapping m =>
      simp only [Policy.write]
      split
      · exact hp
      · exact ⟨update_keyed hp.mapping (by simp), hp.scope⟩
  | updateMapping m =>
      simp only [Policy.write]
      split
      · exact ⟨update_keyed hp.mapping (by simp), hp.scope⟩
      · exact hp
  | removeMapping c x => exact ⟨update_keyed hp.mapping (by simp), hp.scope⟩
  | removeMappingsFor c =>
      refine ⟨fun k m hm => ?_, hp.scope⟩
      simp only [Policy.write] at hm
      split at hm
      · cases hm
      · exact hp.mapping k m hm
  | saveScopeMappings ms =>
      simp only [Policy.write]
      split
      · exact hp
      · exact ⟨hp.mapping, addScopes_keyed hp.scope⟩
  | updateScopeMapping m =>
      simp only [Policy.write]
      split
      · exact ⟨hp.mapping, update_keyed hp.scope (by simp)⟩
      · exact hp
  | removeScopeMapping s => exact ⟨hp.mapping, update_keyed hp.scope (by simp)⟩

/-- A batch has no taken scope exactly when its scopes are free and distinct.  Only then
is it added. -/
theorem firstTaken_eq_none_iff {taken : String → Bool} {ms : List ScopeMapping} :
    firstTaken taken ms = none ↔
      (∀ m ∈ ms, taken m.scope = false) ∧ (ms.map ScopeMapping.scope).Nodup := by
  induction ms generalizing taken with
  | nil => simp [firstTaken]
  | cons m ms ih =>
      rw [firstTaken, List.map_cons, List.nodup_cons, List.forall_mem_cons]
      cases htaken : taken m.scope with
      | true => simp
      | false =>
          simp only [Bool.false_eq_true, if_false, ih, Bool.or_eq_false_iff,
            beq_eq_false_iff_ne, List.mem_map, not_exists, not_and, true_and]
          constructor
          · intro h
            obtain ⟨hfree, hnodup⟩ := h
            exact ⟨fun a ha => (hfree a ha).2, fun a ha => (hfree a ha).1, hnodup⟩
          · intro h
            obtain ⟨hfree, hne, hnodup⟩ := h
            exact ⟨fun a ha => ⟨hne a ha, hfree a ha⟩, hnodup⟩

/-- The scope blamed in a conflict is the first that is taken or repeats.  What comes
after it in the batch does not matter. -/
theorem firstTaken_eq_of_first {taken : String → Bool} {pre post : List ScopeMapping}
    {m : ScopeMapping} (hpre : firstTaken taken pre = none)
    (hm : taken m.scope = true ∨ ∃ m' ∈ pre, m'.scope = m.scope) :
    firstTaken taken (pre ++ m :: post) = some m.scope := by
  induction pre generalizing taken with
  | nil =>
      rcases hm with htaken | ⟨m', hm', -⟩
      · simp [firstTaken, htaken]
      · cases hm'
  | cons a pre ih =>
      rw [firstTaken] at hpre
      split at hpre
      · cases hpre
      · next hfree =>
        rw [List.cons_append, firstTaken, if_neg hfree]
        apply ih hpre
        rcases hm with htaken | ⟨m', hm', heq⟩
        · exact Or.inl (by simp [htaken])
        · rcases List.mem_cons.mp hm' with rfl | hm'
          · exact Or.inl (by simp [heq])
          · exact Or.inr ⟨m', hm', heq⟩

/-- The scope blamed in a conflict stays the same when the batch goes on, so the error of
a part is the error of the whole. -/
theorem firstTaken_append_of_eq_some {taken : String → Bool} {pre post : List ScopeMapping}
    {s : String} (h : firstTaken taken pre = some s) : firstTaken taken (pre ++ post) = some s := by
  induction pre generalizing taken with
  | nil => cases h
  | cons m pre ih =>
      rw [firstTaken] at h
      rw [List.cons_append, firstTaken]
      split at h
      · next htaken => rw [if_pos htaken, h]
      · next hfree => rw [if_neg hfree, ih h]

/-- After a batch with distinct scopes each of its scopes has its mapping, and every other
scope has what it had. -/
theorem addScopes_apply {ms : List ScopeMapping} (hms : (ms.map ScopeMapping.scope).Nodup)
    (scope : String → Option ScopeMapping) (s : String) :
    addScopes scope ms s = (ms.find? fun m => m.scope == s).elim (scope s) some := by
  induction ms generalizing scope with
  | nil => rfl
  | cons m ms ih =>
      rw [List.map_cons, List.nodup_cons] at hms
      have hcons : addScopes scope (m :: ms) s =
          addScopes (Function.update scope m.scope (some m)) ms s := rfl
      rw [hcons, ih hms.2]
      by_cases hs : m.scope = s
      · have hrest : (ms.find? fun m' => m'.scope == s) = none := by
          rw [List.find?_eq_none]
          intro m' hm' heq
          rw [beq_iff_eq, ← hs] at heq
          exact hms.1 (heq ▸ List.mem_map_of_mem hm')
        simp [hs, hrest]
      · simp [hs, Ne.symm hs]

/-- What a batch leaves at a scope depends on what that scope had, and on no other. -/
theorem addScopes_congr {f g : String → Option ScopeMapping} {s : String} (h : f s = g s)
    (ms : List ScopeMapping) : addScopes f ms s = addScopes g ms s := by
  induction ms generalizing f g with
  | nil => exact h
  | cons m ms ih =>
      refine ih ?_
      simp only [Function.update_apply, h]

/-- A batch adds its scopes: afterwards a scope is defined if it was so before or is one
of them. -/
theorem isSome_addScopes (scope : String → Option ScopeMapping) (ms : List ScopeMapping)
    (s : String) :
    (addScopes scope ms s).isSome = true ↔
      (scope s).isSome = true ∨ ∃ m ∈ ms, m.scope = s := by
  induction ms generalizing scope with
  | nil => simp [addScopes]
  | cons m ms ih =>
      refine (ih (Function.update scope m.scope (some m))).trans ?_
      rw [List.exists_mem_cons_iff, Function.update_apply]
      by_cases hs : s = m.scope
      · simp [hs]
      · simp [hs, Ne.symm hs]

/-- A batch leaves scopes alone that it does not name, whatever its mappings hold. -/
theorem addScopes_of_not_mem {f : String → Option ScopeMapping} {s : String}
    {ms : List ScopeMapping} (h : ∀ m ∈ ms, m.scope ≠ s) : addScopes f ms s = f s := by
  induction ms generalizing f with
  | nil => rfl
  | cons m ms ih =>
      refine (ih fun m' hm' => h m' (List.mem_cons_of_mem _ hm')).trans ?_
      exact Function.update_of_ne (h m List.mem_cons_self).symm _ _

/-- Whether a batch has a taken scope, and which, depends on its own scopes only and not
on what else is taken. -/
theorem firstTaken_congr {taken taken' : String → Bool} {ms : List ScopeMapping}
    (h : ∀ m ∈ ms, taken m.scope = taken' m.scope) :
    firstTaken taken ms = firstTaken taken' ms := by
  induction ms generalizing taken taken' with
  | nil => rfl
  | cons m ms ih =>
      rw [firstTaken, firstTaken, h m List.mem_cons_self]
      refine ite_congr rfl (fun _ => rfl) fun _ => ih fun m' hm' => ?_
      rw [h m' (List.mem_cons_of_mem _ hm')]

/-- A write that fails leaves the policy as it was.  This is true of each of the seven
operations, the batch included. -/
theorem write_error {p : Policy} {w : StoreWrite} {e : ResourceError}
    (h : (p.write w).1 = .error e) : (p.write w).2 = p := by
  cases w <;> simp only [Policy.write] at h ⊢ <;> (try split at h) <;> simp_all

/-- A mapping in force resolves to a pair with it, whether its scopes are defined or not.
-/
theorem resolve_of_mapping {p : Policy} {c x : String} {m : ResourceMapping}
    (hm : p.mapping (c, x) = some m) :
    ∃ pair, p.resolve c x = some pair ∧ pair.resourceMapping = m := by
  rw [Policy.resolve, hm]
  exact ⟨_, rfl, rfl⟩

/-- A write to the mappings leaves the scopes alone, whether it is accepted or not. -/
theorem write_scope {w : StoreWrite} (h : w.toMappings = true) (p : Policy) :
    (p.write w).2.scope = p.scope := by
  cases w with
  | saveMapping m => simp only [write]; split <;> rfl
  | updateMapping m => simp only [write]; split <;> rfl
  | removeMapping c x => rfl
  | removeMappingsFor c => rfl
  | saveScopeMappings ms => cases h
  | updateScopeMapping m => cases h
  | removeScopeMapping s => cases h

/-- A write to the scopes leaves the mappings alone, whether it is accepted or not. -/
theorem write_mapping {w : StoreWrite} (h : w.toMappings = false) (p : Policy) :
    (p.write w).2.mapping = p.mapping := by
  cases w with
  | saveMapping m => cases h
  | updateMapping m => cases h
  | removeMapping c x => cases h
  | removeMappingsFor c => cases h
  | saveScopeMappings ms => simp only [write]; split <;> rfl
  | updateScopeMapping m => simp only [write]; split <;> rfl
  | removeScopeMapping s => rfl

/-- A scope mapping in force after a write was in force before it or came with it. -/
theorem write_scope_origin {p : Policy} {w : StoreWrite} {s : String} {m : ScopeMapping}
    (h : (p.write w).2.scope s = some m) : p.scope s = some m ∨ m ∈ w.scopeRecords := by
  by_cases htable : w.toMappings = true
  · rw [write_scope htable] at h
    exact Or.inl h
  · cases w with
    | saveScopeMappings ms =>
        simp only [write] at h
        split at h
        · exact Or.inl h
        · next hfree =>
          have hscope := addScopes_apply (firstTaken_eq_none_iff.mp hfree).2 p.scope s
          replace h := hscope.symm.trans h
          cases hfind : ms.find? fun m' => m'.scope == s with
          | none =>
              rw [hfind] at h
              exact Or.inl h
          | some m' =>
              rw [hfind] at h
              cases h
              exact Or.inr (List.mem_of_find?_eq_some hfind)
    | updateScopeMapping m' =>
        simp only [write] at h
        split at h
        · simp only [Function.update_apply] at h
          split at h
          · cases h
            exact Or.inr (List.mem_singleton.mpr rfl)
          · exact Or.inl h
        · exact Or.inl h
    | removeScopeMapping s' =>
        simp only [write, Function.update_apply] at h
        split at h
        · cases h
        · exact Or.inl h
    | saveMapping m' => exact absurd rfl htable
    | updateMapping m' => exact absurd rfl htable
    | removeMapping c x => exact absurd rfl htable
    | removeMappingsFor c => exact absurd rfl htable

/-- A scope is looked up through `resolve` exactly when the mapping lists it, so a scope
that it does not list adds no claims. -/
theorem resolve_scopeMappings {p : Policy} {c x : String} {pair : MappingPair}
    (h : p.resolve c x = some pair) (s : String) :
    pair.scopeMappings[s]? = if s ∈ pair.resourceMapping.scopes then p.scope s else none := by
  obtain ⟨m, _, rfl⟩ := Option.map_eq_some_iff.mp h
  simp only [getElem?_ofList_filterMap (nodup_toList m.scopes), Std.ExtTreeSet.mem_toList]

end Policy

/-- The contract of a storage backend: what it holds reads as a policy, and every
operation answers and moves that policy as specified.  Listings may come in any order. -/
class PolicyStore (σ : Type) extends ResourceStore σ where
  /-- The store before any write. -/
  empty : σ
  /-- How the contents of the store read as a policy. -/
  policy : σ → Policy
  policy_empty : policy empty = Policy.empty
  resolveMapping_eq : ∀ store c x,
    resolveMapping store c x = .ok ((policy store).resolve c x)
  write_answer : ∀ store w,
    (ResourceStore.write store w).1 = ((policy store).write w).1
  write_policy : ∀ store w,
    policy (ResourceStore.write store w).2 = ((policy store).write w).2
  listMappings_spec : ∀ store, ∃ l, listMappings store = .ok l ∧
    (∀ m, m ∈ l ↔ ∃ k, (policy store).mapping k = some m) ∧
    ((policy store).Keyed → l.Nodup)
  listScopeMappings_spec : ∀ store, ∃ l, listScopeMappings store = .ok l ∧
    (∀ m, m ∈ l ↔ ∃ s, (policy store).scope s = some m) ∧
    ((policy store).Keyed → l.Nodup)

end Jwtlet

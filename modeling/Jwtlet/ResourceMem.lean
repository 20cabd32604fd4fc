import Jwtlet.PolicyModel

/-!
# The in-memory resource store

`jwtlet-core/src/resource/mem.rs`.  Every operation runs under one lock, so it
is one function of the store.  `memoryPolicyStore` proves the contract of a
storage backend for it.
-/

namespace Jwtlet

open Rust

/-- The two hash maps behind the lock: the resource mappings by client and context, and
the scope mappings by scope. -/
structure InnerStore where
  entries : HashMap (String × String) ResourceMapping
  scopeMappings : HashMap String ScopeMapping
  deriving DecidableEq

namespace MemoryResourceStore

def new : InnerStore := { entries := ∅, scopeMappings := ∅ }

/-- `resolve_mapping`: the mapping of the key with the scope mappings of its scopes, all
read under the same lock. -/
def resolveMapping (store : InnerStore) (clientIdentifier participantContext : String) :
    Except ResourceError (Option MappingPair) :=
  match store.entries[(clientIdentifier, participantContext)]? with
  | none => .ok none
  | some resourceMapping =>
      let scopeMappings := Std.ExtTreeMap.ofList
        (resourceMapping.scopes.toList.filterMap fun s =>
          store.scopeMappings[s]?.map fun m => (s, m)) compare
      .ok (some { resourceMapping, scopeMappings })

/-- `save_mapping`: a key that is there already is a conflict, which names the client but
not the context. -/
def saveMapping (store : InnerStore) (mapping : ResourceMapping) :
    Except ResourceError Unit × InnerStore :=
  let key := (mapping.clientIdentifier, mapping.participantContext)
  if store.entries.contains key then
    (.error (.conflict mapping.clientIdentifier), store)
  else
    (.ok (), { store with entries := store.entries.insert key mapping })

/-- `update_mapping`: the mapping is replaced as a whole, and a key that is not there is
an error. -/
def updateMapping (store : InnerStore) (mapping : ResourceMapping) :
    Except ResourceError Unit × InnerStore :=
  let key := (mapping.clientIdentifier, mapping.participantContext)
  if !store.entries.contains key then
    (.error (.notFound mapping.clientIdentifier), store)
  else
    (.ok (), { store with entries := store.entries.insert key mapping })

/-- `remove_mapping`: removing what is not there succeeds as well, so that a removal can
be made twice. -/
def removeMapping (store : InnerStore) (clientIdentifier participantContext : String) :
    Except ResourceError Unit × InnerStore :=
  (.ok (), { store with entries := store.entries.erase (clientIdentifier, participantContext) })

/-- `remove_mappings_for`: the mappings of a client go, in every context, and no others
do. -/
def removeMappingsFor (store : InnerStore) (clientIdentifier : String) :
    Except ResourceError Unit × InnerStore :=
  (.ok (), { store with entries := store.entries.filter fun key _ => key.1 != clientIdentifier })

/-- The first loop of `save_scope_mappings`: no scope of the batch may be stored already
or have been seen earlier in the batch. -/
def checkBatch (stored : HashMap String ScopeMapping) (seen : HashSet String) :
    List ScopeMapping → Except ResourceError Unit
  | [] => .ok ()
  | mapping :: rest =>
      if stored.contains mapping.scope || seen.contains mapping.scope then
        .error (.conflict mapping.scope)
      else
        checkBatch stored (seen.insert mapping.scope) rest

/-- The second loop of `save_scope_mappings`, which stores the mappings of a batch that
the first loop has let pass. -/
def insertBatch (stored : HashMap String ScopeMapping) (mappings : List ScopeMapping) :
    HashMap String ScopeMapping :=
  mappings.foldl (fun acc mapping => acc.insert mapping.scope mapping) stored

/-- `save_scope_mappings`: nothing is stored before the whole batch has been checked,
against the store and against itself. -/
def saveScopeMappings (store : InnerStore) (mappings : List ScopeMapping) :
    Except ResourceError Unit × InnerStore :=
  match checkBatch store.scopeMappings ∅ mappings with
  | .error e => (.error e, store)
  | .ok () => (.ok (), { store with scopeMappings := insertBatch store.scopeMappings mappings })

/-- `update_scope_mapping`: the scope mapping is replaced, and a scope that is not there
is an error. -/
def updateScopeMapping (store : InnerStore) (mapping : ScopeMapping) :
    Except ResourceError Unit × InnerStore :=
  if !store.scopeMappings.contains mapping.scope then
    (.error (.notFound mapping.scope), store)
  else
    (.ok (), { store with scopeMappings := store.scopeMappings.insert mapping.scope mapping })

/-- `remove_scope_mapping`: removing what is not there succeeds as well, as for a resource
mapping. -/
def removeScopeMapping (store : InnerStore) (scope : String) :
    Except ResourceError Unit × InnerStore :=
  (.ok (), { store with scopeMappings := store.scopeMappings.erase scope })

/-- `list_mappings`, in the order of the hash map, of which nothing is known. -/
def listMappings (store : InnerStore) : Except ResourceError (List ResourceMapping) :=
  .ok (store.entries.toList.map Prod.snd)

/-- `list_scope_mappings`, in the order of the hash map, of which nothing is known. -/
def listScopeMappings (store : InnerStore) : Except ResourceError (List ScopeMapping) :=
  .ok (store.scopeMappings.toList.map Prod.snd)

instance : ResourceStore InnerStore where
  resolveMapping := resolveMapping
  saveMapping := saveMapping
  updateMapping := updateMapping
  removeMapping := removeMapping
  removeMappingsFor := removeMappingsFor
  saveScopeMappings := saveScopeMappings
  updateScopeMapping := updateScopeMapping
  removeScopeMapping := removeScopeMapping
  listMappings := listMappings
  listScopeMappings := listScopeMappings

/-- The policy held by the two maps: looking up a key is looking it up in its map.  The
abstraction forgets nothing of the store. -/
def policy (store : InnerStore) : Policy where
  mapping := fun k => store.entries[k]?
  scope := fun s => store.scopeMappings[s]?

/-- The mapping in force for a key is the one stored under it. -/
@[simp] theorem policy_mapping (store : InnerStore) (k : String × String) :
    (policy store).mapping k = store.entries[k]? := rfl

/-- The scope mapping in force for a scope is the one stored under it. -/
@[simp] theorem policy_scope (store : InnerStore) (s : String) :
    (policy store).scope s = store.scopeMappings[s]? := rfl

/-- Inserting into a map updates the function it stands for. -/
private theorem getElem?_insert_eq_update {K V : Type} [Ord K] [Std.TransOrd K]
    [Std.LawfulEqOrd K] [DecidableEq K] (m : HashMap K V) (k : K) (v : V) :
    (fun k' : K => (m.insert k v)[k']?) = Function.update (fun k' : K => m[k']?) k (some v) := by
  funext k'
  rw [Std.ExtTreeMap.getElem?_insert, Function.update_apply]
  simp only [Std.compare_eq_iff_eq, @eq_comm K k k']

/-- Erasing from a map updates the function it stands for. -/
private theorem getElem?_erase_eq_update {K V : Type} [Ord K] [Std.TransOrd K]
    [Std.LawfulEqOrd K] [DecidableEq K] (m : HashMap K V) (k : K) :
    (fun k' : K => (m.erase k)[k']?) = Function.update (fun k' : K => m[k']?) k none := by
  funext k'
  rw [Std.ExtTreeMap.getElem?_erase, Function.update_apply]
  simp only [Std.compare_eq_iff_eq, @eq_comm K k k']

/-- Storing a mapping puts it in force under its key, and leaves everything else in force
as it was. -/
theorem policy_insert_entry (store : InnerStore) (k : String × String) (m : ResourceMapping) :
    policy { store with entries := store.entries.insert k m } =
      { policy store with mapping := Function.update (policy store).mapping k (some m) } :=
  Policy.ext (getElem?_insert_eq_update _ _ _) rfl

/-- Erasing a mapping leaves nothing in force under its key, and everything else as it
was. -/
theorem policy_erase_entry (store : InnerStore) (k : String × String) :
    policy { store with entries := store.entries.erase k } =
      { policy store with mapping := Function.update (policy store).mapping k none } :=
  Policy.ext (getElem?_erase_eq_update _ _) rfl

theorem policy_insert_scope (store : InnerStore) (s : String) (m : ScopeMapping) :
    policy { store with scopeMappings := store.scopeMappings.insert s m } =
      { policy store with scope := Function.update (policy store).scope s (some m) } :=
  Policy.ext rfl (getElem?_insert_eq_update _ _ _)

theorem policy_erase_scope (store : InnerStore) (s : String) :
    policy { store with scopeMappings := store.scopeMappings.erase s } =
      { policy store with scope := Function.update (policy store).scope s none } :=
  Policy.ext rfl (getElem?_erase_eq_update _ _)

/-- The seen-set loop blames the first scope that is stored or repeats, which is the scope
that the policy blames. -/
theorem checkBatch_eq (stored : HashMap String ScopeMapping) (seen : HashSet String)
    (mappings : List ScopeMapping) :
    checkBatch stored seen mappings =
      match Policy.firstTaken (fun s => stored.contains s || seen.contains s) mappings with
      | some s => .error (.conflict s)
      | none => .ok () := by
  induction mappings generalizing seen with
  | nil => rfl
  | cons mapping rest ih =>
      rw [checkBatch, Policy.firstTaken]
      split
      · rfl
      · rw [ih]
        have htaken : (fun s => stored.contains s || (seen.insert mapping.scope).contains s) =
            fun s => s == mapping.scope || (stored.contains s || seen.contains s) := by
          funext s
          have heq : (compare mapping.scope s == .eq) = (s == mapping.scope) := by
            rw [Bool.eq_iff_iff, beq_iff_eq, beq_iff_eq, Std.compare_eq_iff_eq]
            exact eq_comm
          rw [Std.ExtTreeSet.contains_insert, heq, Bool.or_left_comm]
        rw [htaken]

/-- The inserting loop adds the batch to the scope mappings in force, in the order of the
batch. -/
theorem insertBatch_eq (stored : HashMap String ScopeMapping) (mappings : List ScopeMapping) :
    (fun s : String => (insertBatch stored mappings)[s]?) =
      Policy.addScopes (fun s => stored[s]?) mappings := by
  induction mappings generalizing stored with
  | nil => rfl
  | cons mapping rest ih =>
      change (fun s : String => (insertBatch (stored.insert mapping.scope mapping) rest)[s]?) = _
      rw [ih, getElem?_insert_eq_update]
      rfl

/-- A client and context resolve as the policy has it, and without an error, as there is
nothing that could fail. -/
theorem resolveMapping_eq (store : InnerStore) (c x : String) :
    resolveMapping store c x = .ok ((policy store).resolve c x) := by
  simp only [resolveMapping, Policy.resolve, policy]
  cases store.entries[(c, x)]? <;> rfl

/-- Saving a mapping answers as the policy prescribes and moves the policy so.  The same
is shown of each operation that writes. -/
theorem saveMapping_refines (store : InnerStore) (m : ResourceMapping) :
    Prod.map id policy (saveMapping store m) = (policy store).write (.saveMapping m) := by
  by_cases hkey : store.entries.contains (m.clientIdentifier, m.participantContext)
  · simp [saveMapping, Policy.write, ResourceMapping.key, hkey]
  · simp [saveMapping, Policy.write, ResourceMapping.key, hkey, policy_insert_entry]

/-- Updating a mapping answers as the policy prescribes and moves the policy so. -/
theorem updateMapping_refines (store : InnerStore) (m : ResourceMapping) :
    Prod.map id policy (updateMapping store m) = (policy store).write (.updateMapping m) := by
  by_cases hkey : store.entries.contains (m.clientIdentifier, m.participantContext)
  · simp [updateMapping, Policy.write, ResourceMapping.key, hkey, policy_insert_entry]
  · simp [updateMapping, Policy.write, ResourceMapping.key, hkey]

/-- Removing the mappings of a client answers as the policy prescribes and moves the
policy so. -/
theorem removeMappingsFor_refines (store : InnerStore) (c : String) :
    Prod.map id policy (removeMappingsFor store c) =
      (policy store).write (.removeMappingsFor c) := by
  refine Prod.ext rfl (Policy.ext ?_ rfl)
  funext k
  change (store.entries.filter fun key _ => key.1 != c)[k]? =
    if k.1 = c then none else store.entries[k]?
  rw [Std.ExtTreeMap.getElem?_filter']
  by_cases hk : k.1 = c <;> cases store.entries[k]? <;> simp [Option.filter, hk]

/-- A batch answers as the policy prescribes and moves the policy so: checked as a whole,
then stored as a whole. -/
theorem saveScopeMappings_refines (store : InnerStore) (ms : List ScopeMapping) :
    Prod.map id policy (saveScopeMappings store ms) =
      (policy store).write (.saveScopeMappings ms) := by
  have hcheck := checkBatch_eq store.scopeMappings ∅ ms
  simp only [Std.ExtTreeSet.contains_empty, Bool.or_false] at hcheck
  simp only [saveScopeMappings, Policy.write, policy_scope,
    Std.ExtTreeMap.isSome_getElem?_eq_contains, hcheck]
  cases Policy.firstTaken (fun s => store.scopeMappings.contains s) ms with
  | some s => rfl
  | none => exact Prod.ext rfl (Policy.ext rfl (insertBatch_eq _ _))

/-- Updating a scope mapping answers as the policy prescribes and moves the policy so. -/
theorem updateScopeMapping_refines (store : InnerStore) (m : ScopeMapping) :
    Prod.map id policy (updateScopeMapping store m) =
      (policy store).write (.updateScopeMapping m) := by
  by_cases hkey : store.scopeMappings.contains m.scope
  · simp [updateScopeMapping, Policy.write, hkey, policy_insert_scope]
  · simp [updateScopeMapping, Policy.write, hkey]

/-- **Refinement.** Every writing operation answers as the policy prescribes and moves the
policy so, from any contents of the two maps. -/
theorem write_refines (store : InnerStore) (w : StoreWrite) :
    Prod.map id policy (ResourceStore.write store w) = (policy store).write w := by
  cases w with
  | saveMapping m => exact saveMapping_refines store m
  | updateMapping m => exact updateMapping_refines store m
  | removeMapping c x => exact Prod.ext rfl (policy_erase_entry store (c, x))
  | removeMappingsFor c => exact removeMappingsFor_refines store c
  | saveScopeMappings ms => exact saveScopeMappings_refines store ms
  | updateScopeMapping m => exact updateScopeMapping_refines store m
  | removeScopeMapping s => exact Prod.ext rfl (policy_erase_scope store s)

/-- The values of a map in which each value knows its key are distinct, so a listing of
them repeats nothing. -/
theorem nodup_values {K V : Type} [Ord K] [Std.TransOrd K] [Std.LawfulEqOrd K]
    (m : HashMap K V) (key : V → K) (hkey : ∀ k v, m[k]? = some v → key v = k) :
    (m.toList.map Prod.snd).Nodup := by
  refine (List.Nodup.of_map Prod.fst (nodup_keys_toList m)).map_on ?_
  intro e he e' he' heq
  obtain ⟨k, v⟩ := e
  obtain ⟨k', v'⟩ := e'
  cases heq
  rw [← hkey k v (mem_toList_iff.mp he), ← hkey k' v (mem_toList_iff.mp he')]

/-- The memory store keeps the contract of a storage backend, from any contents. -/
instance memoryPolicyStore : PolicyStore InnerStore where
  empty := new
  policy := policy
  policy_empty := by
    simp [policy, new, Policy.empty]
  resolveMapping_eq := resolveMapping_eq
  write_answer store w := congrArg Prod.fst (write_refines store w)
  write_policy store w := congrArg Prod.snd (write_refines store w)
  listMappings_spec store :=
    ⟨_, rfl, fun _ => mem_map_snd_toList, fun h => nodup_values _ _ h.mapping⟩
  listScopeMappings_spec store :=
    ⟨_, rfl, fun _ => mem_map_snd_toList, fun h => nodup_values _ _ h.scope⟩

end MemoryResourceStore

end Jwtlet

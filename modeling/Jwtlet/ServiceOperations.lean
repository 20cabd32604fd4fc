import Jwtlet.MachineRuns
import Jwtlet.ResourceService

/-!
# Runs of the resource service

The operations of `ResourceService` as a machine over a store.  What an
operation does to the policy is said once, in `perform_policy`: validation either
stops it or passes one write on to the store (`ServiceOp.accepted`), and whether
it does depends on the arguments alone.
-/

namespace Jwtlet

open Rust

/-- A call of one of the ten operations of `ResourceService`, with its arguments, so that
a run of the service is a list of calls. -/
inductive ServiceOp where
  | verify (clientIdentifier participantContext : String) (scopes : List String)
  | save (mapping : ResourceMapping)
  | update (mapping : ResourceMapping)
  | remove (clientId context : String)
  | removeFor (clientId : String)
  | saveScopeMappings (mappings : List ScopeMapping)
  | updateScopeMapping (mapping : ScopeMapping)
  | deleteScopeMapping (scope : String)
  | listMappings
  | listScopeMappings
  deriving DecidableEq

/-- What a call returns, by the kind of operation: a verification, the end of a write, or
a listing. -/
inductive ServiceAnswer where
  | verified (r : Except ResourceError VerificationResult)
  | done (r : Except ResourceError Unit)
  | mappings (r : Except ResourceError (List ResourceMapping))
  | scopeMappings (r : Except ResourceError (List ScopeMapping))
  deriving DecidableEq

/-- A call that writes, with its result and the store after it. -/
def writing {σ : Type} (r : Except ResourceError Unit × σ) : ServiceAnswer × σ := (.done r.1, r.2)

/-- Run one call, which answers and leaves a store behind.  This is the step of the
service as a machine. -/
def ServiceOp.perform {σ : Type} [ResourceStore σ] (store : σ) : ServiceOp → ServiceAnswer × σ
  | .verify c x scopes => (.verified (ResourceService.verify store c x scopes), store)
  | .save m => writing (ResourceService.save store m)
  | .update m => writing (ResourceService.update store m)
  | .remove c x => writing (ResourceService.remove store c x)
  | .removeFor c => writing (ResourceService.removeFor store c)
  | .saveScopeMappings ms => writing (ResourceService.saveScopeMappings store ms)
  | .updateScopeMapping m => writing (ResourceService.updateScopeMapping store m)
  | .deleteScopeMapping s => writing (ResourceService.deleteScopeMapping store s)
  | .listMappings => (.mappings (ResourceService.listMappings store), store)
  | .listScopeMappings => (.scopeMappings (ResourceService.listScopeMappings store), store)

/-- The write `w` if its validation passed.  What was refused is never passed on. -/
def passOn (validation : Except ResourceError Unit) (w : StoreWrite) : Option StoreWrite :=
  match validation with
  | .ok () => some w
  | .error _ => none

/-- A write is passed on as it is, and only if its validation passed. -/
theorem passOn_eq_some_iff {r : Except ResourceError Unit} {w w' : StoreWrite} :
    passOn r w = some w' ↔ r = .ok () ∧ w = w' := by
  cases r <;> simp [passOn]

/-- A write is not passed on exactly when its validation ended with an error. -/
theorem passOn_eq_none_iff {r : Except ResourceError Unit} {w : StoreWrite} :
    passOn r w = none ↔ ∃ e, r = .error e := by
  cases r <;> simp [passOn]

/-- The write that an operation passes on to the store, if validation lets it.  It does
not depend on the store. -/
def ServiceOp.accepted : ServiceOp → Option StoreWrite
  | .save m => passOn (validateResourceMapping m) (.saveMapping m)
  | .update m => passOn (validateResourceMapping m) (.updateMapping m)
  | .remove c x => some (.removeMapping c x)
  | .removeFor c => some (.removeMappingsFor c)
  | .saveScopeMappings ms => passOn (ms.forM validateScopeMapping) (.saveScopeMappings ms)
  | .updateScopeMapping m => passOn (validateScopeMapping m) (.updateScopeMapping m)
  | .deleteScopeMapping s => some (.removeScopeMapping s)
  | .verify _ _ _ | .listMappings | .listScopeMappings => none

/-- The call was a write and returned `Ok`. -/
def ServiceAnswer.isDone : ServiceAnswer → Bool
  | .done (.ok ()) => true
  | _ => false

section Stores

variable {σ : Type} [ResourceStore σ]

/-- An accepted operation is its write: the service adds nothing to what the store does.
-/
theorem perform_of_accepted {op : ServiceOp} {w : StoreWrite} (h : op.accepted = some w)
    (store : σ) : op.perform store = writing (ResourceStore.write store w) := by
  cases op with
  | save m =>
      obtain ⟨hok, rfl⟩ := passOn_eq_some_iff.mp h
      simp only [ServiceOp.perform, ResourceService.save, hok, ResourceStore.write]
  | update m =>
      obtain ⟨hok, rfl⟩ := passOn_eq_some_iff.mp h
      simp only [ServiceOp.perform, ResourceService.update, hok, ResourceStore.write]
  | saveScopeMappings ms =>
      obtain ⟨hok, rfl⟩ := passOn_eq_some_iff.mp h
      simp only [ServiceOp.perform, ResourceService.saveScopeMappings, hok, ResourceStore.write]
  | updateScopeMapping m =>
      obtain ⟨hok, rfl⟩ := passOn_eq_some_iff.mp h
      simp only [ServiceOp.perform, ResourceService.updateScopeMapping, hok, ResourceStore.write]
  | remove c x => cases h; rfl
  | removeFor c => cases h; rfl
  | deleteScopeMapping s => cases h; rfl
  | verify c x scopes => cases h
  | listMappings => cases h
  | listScopeMappings => cases h

/-- Any other operation leaves the store alone, and does not succeed as a write: it reads,
or was refused. -/
theorem perform_of_not_accepted {op : ServiceOp} (h : op.accepted = none) (store : σ) :
    (op.perform store).2 = store ∧ (op.perform store).1.isDone = false := by
  cases op with
  | save m =>
      obtain ⟨e, he⟩ := passOn_eq_none_iff.mp h
      simp [ServiceOp.perform, ResourceService.save, he, writing, ServiceAnswer.isDone]
  | update m =>
      obtain ⟨e, he⟩ := passOn_eq_none_iff.mp h
      simp [ServiceOp.perform, ResourceService.update, he, writing, ServiceAnswer.isDone]
  | saveScopeMappings ms =>
      obtain ⟨e, he⟩ := passOn_eq_none_iff.mp h
      simp [ServiceOp.perform, ResourceService.saveScopeMappings, he, writing,
        ServiceAnswer.isDone]
  | updateScopeMapping m =>
      obtain ⟨e, he⟩ := passOn_eq_none_iff.mp h
      simp [ServiceOp.perform, ResourceService.updateScopeMapping, he, writing,
        ServiceAnswer.isDone]
  | remove c x => cases h
  | removeFor c => cases h
  | deleteScopeMapping s => cases h
  | verify c x scopes => exact ⟨rfl, rfl⟩
  | listMappings => exact ⟨rfl, rfl⟩
  | listScopeMappings => exact ⟨rfl, rfl⟩

end Stores

section Policies

variable {σ : Type} [PolicyStore σ]

/-- **What an operation does to the policy.** It makes its accepted write, if it has one,
and otherwise nothing. -/
theorem perform_policy (op : ServiceOp) (store : σ) :
    PolicyStore.policy (op.perform store).2 =
      op.accepted.elim (PolicyStore.policy store) fun w =>
        ((PolicyStore.policy store).write w).2 := by
  cases h : op.accepted with
  | none => rw [(perform_of_not_accepted h store).1]; rfl
  | some w =>
      rw [perform_of_accepted h]
      exact PolicyStore.write_policy store w

/-- The answer of an accepted operation is the one that the policy gives to its write. -/
theorem perform_answer {op : ServiceOp} {w : StoreWrite} (h : op.accepted = some w) (store : σ) :
    (op.perform store).1 = .done ((PolicyStore.policy store).write w).1 := by
  rw [perform_of_accepted h, ← PolicyStore.write_answer]
  rfl

end Policies

end Jwtlet

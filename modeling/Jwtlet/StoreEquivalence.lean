import Jwtlet.MachineRuns
import Jwtlet.ResourceMem
import Jwtlet.ResourcePostgres

/-!
# The two storage backends are interchangeable

Both backends keep the contract of `PolicyStore`, so both are driven by the
same policy.  Run on the same operations from empty, they stay in agreement on
the policy, every record stays under its own key, and from that every answer
agrees; the two listings agree up to order.
-/

namespace Jwtlet

open Rust

/-- A call of one of the ten methods of `ResourceStore`, with its arguments.  The seven
that write are kept together. -/
inductive StoreOp where
  | resolveMapping (clientIdentifier participantContext : String)
  | write (w : StoreWrite)
  | listMappings
  | listScopeMappings

/-- What a call returns in its `Ok` variant: nothing, a resolved pair if there is one, or
a listing. -/
inductive StoreAnswer where
  | done
  | pair (pair : Option MappingPair)
  | mappings (l : List ResourceMapping)
  | scopeMappings (l : List ScopeMapping)

/-- Run one call, which answers and leaves a store behind.  Calls that read leave the same
one. -/
def StoreOp.perform {σ : Type} [ResourceStore σ] (store : σ) :
    StoreOp → Except ResourceError StoreAnswer × σ
  | .resolveMapping c x => ((ResourceStore.resolveMapping store c x).map .pair, store)
  | .write w =>
      let (answer, store') := ResourceStore.write store w
      (answer.map fun _ => .done, store')
  | .listMappings => ((ResourceStore.listMappings store).map .mappings, store)
  | .listScopeMappings => ((ResourceStore.listScopeMappings store).map .scopeMappings, store)

/-- The same answer: equal errors, equal values, and for a listing the same records in
whatever order. -/
inductive SameAnswer : Except ResourceError StoreAnswer → Except ResourceError StoreAnswer → Prop
  | error (e : ResourceError) : SameAnswer (.error e) (.error e)
  | done : SameAnswer (.ok .done) (.ok .done)
  | pair (p : Option MappingPair) : SameAnswer (.ok (.pair p)) (.ok (.pair p))
  | mappings {l l' : List ResourceMapping} (h : l.Perm l') :
      SameAnswer (.ok (.mappings l)) (.ok (.mappings l'))
  | scopeMappings {l l' : List ScopeMapping} (h : l.Perm l') :
      SameAnswer (.ok (.scopeMappings l)) (.ok (.scopeMappings l'))

section Agreement

variable {σ τ : Type} [PolicyStore σ] [PolicyStore τ]

/-- Two stores hold the same policy, with every record under its own key.  How they keep
it may differ in every way. -/
def Agree (store : σ) (store' : τ) : Prop :=
  PolicyStore.policy store = PolicyStore.policy store' ∧ (PolicyStore.policy store).Keyed

theorem agree_empty : Agree (PolicyStore.empty : σ) (PolicyStore.empty : τ) := by
  refine ⟨?_, ?_⟩
  · rw [PolicyStore.policy_empty, PolicyStore.policy_empty]
  · rw [PolicyStore.policy_empty]
    exact Policy.keyed_empty

/-- Agreeing stores resolve every client and context alike: both have the answer of the
policy. -/
theorem resolveMapping_agree {store : σ} {store' : τ} (h : Agree store store') (c x : String) :
    ResourceStore.resolveMapping store c x = ResourceStore.resolveMapping store' c x := by
  rw [PolicyStore.resolveMapping_eq, PolicyStore.resolveMapping_eq, h.1]

/-- Agreeing stores answer every write alike and agree after it.  Both move the same
policy in the same way. -/
theorem write_agree {store : σ} {store' : τ} (h : Agree store store') (w : StoreWrite) :
    (ResourceStore.write store w).1 = (ResourceStore.write store' w).1 ∧
      Agree (ResourceStore.write store w).2 (ResourceStore.write store' w).2 := by
  refine ⟨?_, ?_, ?_⟩
  · rw [PolicyStore.write_answer, PolicyStore.write_answer, h.1]
  · rw [PolicyStore.write_policy, PolicyStore.write_policy, h.1]
  · rw [PolicyStore.write_policy]
    exact h.2.write w

/-- Agreeing stores list the same resource mappings, in some order: both list what is in
force, each once. -/
theorem listMappings_agree {store : σ} {store' : τ} (h : Agree store store') :
    ∃ l l', ResourceStore.listMappings store = .ok l ∧
      ResourceStore.listMappings store' = .ok l' ∧ l.Perm l' := by
  obtain ⟨l, hl, hmem, hnodup⟩ := PolicyStore.listMappings_spec store
  obtain ⟨l', hl', hmem', hnodup'⟩ := PolicyStore.listMappings_spec store'
  refine ⟨l, l', hl, hl', ?_⟩
  rw [List.perm_ext_iff_of_nodup (hnodup h.2) (hnodup' (h.1 ▸ h.2))]
  intro m
  rw [hmem, hmem', h.1]

/-- Agreeing stores list the same scope mappings, in some order: both list what is in
force, each once. -/
theorem listScopeMappings_agree {store : σ} {store' : τ} (h : Agree store store') :
    ∃ l l', ResourceStore.listScopeMappings store = .ok l ∧
      ResourceStore.listScopeMappings store' = .ok l' ∧ l.Perm l' := by
  obtain ⟨l, hl, hmem, hnodup⟩ := PolicyStore.listScopeMappings_spec store
  obtain ⟨l', hl', hmem', hnodup'⟩ := PolicyStore.listScopeMappings_spec store'
  refine ⟨l, l', hl, hl', ?_⟩
  rw [List.perm_ext_iff_of_nodup (hnodup h.2) (hnodup' (h.1 ▸ h.2))]
  intro m
  rw [hmem, hmem', h.1]

/-- One call on agreeing stores: the same answer, and agreement after it.  This is the
step of the simulation. -/
theorem perform_agree {store : σ} {store' : τ} (h : Agree store store') (op : StoreOp) :
    SameAnswer (op.perform store).1 (op.perform store').1 ∧
      Agree (op.perform store).2 (op.perform store').2 := by
  cases op with
  | resolveMapping c x =>
      refine ⟨?_, h⟩
      simp only [StoreOp.perform, resolveMapping_agree h, PolicyStore.resolveMapping_eq]
      exact .pair _
  | write w =>
      obtain ⟨hanswer, hagree⟩ := write_agree h w
      refine ⟨?_, hagree⟩
      simp only [StoreOp.perform, hanswer]
      cases (ResourceStore.write store' w).1 with
      | ok _ => exact .done
      | error e => exact .error e
  | listMappings =>
      refine ⟨?_, h⟩
      obtain ⟨l, l', hl, hl', hperm⟩ := listMappings_agree h
      simp only [StoreOp.perform, hl, hl']
      exact .mappings hperm
  | listScopeMappings =>
      refine ⟨?_, h⟩
      obtain ⟨l, l', hl, hl', hperm⟩ := listScopeMappings_agree h
      simp only [StoreOp.perform, hl, hl']
      exact .scopeMappings hperm

end Agreement

/-- **Interchangeable backends.**  For every sequence of calls, run from empty
stores, the memory store and the Postgres store give the same answer at every
step. -/
theorem memory_postgres_interchangeable (ops : List StoreOp) :
    List.Forall₂ (fun e e' => e.1 = e'.1 ∧ SameAnswer e.2 e'.2)
      (Machine.history StoreOp.perform MemoryResourceStore.new ops)
      (Machine.history StoreOp.perform PostgresResourceStore.initialized ops) :=
  (Machine.simulation (R := Agree) (A := fun _ => SameAnswer)
    (fun _ _ op h => perform_agree h op) agree_empty ops).1

end Jwtlet

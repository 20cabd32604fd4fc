import Jwtlet.ResourceMem
import Jwtlet.ServiceOperations

/-!
# The policy in force is the last write

What a run of the service over the memory store leaves in force is read off its
history, the calls with their answers.  The mapping of one client in one context
is one cell of the state, the mapping of one scope another; each call puts a
value into a cell, clears it or leaves it alone, and a cell holds what was last
put and not cleared since.

For two runs it is enough that they agree on the calls that touch the cells that
a verification reads (`touch`).  `Policy.restrict` forgets all other cells, and
the restricted policy moves by the touching calls alone.
-/

namespace Jwtlet

open Rust Machine

/-- A call of the service with its answer, an entry of a history.  The answer says whether
a write took place. -/
abbrev ServiceEntry := ServiceOp × ServiceAnswer

/-- A successful save or update of `m` under the key `(c, x)`.  A call that was refused
puts nothing. -/
def PutsMapping (c x : String) (m : ResourceMapping) (e : ServiceEntry) : Prop :=
  (e.1 = .save m ∨ e.1 = .update m) ∧ m.key = (c, x) ∧ e.2 = .done (.ok ())

/-- A removal of the key `(c, x)`, alone or with all keys of the client.  It counts also
if there was nothing to remove. -/
def RemovesMapping (c x : String) (e : ServiceEntry) : Prop :=
  e.1 = .remove c x ∨ e.1 = .removeFor c

/-- A successful batch with `m` in it, or a successful update to `m`, for the scope `s`.
A batch that was refused puts none of its elements. -/
def PutsScope (s : String) (m : ScopeMapping) (e : ServiceEntry) : Prop :=
  ((∃ ms, e.1 = .saveScopeMappings ms ∧ m ∈ ms) ∨ e.1 = .updateScopeMapping m) ∧
    m.scope = s ∧ e.2 = .done (.ok ())

/-- A removal of the scope `s`.  It counts also if there was nothing to remove. -/
def RemovesScope (s : String) (e : ServiceEntry) : Prop := e.1 = .deleteScopeMapping s

/-- What a call does to the mapping under `(c, x)`, read off the call and its answer,
without a look at the store. -/
def mappingEffect (c x : String) : ServiceEntry → Effect ResourceMapping
  | (.save m, answer) | (.update m, answer) =>
      .putIf (m.key = (c, x) ∧ answer = .done (.ok ())) m
  | (.remove c' x', _) => .clearIf (c' = c ∧ x' = x)
  | (.removeFor c', _) => .clearIf (c' = c)
  | _ => .keep

/-- What a call does to the mapping of the scope `s`, read off the call and its answer.  A
batch puts the first of its mappings for the scope. -/
def scopeEffect (s : String) : ServiceEntry → Effect ScopeMapping
  | (.saveScopeMappings ms, answer) =>
      (ms.find? fun m => m.scope == s).elim .keep (.putIf (answer = .done (.ok ())))
  | (.updateScopeMapping m, answer) => .putIf (m.scope = s ∧ answer = .done (.ok ())) m
  | (.deleteScopeMapping s', _) => .clearIf (s' = s)
  | _ => .keep

section MappingCell

variable {c x : String}

/-- The effect is to put `m` exactly when the call has put it under the key, and been
answered so. -/
theorem mappingEffect_eq_put_iff {m : ResourceMapping} {e : ServiceEntry} :
    mappingEffect c x e = .put m ↔ PutsMapping c x m e := by
  obtain ⟨op, answer⟩ := e
  cases op with
  | save m' => simp [mappingEffect, PutsMapping]; grind
  | update m' => simp [mappingEffect, PutsMapping]; grind
  | _ => simp [mappingEffect, PutsMapping]

/-- The effect is to clear exactly when the call removes the key, by itself or with the
client's others. -/
theorem mappingEffect_eq_clear_iff {e : ServiceEntry} :
    mappingEffect c x e = .clear ↔ RemovesMapping c x e := by
  obtain ⟨op, answer⟩ := e
  cases op <;> simp [mappingEffect, RemovesMapping]

/-- An effect that does not leave a cell as it is puts something into it or clears it. -/
theorem effect_ne_keep_iff {V : Type} (eff : Effect V) :
    eff ≠ .keep ↔ (∃ v, eff = .put v) ∨ eff = .clear := by
  cases eff <;> simp

theorem mappingEffect_of_not_accepted {op : ServiceOp} (h : op.accepted = none)
    {answer : ServiceAnswer} (hdone : answer.isDone = false) :
    mappingEffect c x (op, answer) = .keep := by
  have hne : answer ≠ .done (.ok ()) := by
    intro heq
    subst heq
    cases hdone
  cases op with
  | save m => simp [mappingEffect, hne]
  | update m => simp [mappingEffect, hne]
  | remove c' x' => cases h
  | removeFor c' => cases h
  | _ => rfl

/-- An accepted call changes the mapping under a key by its effect, on any policy.  The
store enters by its answer alone. -/
theorem mapping_of_accepted {op : ServiceOp} {w : StoreWrite} (h : op.accepted = some w)
    (p : Policy) :
    (p.write w).2.mapping (c, x) =
      (mappingEffect c x (op, .done (p.write w).1)).apply (p.mapping (c, x)) := by
  cases op with
  | save m =>
      obtain ⟨-, rfl⟩ := passOn_eq_some_iff.mp h
      rw [mappingEffect, Effect.apply_putIf, Policy.write]
      split
      · simp
      · simp [Function.update_apply, eq_comm]
  | update m =>
      obtain ⟨-, rfl⟩ := passOn_eq_some_iff.mp h
      rw [mappingEffect, Effect.apply_putIf, Policy.write]
      split
      · simp [Function.update_apply, eq_comm]
      · simp
  | remove c' x' =>
      cases h
      rw [mappingEffect, Effect.apply_clearIf, Policy.write]
      simp [Function.update_apply, eq_comm]
  | removeFor c' =>
      cases h
      rw [mappingEffect, Effect.apply_clearIf, Policy.write]
      simp [eq_comm]
  | saveScopeMappings ms =>
      obtain ⟨-, rfl⟩ := passOn_eq_some_iff.mp h
      rw [Policy.write]
      split <;> rfl
  | updateScopeMapping m =>
      obtain ⟨-, rfl⟩ := passOn_eq_some_iff.mp h
      rw [Policy.write]
      split <;> rfl
  | deleteScopeMapping s => cases h; rfl
  | verify c' x' scopes => cases h
  | listMappings => cases h
  | listScopeMappings => cases h

/-- Every call changes the mapping under a key by its effect, the calls that are refused
included. -/
theorem mapping_step (store : InnerStore) (op : ServiceOp) :
    (PolicyStore.policy (op.perform store).2).mapping (c, x) =
      (mappingEffect c x (op, (op.perform store).1)).apply
        ((PolicyStore.policy store).mapping (c, x)) := by
  cases hop : op.accepted with
  | none =>
      obtain ⟨hstore, hdone⟩ := perform_of_not_accepted hop store
      rw [hstore, mappingEffect_of_not_accepted hop hdone]
      rfl
  | some w =>
      rw [perform_policy, hop, perform_answer hop]
      exact mapping_of_accepted hop _

end MappingCell

section ScopeCell

variable {s : String}

/-- The scopes of a successful batch are distinct, so each of them is put by one mapping
of the batch. -/
def BatchDistinct (e : ServiceEntry) : Prop :=
  ∀ ms, e.1 = .saveScopeMappings ms → e.2 = .done (.ok ()) → (ms.map ScopeMapping.scope).Nodup

/-- The batch entry that a scope is looked up as is the one that has the scope, in a batch
without repetitions. -/
theorem find?_scope_eq_some_iff {ms : List ScopeMapping}
    (hms : (ms.map ScopeMapping.scope).Nodup) {m : ScopeMapping} :
    (ms.find? fun m => m.scope == s) = some m ↔ m ∈ ms ∧ m.scope = s := by
  constructor
  · intro h
    exact ⟨List.mem_of_find?_eq_some h, by simpa using List.find?_some h⟩
  · intro h
    obtain ⟨hm, hs⟩ := h
    cases hf : ms.find? fun m => m.scope == s with
    | none =>
        rw [List.find?_eq_none] at hf
        exact absurd (by simpa using hs) (hf m hm)
    | some m' =>
        have hs' : m'.scope = s := by simpa using List.find?_some hf
        have heq := List.inj_on_of_nodup_map hms (List.mem_of_find?_eq_some hf) hm
          (hs'.trans hs.symm)
        rw [heq]

/-- The effect is to put `m` exactly when the call has put it for the scope.  This needs
that a batch names no scope twice, as accepted ones do. -/
theorem scopeEffect_eq_put_iff {m : ScopeMapping} {e : ServiceEntry} (he : BatchDistinct e) :
    scopeEffect s e = .put m ↔ PutsScope s m e := by
  obtain ⟨op, answer⟩ := e
  cases op with
  | saveScopeMappings ms =>
      by_cases hok : answer = .done (.ok ())
      · have hfind := @find?_scope_eq_some_iff s ms (he ms rfl hok) m
        simp only [scopeEffect, PutsScope, hok]
        cases hf : ms.find? fun m => m.scope == s <;> simp_all
      · simp only [scopeEffect, PutsScope, hok, and_false, iff_false]
        cases ms.find? fun m => m.scope == s <;> simp [hok]
  | updateScopeMapping m' => simp [scopeEffect, PutsScope]; grind
  | _ => simp [scopeEffect, PutsScope]

/-- The effect is to clear exactly when the call removes the scope. -/
theorem scopeEffect_eq_clear_iff {e : ServiceEntry} :
    scopeEffect s e = .clear ↔ RemovesScope s e := by
  obtain ⟨op, answer⟩ := e
  cases op with
  | saveScopeMappings ms =>
      simp only [scopeEffect, RemovesScope]
      cases ms.find? fun m => m.scope == s <;> simp
  | _ => simp [scopeEffect, RemovesScope]

theorem scopeEffect_of_not_accepted {op : ServiceOp} (h : op.accepted = none)
    {answer : ServiceAnswer} (hdone : answer.isDone = false) :
    scopeEffect s (op, answer) = .keep := by
  have hne : answer ≠ .done (.ok ()) := by
    intro heq
    subst heq
    cases hdone
  cases op with
  | saveScopeMappings ms =>
      rw [scopeEffect]
      cases ms.find? fun m => m.scope == s <;> simp [hne]
  | updateScopeMapping m => simp [scopeEffect, hne]
  | deleteScopeMapping s' => cases h
  | _ => rfl

/-- An accepted call changes the mapping of a scope by its effect, on any policy, a batch
at each of its scopes. -/
theorem scope_of_accepted {op : ServiceOp} {w : StoreWrite} (h : op.accepted = some w)
    (p : Policy) :
    (p.write w).2.scope s =
      (scopeEffect s (op, .done (p.write w).1)).apply (p.scope s) := by
  cases op with
  | saveScopeMappings ms =>
      obtain ⟨-, rfl⟩ := passOn_eq_some_iff.mp h
      rw [scopeEffect, Policy.write]
      cases hfree : Policy.firstTaken (fun s => (p.scope s).isSome) ms with
      | some taken => cases ms.find? fun m => m.scope == s <;> rfl
      | none =>
          simp only [Policy.addScopes_apply (Policy.firstTaken_eq_none_iff.mp hfree).2]
          cases ms.find? fun m => m.scope == s <;> rfl
  | updateScopeMapping m =>
      obtain ⟨-, rfl⟩ := passOn_eq_some_iff.mp h
      rw [scopeEffect, Effect.apply_putIf, Policy.write]
      split
      · simp [Function.update_apply, eq_comm]
      · simp
  | deleteScopeMapping s' =>
      cases h
      rw [scopeEffect, Effect.apply_clearIf, Policy.write]
      simp [Function.update_apply, eq_comm]
  | save m =>
      obtain ⟨-, rfl⟩ := passOn_eq_some_iff.mp h
      rw [Policy.write]
      split <;> rfl
  | update m =>
      obtain ⟨-, rfl⟩ := passOn_eq_some_iff.mp h
      rw [Policy.write]
      split <;> rfl
  | remove c x => cases h; rfl
  | removeFor c => cases h; rfl
  | verify c x scopes => cases h
  | listMappings => cases h
  | listScopeMappings => cases h

/-- Every call changes the mapping of a scope by its effect, the calls that are refused
included. -/
theorem scope_step (store : InnerStore) (op : ServiceOp) :
    (PolicyStore.policy (op.perform store).2).scope s =
      (scopeEffect s (op, (op.perform store).1)).apply ((PolicyStore.policy store).scope s) := by
  cases hop : op.accepted with
  | none =>
      obtain ⟨hstore, hdone⟩ := perform_of_not_accepted hop store
      rw [hstore, scopeEffect_of_not_accepted hop hdone]
      rfl
  | some w =>
      rw [perform_policy, hop, perform_answer hop]
      exact scope_of_accepted hop _

/-- The scopes of every successful batch in a history are distinct, since a batch that
repeats one is refused. -/
theorem batchDistinct_of_mem_history (store : InnerStore) (ops : List ServiceOp) :
    ∀ e ∈ history ServiceOp.perform store ops, BatchDistinct e := by
  have hanswer : ∀ (store : InnerStore) (op : ServiceOp), True →
      BatchDistinct (op, (op.perform store).1) := by
    intro store op _ ms heq hok
    subst heq
    cases hop : (ServiceOp.saveScopeMappings ms).accepted with
    | none =>
        have hdone := (perform_of_not_accepted hop store).2
        simp only at hok
        rw [hok] at hdone
        cases hdone
    | some w =>
        obtain ⟨-, rfl⟩ := passOn_eq_some_iff.mp hop
        simp only [perform_answer hop, Policy.write] at hok
        cases hfree : Policy.firstTaken
            (fun s => ((PolicyStore.policy store).scope s).isSome) ms with
        | some taken => rw [hfree] at hok; cases hok
        | none => exact (Policy.firstTaken_eq_none_iff.mp hfree).2
  exact history_invariant (P := fun _ => True) (Q := fun op answer => BatchDistinct (op, answer))
    (fun _ _ _ => trivial) hanswer trivial ops

end ScopeCell

section InForce

/-- The memory store at the end of a run of the service from empty, whose policy is what
the history is asked about. -/
def finalStore (ops : List ServiceOp) : InnerStore :=
  after ServiceOp.perform MemoryResourceStore.new ops

/-- The calls of a run of the service from empty, with their answers, in the order they
were made. -/
def runHistory (ops : List ServiceOp) : List ServiceEntry :=
  history ServiceOp.perform MemoryResourceStore.new ops

variable (ops : List ServiceOp) (c x : String)

/-- The mapping in force is the last one put and not removed since.  Putting another one
in its place ends it as well. -/
theorem mapping_in_force_iff (m : ResourceMapping) :
    (PolicyStore.policy (finalStore ops)).mapping (c, x) = some m ↔
      Unrevoked (PutsMapping c x m)
        (fun e => (∃ m', PutsMapping c x m' e) ∨ RemovesMapping c x e) (runHistory ops) := by
  rw [finalStore, after_cell_eq_some_iff
    (fun store => (PolicyStore.policy store).mapping (c, x)) _ mapping_step rfl]
  apply unrevoked_congr
  · exact fun e _ => mappingEffect_eq_put_iff
  · intro e _
    simp only [effect_ne_keep_iff, mappingEffect_eq_put_iff, mappingEffect_eq_clear_iff]

/-- There is a mapping in force exactly when one was put and none was removed since.  Here
another one in its place does not count as an end. -/
theorem mapping_in_force_isSome_iff :
    ((PolicyStore.policy (finalStore ops)).mapping (c, x)).isSome ↔
      Unrevoked (fun e => ∃ m, PutsMapping c x m e) (RemovesMapping c x) (runHistory ops) := by
  rw [finalStore, after_cell_isSome_iff
    (fun store => (PolicyStore.policy store).mapping (c, x)) _ mapping_step rfl]
  apply unrevoked_congr
  · intro e _
    simp only [mappingEffect_eq_put_iff]
  · exact fun e _ => mappingEffect_eq_clear_iff

/-- The scope mapping in force is the last one put and not removed since, by a batch or by
an update. -/
theorem scope_in_force_iff (s : String) (m : ScopeMapping) :
    (PolicyStore.policy (finalStore ops)).scope s = some m ↔
      Unrevoked (PutsScope s m)
        (fun e => (∃ m', PutsScope s m' e) ∨ RemovesScope s e) (runHistory ops) := by
  rw [finalStore, after_cell_eq_some_iff
    (fun store => (PolicyStore.policy store).scope s) _ scope_step rfl]
  have hdistinct := batchDistinct_of_mem_history MemoryResourceStore.new ops
  apply unrevoked_congr
  · exact fun e he => scopeEffect_eq_put_iff (hdistinct e he)
  · intro e he
    simp only [effect_ne_keep_iff, scopeEffect_eq_put_iff (hdistinct e he),
      scopeEffect_eq_clear_iff]

/-- There is a scope mapping in force exactly when one was put and not removed
since. -/
theorem scope_in_force_isSome_iff (s : String) :
    ((PolicyStore.policy (finalStore ops)).scope s).isSome ↔
      Unrevoked (fun e => ∃ m, PutsScope s m e) (RemovesScope s) (runHistory ops) := by
  rw [finalStore, after_cell_isSome_iff
    (fun store => (PolicyStore.policy store).scope s) _ scope_step rfl]
  have hdistinct := batchDistinct_of_mem_history MemoryResourceStore.new ops
  apply unrevoked_congr
  · intro e he
    simp only [scopeEffect_eq_put_iff (hdistinct e he)]
  · exact fun e _ => scopeEffect_eq_clear_iff

end InForce

/-- The call touches the mapping under `(c, x)`, all mappings of `c`, or the mapping of a
scope of `R`. -/
def Touches (c x : String) (R : List String) : ServiceOp → Bool
  | .save m | .update m => decide (m.key = (c, x))
  | .remove c' x' => decide (c' = c ∧ x' = x)
  | .removeFor c' => decide (c' = c)
  | .saveScopeMappings ms => ms.any fun m => decide (m.scope ∈ R)
  | .updateScopeMapping m => decide (m.scope ∈ R)
  | .deleteScopeMapping s => decide (s ∈ R)
  | .verify _ _ _ | .listMappings | .listScopeMappings => false

/-- The call is a batch that writes a scope outside `R`, so whether it succeeds may depend
on such a scope. -/
def WritesOutside (R : List String) : ServiceOp → Bool
  | .saveScopeMappings ms => ms.any fun m => decide (m.scope ∉ R)
  | _ => false

/-- How an entry counts for a verification of `(c, x)` and `R`: as its call, with
its answer if it is a batch that also writes other scopes; or not at all. -/
def touch (c x : String) (R : List String) (e : ServiceEntry) :
    Option (ServiceOp × Option ServiceAnswer) :=
  if Touches c x R e.1 then some (e.1, if WritesOutside R e.1 then some e.2 else none)
  else none

/-- The policy without everything that a verification of `(c, x)` and `R` does not read.
Two policies that agree here verify alike. -/
def Policy.restrict (c x : String) (R : List String) (p : Policy) : Policy where
  mapping := fun k => if k = (c, x) then p.mapping k else none
  scope := fun s => if s ∈ R then p.scope s else none

/-- A batch whose answer is known: it is added if it succeeded, and otherwise has no
effect. -/
def Policy.batch (p : Policy) (op : ServiceOp) (answer : ServiceAnswer) : Policy :=
  match op with
  | .saveScopeMappings ms =>
      if answer.isDone then { p with scope := Policy.addScopes p.scope ms } else p
  | _ => p

/-- How the restricted policy moves by a touching call.  Where the answer is given, the
call has the effect that the answer tells. -/
def Policy.touched (c x : String) (R : List String) (p : Policy)
    (t : ServiceOp × Option ServiceAnswer) : Policy :=
  (match t.2 with
    | none => t.1.accepted.elim p fun w => (p.write w).2
    | some answer => p.batch t.1 answer).restrict c x R

section TwoRuns

variable {c x : String} {R : List String}

/-- Two policies are the same after restriction exactly when they have the same mapping
and the same scopes of `R`. -/
theorem restrict_eq_iff {p q : Policy} :
    p.restrict c x R = q.restrict c x R ↔
      p.mapping (c, x) = q.mapping (c, x) ∧ ∀ s ∈ R, p.scope s = q.scope s := by
  constructor
  · intro h
    have hmapping := congrFun (congrArg Policy.mapping h) (c, x)
    refine ⟨by simpa [Policy.restrict] using hmapping, fun s hs => ?_⟩
    have hscope := congrFun (congrArg Policy.scope h) s
    simpa [Policy.restrict, hs] using hscope
  · intro hcells
    obtain ⟨hmapping, hscope⟩ := hcells
    apply Policy.ext
    · funext k
      simp only [Policy.restrict]
      split
      · next hk => rw [hk, hmapping]
      · rfl
    · funext s
      simp only [Policy.restrict]
      split
      · next hs => exact hscope s hs
      · rfl

@[simp] theorem restrict_mapping (p : Policy) :
    (p.restrict c x R).mapping (c, x) = p.mapping (c, x) := by simp [Policy.restrict]

theorem restrict_scope (p : Policy) {s : String} (hs : s ∈ R) :
    (p.restrict c x R).scope s = p.scope s := by simp [Policy.restrict, hs]

/-- A call that does not touch the cells has no effect on the mapping, whatever it was
answered. -/
theorem mappingEffect_of_not_touches {op : ServiceOp} (ht : Touches c x R op = false)
    (answer : ServiceAnswer) : mappingEffect c x (op, answer) = .keep := by
  cases op with
  | save m =>
      have hkey : m.key ≠ (c, x) := by simpa [Touches] using ht
      simp [mappingEffect, hkey]
  | update m =>
      have hkey : m.key ≠ (c, x) := by simpa [Touches] using ht
      simp [mappingEffect, hkey]
  | remove c' x' =>
      have hkey : ¬ (c' = c ∧ x' = x) := by simpa [Touches] using ht
      simp [mappingEffect, hkey]
  | removeFor c' =>
      have hclient : c' ≠ c := by simpa [Touches] using ht
      simp [mappingEffect, hclient]
  | _ => rfl

/-- A call that does not touch the cells has no effect on the scopes of `R`. -/
theorem scopeEffect_of_not_touches {op : ServiceOp} (ht : Touches c x R op = false)
    (answer : ServiceAnswer) {s : String} (hs : s ∈ R) : scopeEffect s (op, answer) = .keep := by
  cases op with
  | saveScopeMappings ms =>
      have hout : (ms.find? fun m => m.scope == s) = none := by
        rw [List.find?_eq_none]
        intro m hm heq
        rw [beq_iff_eq] at heq
        subst heq
        rw [Touches, List.any_eq_false] at ht
        exact ht m hm (by simpa using hs)
      rw [scopeEffect, hout]
      rfl
  | updateScopeMapping m =>
      have hout : m.scope ∉ R := by simpa [Touches] using ht
      have hne : m.scope ≠ s := (ne_of_mem_of_not_mem hs hout).symm
      simp [scopeEffect, hne]
  | deleteScopeMapping s' =>
      have hout : s' ∉ R := by simpa [Touches] using ht
      have hne : s' ≠ s := (ne_of_mem_of_not_mem hs hout).symm
      simp [scopeEffect, hne]
  | _ => rfl

/-- A call that does not touch the cells leaves them alone, also if it is accepted. -/
theorem restrict_of_not_touches {op : ServiceOp} {w : StoreWrite} (h : op.accepted = some w)
    (ht : Touches c x R op = false) (p : Policy) :
    (p.write w).2.restrict c x R = p.restrict c x R := by
  rw [restrict_eq_iff]
  constructor
  · rw [mapping_of_accepted h, mappingEffect_of_not_touches ht]
    rfl
  · intro s hs
    rw [scope_of_accepted h, scopeEffect_of_not_touches ht _ hs]
    rfl

/-- A call that writes no scope outside `R` is answered by what the cells hold, so its
answer can be told from them alone. -/
theorem answer_of_touches {op : ServiceOp} {w : StoreWrite} (h : op.accepted = some w)
    (ht : Touches c x R op = true) (hin : WritesOutside R op = false) (p : Policy) :
    ((p.restrict c x R).write w).1 = (p.write w).1 := by
  cases op with
  | save m =>
      obtain ⟨-, rfl⟩ := passOn_eq_some_iff.mp h
      have hkey : m.key = (c, x) := by simpa [Touches] using ht
      simp only [Policy.write, hkey, restrict_mapping]
      split <;> rfl
  | update m =>
      obtain ⟨-, rfl⟩ := passOn_eq_some_iff.mp h
      have hkey : m.key = (c, x) := by simpa [Touches] using ht
      simp only [Policy.write, hkey, restrict_mapping]
      split <;> rfl
  | saveScopeMappings ms =>
      obtain ⟨-, rfl⟩ := passOn_eq_some_iff.mp h
      have hall : ∀ m ∈ ms, m.scope ∈ R := by
        intro m hm
        rw [WritesOutside, List.any_eq_false] at hin
        simpa using hin m hm
      have hfree : Policy.firstTaken (fun s => ((p.restrict c x R).scope s).isSome) ms =
          Policy.firstTaken (fun s => (p.scope s).isSome) ms :=
        Policy.firstTaken_congr fun m hm => by rw [restrict_scope p (hall m hm)]
      simp only [Policy.write, hfree]
      split <;> rfl
  | updateScopeMapping m =>
      obtain ⟨-, rfl⟩ := passOn_eq_some_iff.mp h
      have hin : m.scope ∈ R := by simpa [Touches] using ht
      simp only [Policy.write, restrict_scope p hin]
      split <;> rfl
  | remove c' x' => cases h; rfl
  | removeFor c' => cases h; rfl
  | deleteScopeMapping s => cases h; rfl
  | verify c' x' scopes => cases h
  | listMappings => cases h
  | listScopeMappings => cases h

/-- Such a call acts on the cells by what they hold, so the rest of the policy may be
forgotten before it. -/
theorem restrict_of_touches {op : ServiceOp} {w : StoreWrite} (h : op.accepted = some w)
    (ht : Touches c x R op = true) (hin : WritesOutside R op = false) (p : Policy) :
    (p.write w).2.restrict c x R = ((p.restrict c x R).write w).2.restrict c x R := by
  have hanswer := answer_of_touches h ht hin p
  rw [restrict_eq_iff]
  constructor
  · rw [mapping_of_accepted h, mapping_of_accepted h, hanswer, restrict_mapping]
  · intro s hs
    rw [scope_of_accepted h, scope_of_accepted h, hanswer, restrict_scope p hs]

/-- A batch that also writes other scopes acts on the cells by its answer: whether it
conflicts there cannot be seen from here. -/
theorem restrict_of_writesOutside {op : ServiceOp} {w : StoreWrite} (h : op.accepted = some w)
    (hout : WritesOutside R op = true) (p : Policy) :
    (p.write w).2.restrict c x R =
      ((p.restrict c x R).batch op (.done (p.write w).1)).restrict c x R := by
  cases op with
  | saveScopeMappings ms =>
      obtain ⟨-, rfl⟩ := passOn_eq_some_iff.mp h
      have hmapping : (p.restrict c x R).mapping (c, x) = p.mapping (c, x) := restrict_mapping p
      have hscope : ∀ s ∈ R, p.scope s = (p.restrict c x R).scope s :=
        fun s hs => (restrict_scope p hs).symm
      rw [restrict_eq_iff, Policy.batch, Policy.write]
      cases Policy.firstTaken (fun s => (p.scope s).isSome) ms with
      | some taken => exact ⟨hmapping.symm, hscope⟩
      | none =>
          exact ⟨hmapping.symm,
            fun s hs => Policy.addScopes_congr (hscope s hs) ms⟩
  | _ => cases hout

theorem restrict_restrict (p : Policy) :
    (p.restrict c x R).restrict c x R = p.restrict c x R := by
  rw [restrict_eq_iff]
  exact ⟨restrict_mapping p, fun s hs => restrict_scope p hs⟩

/-- A call that is not accepted counts for nothing, whether it touches the cells or not.
-/
theorem touched_of_not_accepted {op : ServiceOp} (h : op.accepted = none)
    {answer : ServiceAnswer} (hdone : answer.isDone = false) (p : Policy) :
    (touch c x R (op, answer)).elim (p.restrict c x R)
      (Policy.touched c x R (p.restrict c x R)) = p.restrict c x R := by
  have hbatch : (p.restrict c x R).batch op answer = p.restrict c x R := by
    cases op <;> simp [Policy.batch, hdone]
  rw [touch]
  split
  · cases hw : WritesOutside R op <;>
      simp [Policy.touched, h, hbatch, restrict_restrict]
  · rfl

/-- **The cells move by the touching calls.** All other calls leave them alone, so a run
may be read without these. -/
theorem restrict_step (store : InnerStore) (op : ServiceOp) :
    (PolicyStore.policy (op.perform store).2).restrict c x R =
      (touch c x R (op, (op.perform store).1)).elim
        ((PolicyStore.policy store).restrict c x R)
        (Policy.touched c x R ((PolicyStore.policy store).restrict c x R)) := by
  cases hop : op.accepted with
  | none =>
      obtain ⟨hstore, hdone⟩ := perform_of_not_accepted hop store
      rw [hstore, touched_of_not_accepted hop hdone]
  | some w =>
      rw [perform_policy, hop, perform_answer hop]
      simp only [Option.elim_some, touch]
      cases ht : Touches c x R op with
      | false => exact restrict_of_not_touches hop ht _
      | true =>
          cases hw : WritesOutside R op with
          | true => exact restrict_of_writesOutside hop hw _
          | false =>
              simp only [Policy.touched, hop, if_true, Option.elim_some]
              exact restrict_of_touches hop ht hw _

/-- Runs with the same touching calls verify alike, whatever else happens in either and in
between the calls they share. -/
theorem verify_of_same_touches {ops ops' : List ServiceOp}
    (h : (runHistory ops).filterMap (touch c x R) = (runHistory ops').filterMap (touch c x R)) :
    ResourceService.verify (finalStore ops) c x R =
      ResourceService.verify (finalStore ops') c x R := by
  have hview : ∀ ops, (PolicyStore.policy (finalStore ops)).restrict c x R =
      ((runHistory ops).filterMap (touch c x R)).foldl (Policy.touched c x R)
        ((PolicyStore.policy MemoryResourceStore.new).restrict c x R) := fun ops =>
    after_view (fun store => (PolicyStore.policy store).restrict c x R) (touch c x R)
      (Policy.touched c x R) restrict_step MemoryResourceStore.new ops
  have hsame := (hview ops).trans (by rw [h, ← hview ops'])
  obtain ⟨hmapping, hscopes⟩ := restrict_eq_iff.mp hsame
  exact ResourceService.verify_congr hmapping hscopes

end TwoRuns

/-- **The policy in force is the last write, and nothing else.**  After any run
from empty, a mapping is in force exactly when a save or update of its key
succeeded and was not removed since, and it is the last one written; the same
for every scope that the mapping lists.  Runs with the same calls for a key and
a set of scopes verify requests for them alike. -/
theorem policy_is_last_write (ops : List ServiceOp) (c x : String) :
    ((∃ pair, ResourceStore.resolveMapping (finalStore ops) c x = .ok (some pair)) ↔
      Unrevoked (fun e => ∃ m, PutsMapping c x m e) (RemovesMapping c x) (runHistory ops)) ∧
    (∀ pair, ResourceStore.resolveMapping (finalStore ops) c x = .ok (some pair) →
      (∀ m, pair.resourceMapping = m ↔
        Unrevoked (PutsMapping c x m)
          (fun e => (∃ m', PutsMapping c x m' e) ∨ RemovesMapping c x e) (runHistory ops)) ∧
      ∀ s ∈ pair.resourceMapping.scopes,
        (s ∈ pair.scopeMappings ↔
          Unrevoked (fun e => ∃ m, PutsScope s m e) (RemovesScope s) (runHistory ops)) ∧
        ∀ m, pair.scopeMappings[s]? = some m ↔
          Unrevoked (PutsScope s m)
            (fun e => (∃ m', PutsScope s m' e) ∨ RemovesScope s e) (runHistory ops)) ∧
    ∀ (ops' : List ServiceOp) (R : List String),
      (runHistory ops).filterMap (touch c x R) = (runHistory ops').filterMap (touch c x R) →
      ResourceService.verify (finalStore ops) c x R =
        ResourceService.verify (finalStore ops') c x R := by
  rw [PolicyStore.resolveMapping_eq]
  refine ⟨?_, ?_, fun ops' R h => verify_of_same_touches h⟩
  · rw [← mapping_in_force_isSome_iff, Policy.resolve]
    cases (PolicyStore.policy (finalStore ops)).mapping (c, x) <;> simp
  · intro pair hpair
    have hresolve := Option.some.inj (congrArg some (Except.ok.inj hpair))
    obtain ⟨m₀, hm₀, heq⟩ := Option.map_eq_some_iff.mp hresolve
    constructor
    · intro m
      rw [← mapping_in_force_iff, hm₀, ← heq]
      simp
    · intro s hs
      have hscope : pair.scopeMappings[s]? =
          (PolicyStore.policy (finalStore ops)).scope s := by
        rw [Policy.resolve_scopeMappings hresolve, if_pos hs]
      constructor
      · rw [← scope_in_force_isSome_iff, ← hscope, Std.ExtTreeMap.isSome_getElem?_iff_mem]
      · intro m
        rw [← scope_in_force_iff, hscope]

/-- The mapping of one client in a context, for a sample run. -/
def clientMapping (context : String) (scopes : List String) : ResourceMapping where
  clientIdentifier := "client"
  participantContext := context
  scopes := Std.ExtTreeSet.ofList scopes compare
  audiences := ∅

/-- A scope that stands for nothing, for a sample run. -/
def plainScope (scope : String) : ScopeMapping := { scope, claims := ∅ }

/-- Other contexts and other scopes come and go without an effect on `ctx` and
`read`. -/
theorem policy_is_last_write_sample :
    ResourceService.verify (finalStore [.save (clientMapping "ctx" ["read"]),
      .saveScopeMappings [plainScope "read"]]) "client" "ctx" ["read"] =
    ResourceService.verify (finalStore [.save (clientMapping "other" ["write"]),
      .save (clientMapping "ctx" ["read"]), .saveScopeMappings [plainScope "write"],
      .remove "client" "other", .saveScopeMappings [plainScope "read"]])
        "client" "ctx" ["read"] := by
  refine (policy_is_last_write _ "client" "ctx").2.2 _ ["read"] ?_
  decide +kernel

end Jwtlet

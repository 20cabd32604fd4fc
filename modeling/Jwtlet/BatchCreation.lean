import Jwtlet.ResourceMem
import Jwtlet.ResourcePostgres
import Jwtlet.ResourceService

/-!
# Creating scope mappings in a batch

`ResourceService::save_scope_mappings` validates every mapping and hands the
batch to the store, which checks all and then inserts all, or inserts one by one
in a transaction.  Either way it is one atomic operation with an exact outcome
(`BatchOutcome`): the whole batch is added, or nothing is and the error names the
first mapping at fault.
-/

namespace Jwtlet

open Rust

/-- A loop of checks that fails does so with the error of the first element that fails.
The elements after it are not looked at. -/
theorem forM_eq_error_of_first {A E : Type} {f : A → Except E Unit} {pre post : List A} {a : A}
    {e : E} (hpre : ∀ b ∈ pre, f b = .ok ()) (ha : f a = .error e) :
    (pre ++ a :: post).forM f = .error e := by
  induction pre with
  | nil =>
      change (f a >>= fun _ => post.forM f) = .error e
      rw [ha]
      rfl
  | cons b pre ih =>
      rw [List.forall_mem_cons] at hpre
      change (f b >>= fun _ => (pre ++ a :: post).forM f) = .error e
      rw [hpre.1]
      exact ih hpre.2

/-- The error of a loop of checks is that of some element, so what is known of these
errors is known of it. -/
theorem exists_of_forM_eq_error {A E : Type} {f : A → Except E Unit} {l : List A} {e : E}
    (h : l.forM f = .error e) : ∃ a ∈ l, f a = .error e := by
  induction l with
  | nil => cases h
  | cons a l ih =>
      change (f a >>= fun _ => l.forM f) = .error e at h
      cases hfa : f a with
      | error e' =>
          rw [hfa] at h
          cases h
          exact ⟨a, List.mem_cons_self, hfa⟩
      | ok u =>
          rw [hfa] at h
          obtain ⟨b, hb, hfb⟩ := ih h
          exact ⟨b, List.mem_cons_of_mem _ hb, hfb⟩

/-- What is reported about an invalid scope mapping: its scope name, or, if that
is valid, one of its reserved claim keys. -/
def ScopeMapping.Blamed (m : ScopeMapping) (e : ResourceError) : Prop :=
  (¬ ValidScopeName m.scope ∧ e = .invalidMapping
    ("scope '" ++ m.scope ++ "' must be non-empty and contain no whitespace")) ∨
  (ValidScopeName m.scope ∧ ∃ k ∈ m.claims, isReservedClaim k = true ∧ e = .reservedClaim k)

/-- An invalid scope mapping is refused, with an error that says what is wrong with it. -/
theorem validateScopeMapping_of_not_valid {m : ScopeMapping} (h : ¬ m.Valid) :
    ∃ e, validateScopeMapping m = .error e ∧ m.Blamed e := by
  rw [validateScopeMapping]
  by_cases hname : ValidScopeName m.scope
  · rw [validateScopeName_eq_ok_iff.mpr hname]
    cases hclaims : validateScopeClaims m.claims with
    | ok u =>
        refine absurd (validateScopeMapping_eq_ok_iff.mp ?_) h
        rw [validateScopeMapping, validateScopeName_eq_ok_iff.mpr hname]
        exact hclaims
    | error e =>
        obtain ⟨k, hk, hcheck⟩ := exists_of_forM_eq_error hclaims
        refine ⟨e, rfl, Or.inr ⟨hname, k, Std.ExtTreeMap.mem_keys.mp hk, ?_⟩⟩
        cases hreserved : isReservedClaim k with
        | false => simp [hreserved] at hcheck
        | true =>
            simp only [hreserved, if_true, Except.error.injEq] at hcheck
            exact ⟨rfl, hcheck.symm⟩
  · rw [validateScopeName_of_not_valid hname]
    exact ⟨_, rfl, Or.inl ⟨hname, rfl⟩⟩

section Outcome

variable {σ : Type} [PolicyStore σ]

/-- The outcome of creating the batch `ms`: when it is accepted, what it changes, and
which mapping the error is about. -/
structure BatchOutcome (store : σ) (ms : List ScopeMapping)
    (outcome : Except ResourceError Unit × σ) : Prop where
  ok_iff : outcome.1 = .ok () ↔
    (∀ m ∈ ms, ValidScopeName m.scope ∧ ∀ k ∈ m.claims, isReservedClaim k = false) ∧
    (ms.map ScopeMapping.scope).Nodup ∧
    ∀ m ∈ ms, (PolicyStore.policy store).scope m.scope = none
  added : outcome.1 = .ok () → ∀ s, (PolicyStore.policy outcome.2).scope s =
    (ms.find? fun m => m.scope == s).or ((PolicyStore.policy store).scope s)
  unchanged : outcome.1 ≠ .ok () → outcome.2 = store
  mappings : (PolicyStore.policy outcome.2).mapping = (PolicyStore.policy store).mapping
  /-- The first invalid mapping is reported, wherever conflicts are. -/
  invalid : ∀ pre m post, ms = pre ++ m :: post → (∀ m' ∈ pre, m'.Valid) → ¬ m.Valid →
    ∃ e, outcome.1 = .error e ∧ m.Blamed e
  /-- With all mappings valid, the first one whose scope is stored or occurs
  earlier is reported. -/
  conflict : ∀ pre m post, ms = pre ++ m :: post → (∀ m' ∈ ms, m'.Valid) →
    (∀ m' ∈ pre, (PolicyStore.policy store).scope m'.scope = none) →
    (pre.map ScopeMapping.scope).Nodup →
    ((PolicyStore.policy store).scope m.scope ≠ none ∨ ∃ m' ∈ pre, m'.scope = m.scope) →
    outcome.1 = .error (.conflict m.scope)

/-- A batch that passes validation is written to the store, and the outcome is that of the
store. -/
theorem saveScopeMappings_of_valid (store : σ) {ms : List ScopeMapping}
    (h : ∀ m ∈ ms, m.Valid) :
    ResourceService.saveScopeMappings store ms =
      ResourceStore.write store (.saveScopeMappings ms) := by
  have hall : ms.forM validateScopeMapping = .ok () :=
    forM_eq_ok_iff.mpr fun m hm => validateScopeMapping_eq_ok_iff.mpr (h m hm)
  rw [ResourceService.saveScopeMappings, hall]
  rfl

/-- A batch with an invalid mapping is refused with the error of the first, before the
store has seen any of it. -/
theorem saveScopeMappings_of_invalid (store : σ) {pre post : List ScopeMapping}
    {m : ScopeMapping} (hpre : ∀ m' ∈ pre, m'.Valid) (hm : ¬ m.Valid) :
    ∃ e, m.Blamed e ∧
      ResourceService.saveScopeMappings store (pre ++ m :: post) = (.error e, store) := by
  obtain ⟨e, he, hblamed⟩ := validateScopeMapping_of_not_valid hm
  refine ⟨e, hblamed, ?_⟩
  rw [ResourceService.saveScopeMappings, forM_eq_error_of_first
    (fun m' hm' => validateScopeMapping_eq_ok_iff.mpr (hpre m' hm')) he]

/-- A batch with an invalid mapping has a first one, with valid mappings before it. -/
theorem exists_first_invalid {ms : List ScopeMapping} (h : ¬ ∀ m ∈ ms, m.Valid) :
    ∃ pre m post, ms = pre ++ m :: post ∧ (∀ m' ∈ pre, m'.Valid) ∧ ¬ m.Valid := by
  induction ms with
  | nil => exact absurd (by simp) h
  | cons a ms ih =>
      by_cases ha : a.Valid
      · have hrest : ¬ ∀ m ∈ ms, m.Valid := fun hall => h (List.forall_mem_cons.mpr ⟨ha, hall⟩)
        obtain ⟨pre, m, post, rfl, hpre, hm⟩ := ih hrest
        exact ⟨a :: pre, m, post, rfl, List.forall_mem_cons.mpr ⟨ha, hpre⟩, hm⟩
      · exact ⟨[], a, ms, rfl, by simp, ha⟩

/-- A batch of valid mappings is refused exactly when one of its scopes is taken
or repeats, and is added otherwise. -/
theorem saveScopeMappings_cases (store : σ) {ms : List ScopeMapping} (h : ∀ m ∈ ms, m.Valid) :
    (∃ s, Policy.firstTaken (fun s => ((PolicyStore.policy store).scope s).isSome) ms = some s ∧
      (ResourceService.saveScopeMappings store ms).1 = .error (.conflict s) ∧
      PolicyStore.policy (ResourceService.saveScopeMappings store ms).2 =
        PolicyStore.policy store) ∨
    (Policy.firstTaken (fun s => ((PolicyStore.policy store).scope s).isSome) ms = none ∧
      (ResourceService.saveScopeMappings store ms).1 = .ok () ∧
      PolicyStore.policy (ResourceService.saveScopeMappings store ms).2 =
        { PolicyStore.policy store with
          scope := Policy.addScopes (PolicyStore.policy store).scope ms }) := by
  rw [saveScopeMappings_of_valid store h, PolicyStore.write_answer, PolicyStore.write_policy,
    Policy.write]
  cases Policy.firstTaken (fun s => ((PolicyStore.policy store).scope s).isSome) ms with
  | some s => exact Or.inl ⟨s, rfl, rfl, rfl⟩
  | none => exact Or.inr ⟨rfl, rfl, rfl⟩

/-- No scope of a batch is taken exactly when its scopes are distinct and none of them is
in force. -/
theorem firstTaken_scope_eq_none_iff {store : σ} {ms : List ScopeMapping} :
    Policy.firstTaken (fun s => ((PolicyStore.policy store).scope s).isSome) ms = none ↔
      (ms.map ScopeMapping.scope).Nodup ∧
        ∀ m ∈ ms, (PolicyStore.policy store).scope m.scope = none := by
  rw [Policy.firstTaken_eq_none_iff, and_comm]
  simp only [Option.isSome_eq_false_iff, Option.isNone_iff_eq_none]

/-- The outcome of a batch of valid mappings, in a store that a failed batch leaves alone.
-/
theorem batchOutcome_of_valid {store : σ} {ms : List ScopeMapping} (hvalid : ∀ m ∈ ms, m.Valid)
    (hrollback : (ResourceService.saveScopeMappings store ms).1 ≠ .ok () →
      (ResourceService.saveScopeMappings store ms).2 = store) :
    BatchOutcome store ms (ResourceService.saveScopeMappings store ms) := by
  have hcases := saveScopeMappings_cases store hvalid
  constructor
  · have hchecks : ∀ m ∈ ms, ValidScopeName m.scope ∧
        ∀ k ∈ m.claims, isReservedClaim k = false := fun m hm =>
      ⟨(hvalid m hm).scope, (hvalid m hm).claims⟩
    rw [← firstTaken_scope_eq_none_iff]
    rcases hcases with ⟨s, hfirst, hanswer, -⟩ | ⟨hfirst, hanswer, -⟩
    · simp [hfirst, hanswer]
    · simp only [hfirst, hanswer, true_iff, and_true]
      exact hchecks
  · intro hok s
    rcases hcases with ⟨s, -, hanswer, -⟩ | ⟨hfirst, -, hpolicy⟩
    · rw [hanswer] at hok
      cases hok
    · have hscope := Policy.addScopes_apply (firstTaken_scope_eq_none_iff.mp hfirst).1
        (PolicyStore.policy store).scope s
      rw [hpolicy]
      refine hscope.trans ?_
      cases ms.find? fun m => m.scope == s <;> rfl
  · exact hrollback
  · rcases hcases with ⟨s, -, -, hpolicy⟩ | ⟨-, -, hpolicy⟩
    · rw [hpolicy]
    · rw [hpolicy]
  · intro pre m post heq _ hm
    exact absurd (hvalid m (by simp [heq])) hm
  · intro pre m post heq _ hfree hnodup htaken
    have hblamed : Policy.firstTaken (fun s => ((PolicyStore.policy store).scope s).isSome) ms =
        some m.scope := by
      rw [heq]
      apply Policy.firstTaken_eq_of_first (firstTaken_scope_eq_none_iff.mpr ⟨hnodup, hfree⟩)
      rwa [Option.isSome_iff_ne_none]
    rcases hcases with ⟨s, hfirst, hanswer, -⟩ | ⟨hfirst, -, -⟩
    · rw [hfirst] at hblamed
      cases hblamed
      exact hanswer
    · rw [hfirst] at hblamed
      cases hblamed

/-- The outcome of a batch with an invalid mapping: the store is not asked. -/
theorem batchOutcome_of_invalid {store : σ} {ms : List ScopeMapping}
    (hinvalid : ¬ ∀ m ∈ ms, m.Valid) :
    BatchOutcome store ms (ResourceService.saveScopeMappings store ms) := by
  obtain ⟨pre, m, post, hms, hpre, hm⟩ := exists_first_invalid hinvalid
  obtain ⟨e, -, hsave⟩ := @saveScopeMappings_of_invalid _ _ store pre post m hpre hm
  rw [← hms] at hsave
  rw [hsave]
  constructor
  · simp only [reduceCtorEq, false_iff, not_and]
    intro hchecks
    exact absurd (fun m hm => ⟨(hchecks m hm).1, (hchecks m hm).2⟩) hinvalid
  · intro hok
    cases hok
  · intro _
    rfl
  · rfl
  · intro pre' m' post' heq hpre' hm'
    obtain ⟨e', hblamed', hsave'⟩ := @saveScopeMappings_of_invalid _ _ store pre' post' m' hpre' hm'
    rw [← heq, hsave] at hsave'
    cases hsave'
    exact ⟨e, rfl, hblamed'⟩
  · intro pre' m' post' _ hall
    exact absurd hall hinvalid

/-- A store that a failed batch leaves alone creates batches atomically, whether they pass
validation or not. -/
theorem batchOutcome_of_rollback
    (hrollback : ∀ (store : σ) ms, (ResourceStore.saveScopeMappings store ms).1 ≠ .ok () →
      (ResourceStore.saveScopeMappings store ms).2 = store) (store : σ)
    (ms : List ScopeMapping) :
    BatchOutcome store ms (ResourceService.saveScopeMappings store ms) := by
  by_cases hvalid : ∀ m ∈ ms, m.Valid
  · apply batchOutcome_of_valid hvalid
    intro hfailed
    rw [saveScopeMappings_of_valid store hvalid] at hfailed ⊢
    exact hrollback store ms hfailed
  · exact batchOutcome_of_invalid hvalid

end Outcome

/-- The service refuses a batch, or does what the store does with it. -/
theorem saveScopeMappings_store {σ : Type} [ResourceStore σ] (store : σ)
    (ms : List ScopeMapping) :
    (∃ e, ResourceService.saveScopeMappings store ms = (.error e, store)) ∨
      ResourceService.saveScopeMappings store ms = ResourceStore.saveScopeMappings store ms := by
  rw [ResourceService.saveScopeMappings]
  cases ms.forM validateScopeMapping with
  | error e => exact Or.inl ⟨e, rfl⟩
  | ok u => exact Or.inr rfl

/-- The memory store refuses a batch and stays as it is, or inserts all of it. -/
theorem memory_saveScopeMappings (store : InnerStore) (ms : List ScopeMapping) :
    (∃ e, ResourceStore.saveScopeMappings store ms = (.error e, store)) ∨
      ResourceStore.saveScopeMappings store ms = (.ok (), { store with
        scopeMappings := MemoryResourceStore.insertBatch store.scopeMappings ms }) := by
  change (∃ e, MemoryResourceStore.saveScopeMappings store ms = (.error e, store)) ∨
    MemoryResourceStore.saveScopeMappings store ms = _
  rw [MemoryResourceStore.saveScopeMappings]
  cases MemoryResourceStore.checkBatch store.scopeMappings ∅ ms with
  | error e => exact Or.inl ⟨e, rfl⟩
  | ok u => exact Or.inr rfl

/-- The rows that the inserts of a batch append: one for each mapping, in the order of the
batch. -/
theorem rows_of_foldlM_insert
    {table table' : Sql.Table ScopeMappingRow String ScopeMappingRow.scope}
    {ms : List ScopeMapping}
    (h : ms.foldlM PostgresResourceStore.insertScopeMapping table = .ok table') :
    table'.rows = table.rows ++ ms.map PostgresResourceStore.scopeMappingRow := by
  induction ms generalizing table with
  | nil =>
      cases h
      simp
  | cons m ms ih =>
      rw [List.foldlM_cons, PostgresResourceStore.insertScopeMapping,
        PostgresResourceStore.executeInsert] at h
      cases hinsert : table.insert (PostgresResourceStore.scopeMappingRow m) with
      | none =>
          rw [hinsert] at h
          cases h
      | some table₁ =>
          rw [hinsert] at h
          rw [ih h, Sql.Table.rows_insert hinsert, List.map_cons, List.append_assoc,
            List.singleton_append]

/-- The transaction is dropped and the tables stay as they are, or the rows of the batch
are committed. -/
theorem postgres_saveScopeMappings (db : Database) (ms : List ScopeMapping) :
    (∃ e, ResourceStore.saveScopeMappings db ms = (.error e, db)) ∨
      ∃ table, ResourceStore.saveScopeMappings db ms = (.ok (), { db with scopeMappings := table }) ∧
        table.rows = db.scopeMappings.rows ++ ms.map PostgresResourceStore.scopeMappingRow := by
  change (∃ e, PostgresResourceStore.saveScopeMappings db ms = (.error e, db)) ∨
    ∃ table, PostgresResourceStore.saveScopeMappings db ms = _ ∧ _
  rw [PostgresResourceStore.saveScopeMappings]
  cases hinserts : ms.foldlM PostgresResourceStore.insertScopeMapping db.scopeMappings with
  | error e => exact Or.inl ⟨e, rfl⟩
  | ok table => exact Or.inr ⟨table, rfl, rows_of_foldlM_insert hinserts⟩

/-- **Batches of scope mappings are created atomically.**  In both stores a batch
is accepted exactly when all its mappings are valid, its scopes are distinct and
none is stored; it is then added to the scope table.  Otherwise the store is as
before, and the error is about the first invalid mapping or, if there is none,
the first whose scope is stored or occurs earlier.  The resource mappings never
change. -/
theorem batch_creation_atomic :
    (∀ (store : InnerStore) (ms : List ScopeMapping),
      BatchOutcome store ms (ResourceService.saveScopeMappings store ms) ∧
      (ResourceService.saveScopeMappings store ms).2.entries = store.entries) ∧
    ∀ (db : Database) (ms : List ScopeMapping),
      BatchOutcome db ms (ResourceService.saveScopeMappings db ms) ∧
      (ResourceService.saveScopeMappings db ms).2.resourceMappings = db.resourceMappings ∧
      ((ResourceService.saveScopeMappings db ms).1 = .ok () →
        (ResourceService.saveScopeMappings db ms).2.scopeMappings.rows =
          db.scopeMappings.rows ++ ms.map PostgresResourceStore.scopeMappingRow) := by
  refine ⟨fun store ms => ⟨batchOutcome_of_rollback ?_ store ms, ?_⟩,
    fun db ms => ⟨batchOutcome_of_rollback ?_ db ms, ?_⟩⟩
  · intro store ms hfailed
    rcases memory_saveScopeMappings store ms with ⟨e, hsave⟩ | hsave
    · rw [hsave]
    · rw [hsave] at hfailed
      exact absurd rfl hfailed
  · rcases saveScopeMappings_store store ms with ⟨e, hsave⟩ | hsave
    · rw [hsave]
    · rcases memory_saveScopeMappings store ms with ⟨e, hstore⟩ | hstore
      · rw [hsave, hstore]
      · rw [hsave, hstore]
  · intro db ms hfailed
    rcases postgres_saveScopeMappings db ms with ⟨e, hsave⟩ | ⟨table, hsave, -⟩
    · rw [hsave]
    · rw [hsave] at hfailed
      exact absurd rfl hfailed
  · rcases saveScopeMappings_store db ms with ⟨e, hsave⟩ | hsave
    · rw [hsave]
      exact ⟨rfl, fun hok => by cases hok⟩
    · rcases postgres_saveScopeMappings db ms with ⟨e, hstore⟩ | ⟨table, hstore, hrows⟩
      · rw [hsave, hstore]
        exact ⟨rfl, fun hok => by cases hok⟩
      · rw [hsave, hstore]
        exact ⟨rfl, fun _ => hrows⟩

end Jwtlet

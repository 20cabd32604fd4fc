import Jwtlet.MachineRuns
import Jwtlet.ResourceMem
import Jwtlet.ResourcePostgres
import Jwtlet.ResourceService

/-!
# One resolution among concurrent writes

A call of `resolve_mapping` is a sequence of atomic statements, and the writes of
other clients land between them.  The memory store reads under one lock, so its
call is one statement.  The Postgres store takes two `SELECT`s from the pool
without a transaction: first the mapping, then the rows of its scopes.  A write
is one event as well, also a batch, which other clients see at its commit.

`SnapshotConsistent` says that the answer is the one of a single state that
existed during the call.  A state for the answer is carried along while the call
is between its statements; it is lost exactly when a scope row of the mapping
changes after the mapping itself is no longer the one that was read.
-/

namespace Jwtlet

open Rust

/-- Where a call of `resolve_mapping` stands: before it, at its first statement, between
its statements with the mapping that it has read, or at its end. -/
inductive ResolvePhase where
  | idle
  | started
  | fetched (mapping : ResourceMapping)
  | finished (answer : Except ResourceError (Option MappingPair))
  deriving DecidableEq

/-- The call has begun and not returned.  Only then do the states that the store goes
through count as states during the call. -/
def ResolvePhase.running : ResolvePhase → Bool
  | .started | .fetched _ => true
  | .idle | .finished _ => false

/-- What can happen next: the call begins, the call runs its next statement, or another
client writes.  The order of these events is left open. -/
inductive ResolveEvent where
  | start
  | statement
  | write (w : StoreWrite)

/-- The store, the call, and the states that existed since the call began.  The states are
kept to say what the answer is compared with; the code has no such list. -/
structure ResolveCall (σ : Type) where
  store : σ
  phase : ResolvePhase
  window : List σ

/-- Before the call: the store as it is then, and no state that would count as one during
the call. -/
def ResolveCall.before {σ : Type} (store : σ) : ResolveCall σ :=
  { store, phase := .idle, window := [] }

/-- One event, where `statement` is the next statement of the call on a store.  A write of
another client is added to the states of a call that is in progress. -/
def ResolveCall.step {σ : Type} [ResourceStore σ] (statement : σ → ResolvePhase → ResolvePhase)
    (call : ResolveCall σ) : ResolveEvent → Unit × ResolveCall σ
  | .start =>
      match call.phase with
      | .idle => ((), { call with phase := .started, window := [call.store] })
      | _ => ((), call)
  | .statement => ((), { call with phase := statement call.store call.phase })
  | .write w =>
      let store := (ResourceStore.write call.store w).2
      ((), { call with
        store
        window := if call.phase.running then store :: call.window else call.window })

/-- The statement of `MemoryResourceStore::resolve_mapping`.  Everything is read under the
lock, so the call is at its end after one statement. -/
def MemoryResourceStore.resolveStatement (c x : String) (store : InnerStore) :
    ResolvePhase → ResolvePhase
  | .started => .finished (resolveMapping store c x)
  | phase => phase

/-- The two statements of `PostgresResourceStore::resolve_mapping`.  Each takes a
connection of its own from the pool, so other clients may commit between them. -/
def PostgresResourceStore.resolveStatement (c x : String) (db : Database) :
    ResolvePhase → ResolvePhase
  | .started =>
      match selectMapping db c x with
      | none => .finished (.ok none)
      | some resourceMapping => .fetched resourceMapping
  | .fetched resourceMapping =>
      .finished (.ok (some
        { resourceMapping, scopeMappings := selectScopeMappings db resourceMapping }))
  | phase => phase

section Snapshots

variable {σ : Type} [PolicyStore σ] {c x : String}

/-- A finished call answers, and lets `verify` decide, as one state that existed during
the call would.  Nothing is said of which state it is. -/
def SnapshotConsistent (c x : String) (call : ResolveCall σ) : Prop :=
  ∀ answer, call.phase = .finished answer →
    ∃ d ∈ call.window, ResourceStore.resolveMapping d c x = answer ∧
      ∀ scopes, ResourceService.verify d c x scopes =
        answer.bind (ResourceService.verifyResolved (Std.ExtTreeSet.ofList scopes compare))

/-- Between the statements, no scope of the mapping that was read is rewritten once the
stored mapping differs from it.  It is a condition on the state before a write and on the
write. -/
def SafeStep (c x : String) (call : ResolveCall σ) (e : ResolveEvent) : Prop :=
  ∀ m w, call.phase = .fetched m → e = .write w →
    (PolicyStore.policy call.store).mapping (c, x) = some m ∨
    ∀ s ∈ m.scopes, (PolicyStore.policy (ResourceStore.write call.store w).2).scope s =
      (PolicyStore.policy call.store).scope s

/-- The mapping `m` and its scopes as they are now were in force together in a state of
the window.  That state is the one that the answer of the second statement will be of. -/
def InForceTogether (c x : String) (call : ResolveCall σ) (m : ResourceMapping) : Prop :=
  ∃ d ∈ call.window, (PolicyStore.policy d).mapping (c, x) = some m ∧
    ∀ s ∈ m.scopes, (PolicyStore.policy d).scope s = (PolicyStore.policy call.store).scope s

/-- The invariant of a call: the store is one of the states during the call, and a mapping
that was read was in force together with the scopes as they are. -/
def ResolveInvariant (c x : String) (call : ResolveCall σ) : Prop :=
  match call.phase with
  | .idle => True
  | .started => call.store ∈ call.window
  | .fetched m => call.store ∈ call.window ∧ InForceTogether c x call m
  | .finished answer => ∃ d ∈ call.window, ResourceStore.resolveMapping d c x = answer

/-- What a statement of the call may do to be safe: answer from the store at hand, or
fetch the mapping and then answer with the scopes at hand. -/
structure ResolveStatement (c x : String) (statement : σ → ResolvePhase → ResolvePhase) :
    Prop where
  idle : ∀ d, statement d .idle = .idle
  finished : ∀ d answer, statement d (.finished answer) = .finished answer
  started : ∀ d, statement d .started = .finished (ResourceStore.resolveMapping d c x) ∨
    ∃ m, (PolicyStore.policy d).mapping (c, x) = some m ∧ statement d .started = .fetched m
  fetched : ∀ d m, statement d (.fetched m) = .fetched m ∨
    ∃ pair, statement d (.fetched m) = .finished (.ok (some pair)) ∧ pair.resourceMapping = m ∧
      ∀ s : String, pair.scopeMappings[s]? =
        if s ∈ m.scopes then (PolicyStore.policy d).scope s else none

/-- A call that has kept the invariant to its end answers from a snapshot. -/
theorem ResolveInvariant.snapshotConsistent {call : ResolveCall σ}
    (h : ResolveInvariant c x call) : SnapshotConsistent c x call := by
  intro answer hphase
  rw [ResolveInvariant, hphase] at h
  obtain ⟨d, hd, hanswer⟩ := h
  refine ⟨d, hd, hanswer, fun scopes => ?_⟩
  rw [← hanswer]
  rfl

/-- A pair made of `m` and the scopes of a state that has `m` in force is the answer of
that state, so such a pair is never made up of two states. -/
theorem resolveMapping_of_pair {d : σ} {m : ResourceMapping} {pair : MappingPair}
    (hm : (PolicyStore.policy d).mapping (c, x) = some m) (hpair : pair.resourceMapping = m)
    (hscopes : ∀ s : String, pair.scopeMappings[s]? =
      if s ∈ m.scopes then (PolicyStore.policy d).scope s else none) :
    ResourceStore.resolveMapping d c x = .ok (some pair) := by
  obtain ⟨pair', hpair', hsame⟩ := Policy.resolve_of_mapping hm
  rw [PolicyStore.resolveMapping_eq, hpair']
  congr 2
  apply MappingPair.ext
  · rw [hsame, hpair]
  · apply Std.ExtTreeMap.ext_getElem?
    intro s
    rw [Policy.resolve_scopeMappings hpair', hsame, hscopes]

variable {statement : σ → ResolvePhase → ResolvePhase}

/-- The next statement keeps the invariant: the first one makes it true of the mapping
that it reads, and the second one answers by it. -/
theorem ResolveInvariant.next_statement (hst : ResolveStatement c x statement) {call : ResolveCall σ}
    (h : ResolveInvariant c x call) :
    ResolveInvariant c x (call.step statement .statement).2 := by
  simp only [ResolveInvariant, ResolveCall.step] at h ⊢
  cases hphase : call.phase with
  | idle => rw [hst.idle]; trivial
  | finished answer =>
      rw [hphase] at h
      rw [hst.finished]
      exact h
  | started =>
      rw [hphase] at h
      rcases hst.started call.store with heq | ⟨m, hm, heq⟩
      · rw [heq]
        exact ⟨call.store, h, rfl⟩
      · rw [heq]
        exact ⟨h, call.store, h, hm, fun _ _ => rfl⟩
  | fetched m =>
      rw [hphase] at h
      rcases hst.fetched call.store m with heq | ⟨pair, heq, hpair, hread⟩
      · rw [heq]
        exact h
      · obtain ⟨-, d, hd, hm, hscopes⟩ := h
        rw [heq]
        refine ⟨d, hd, resolveMapping_of_pair hm hpair fun s => ?_⟩
        rw [hread]
        split
        · next hs => exact (hscopes s hs).symm
        · rfl

/-- A safe write keeps the invariant: either the mapping is still in force, and then the
new state serves, or its scopes stay as they are, and then the old one does. -/
theorem ResolveInvariant.write {call : ResolveCall σ} {w : StoreWrite}
    (hsafe : SafeStep c x call (.write w)) (h : ResolveInvariant c x call) :
    ResolveInvariant c x (call.step statement (.write w)).2 := by
  simp only [ResolveInvariant, ResolveCall.step] at h ⊢
  cases hphase : call.phase with
  | idle => trivial
  | finished answer => rw [hphase] at h; exact h
  | started => exact List.mem_cons_self
  | fetched m =>
      rw [hphase] at h
      obtain ⟨hstore, d, hd, hm, hscopes⟩ := h
      refine ⟨List.mem_cons_self, ?_⟩
      rcases hsafe m w hphase rfl with hcurrent | hkept
      · -- The mapping is still the one that was read, so the write changes it or the
        -- scopes, and the state before or after the write has both.
        cases hw : w.toMappings with
        | false =>
            refine ⟨_, List.mem_cons_self, ?_, fun _ _ => rfl⟩
            rw [PolicyStore.write_policy, Policy.write_mapping hw, hcurrent]
        | true =>
            refine ⟨call.store, List.mem_cons_of_mem _ hstore, hcurrent, fun s _ => ?_⟩
            simp only [PolicyStore.write_policy, Policy.write_scope hw]
      · exact ⟨d, List.mem_cons_of_mem _ hd, hm, fun s hs => (hscopes s hs).trans (hkept s hs).symm⟩

/-- A safe event keeps the invariant, whichever of the three kinds it is. -/
theorem ResolveInvariant.step (hst : ResolveStatement c x statement) (call : ResolveCall σ)
    (e : ResolveEvent) (hsafe : SafeStep c x call e) (h : ResolveInvariant c x call) :
    ResolveInvariant c x (call.step statement e).2 := by
  cases e with
  | start =>
      simp only [ResolveCall.step]
      split
      · exact List.mem_singleton.mpr rfl
      · exact h
  | statement => exact h.next_statement hst
  | write w => exact h.write hsafe

/-- Every call answers from a snapshot in a run whose steps are safe.  The condition is
met along the run, step by step, and not only at its end. -/
theorem snapshotConsistent_of_safe (hst : ResolveStatement c x statement) (store : σ)
    {events : List ResolveEvent}
    (hsafe : Machine.Along (ResolveCall.step statement) (SafeStep c x)
      (ResolveCall.before store) events) :
    SnapshotConsistent c x
      (Machine.after (ResolveCall.step statement) (ResolveCall.before store) events) := by
  have hbefore : ResolveInvariant c x (ResolveCall.before store) := trivial
  apply ResolveInvariant.snapshotConsistent
  exact Machine.after_invariant_along (ResolveInvariant.step hst) hbefore hsafe

end Snapshots

/-- The statement of the memory store answers from the store at hand. -/
theorem MemoryResourceStore.resolveStatement_lawful (c x : String) :
    ResolveStatement c x (resolveStatement c x) where
  idle _ := rfl
  finished _ _ := rfl
  started _ := Or.inl rfl
  fetched _ _ := Or.inl rfl

/-- The statements of the Postgres store fetch the mapping, and then answer with the
scopes at hand. -/
theorem PostgresResourceStore.resolveStatement_lawful (c x : String) :
    ResolveStatement c x (resolveStatement c x) where
  idle _ := rfl
  finished _ _ := rfl
  started db := by
    simp only [resolveStatement]
    cases hm : selectMapping db c x with
    | none =>
        left
        change _ = ResolvePhase.finished (resolveMapping db c x)
        rw [resolveMapping, hm]
    | some m =>
        right
        rw [selectMapping_eq] at hm
        exact ⟨m, hm, rfl⟩
  fetched db m := Or.inr ⟨_, rfl, rfl, fun s => getElem?_selectScopeMappings db m s⟩

/-- A call on the memory store is never between statements, so every step is safe,
whatever the other clients write. -/
theorem MemoryResourceStore.along_safeStep (c x : String) (store : InnerStore)
    (events : List ResolveEvent) :
    Machine.Along (ResolveCall.step (resolveStatement c x)) (SafeStep c x)
      (ResolveCall.before store) events := by
  refine @Machine.along_of_invariant _ _ _ (ResolveCall.step (resolveStatement c x))
    (fun call => ∀ m, call.phase ≠ .fetched m) _ ?_ ?_ (ResolveCall.before store) ?_ events
  · intro call e h
    cases e with
    | start => simp only [ResolveCall.step]; split <;> simp [h]
    | statement =>
        simp only [ResolveCall.step, resolveStatement]
        split
        · simp
        · exact h
    | write w => exact h
  · intro call e h m w hphase
    exact absurd hphase (h m)
  · simp [ResolveCall.before]

/-- **Snapshot consistency.**  Whatever writes are interleaved, a call on the
memory store answers as a single state that existed during the call.  A call on
the Postgres store does so in every run in which, between its two statements, no
scope of the mapping it read is rewritten once the stored mapping differs from
the one it read. -/
theorem resolve_snapshot_consistent (c x : String) :
    (∀ (store : InnerStore) (events : List ResolveEvent),
      SnapshotConsistent c x (Machine.after
        (ResolveCall.step (MemoryResourceStore.resolveStatement c x))
        (ResolveCall.before store) events)) ∧
    ∀ (db : Database) (events : List ResolveEvent),
      Machine.Along (ResolveCall.step (PostgresResourceStore.resolveStatement c x))
        (SafeStep c x) (ResolveCall.before db) events →
      SnapshotConsistent c x (Machine.after
        (ResolveCall.step (PostgresResourceStore.resolveStatement c x))
        (ResolveCall.before db) events) := by
  constructor
  · intro store events
    exact snapshotConsistent_of_safe (MemoryResourceStore.resolveStatement_lawful c x) store
      (MemoryResourceStore.along_safeStep c x store events)
  · intro db events hsafe
    exact snapshotConsistent_of_safe (PostgresResourceStore.resolveStatement_lawful c x) db hsafe

/-- A mapping of the sample client with the given scopes, which are taken from it while a
call is between its statements. -/
def revocableMapping (scopes : List String) : ResourceMapping where
  clientIdentifier := "client"
  participantContext := "ctx"
  scopes := Std.ExtTreeSet.ofList scopes compare
  audiences := ∅

/-- A scope mapping that gives `read` the meaning of a role. -/
def roleMapping (role : String) : ScopeMapping where
  scope := "read"
  claims := Std.ExtTreeMap.ofList [("role", .string role)] compare

/-- The client has `read`, and `read` makes it a reader. -/
def readerDatabase : Database :=
  Machine.after ResourceStore.write PostgresResourceStore.initialized
    [.saveMapping (revocableMapping ["read"]), .saveScopeMappings [roleMapping "reader"]]

/-- Between the two statements `read` is taken from the client and then given
another meaning. -/
def repurposedSchedule : List ResolveEvent :=
  [.start, .statement, .write (.updateMapping (revocableMapping [])),
    .write (.updateScopeMapping (roleMapping "admin")), .statement]

/-- The same writes in the other order: `read` gets its new meaning while the client still
has it, and is taken from the client then. -/
def reorderedSchedule : List ResolveEvent :=
  [.start, .statement, .write (.updateScopeMapping (roleMapping "admin")),
    .write (.updateMapping (revocableMapping [])), .statement]

/-- In the other order the call answers from the state between the two writes, which had
the mapping that was read and the scope as it is. -/
theorem reordered_snapshotConsistent :
    SnapshotConsistent "client" "ctx" (Machine.after
      (ResolveCall.step (PostgresResourceStore.resolveStatement "client" "ctx"))
      (ResolveCall.before readerDatabase) reorderedSchedule) := by
  refine (resolve_snapshot_consistent "client" "ctx").2 readerDatabase reorderedSchedule ?_
  refine ⟨?_, ?_, ?_, ?_, ?_, trivial⟩
  · intro m w _ h
    cases h
  · intro m w _ h
    cases h
  · intro m w hphase _
    cases hphase
    exact Or.inl rfl
  · intro m w hphase _
    cases hphase
    exact Or.inl rfl
  · intro m w _ h
    cases h

/-- The client, which never held the new meaning of `read`, is answered with it.  No state
had the old mapping and the new meaning together. -/
theorem repurposed_not_snapshotConsistent :
    ¬ SnapshotConsistent "client" "ctx" (Machine.after
      (ResolveCall.step (PostgresResourceStore.resolveStatement "client" "ctx"))
      (ResolveCall.before readerDatabase) repurposedSchedule) := by
  intro h
  obtain ⟨d, hd, hanswer, -⟩ := h _ rfl
  revert d
  decide

end Jwtlet

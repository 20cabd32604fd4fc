import Jwtlet.ResourceMem
import Jwtlet.ScopeTransactionInvariant

/-!
# Replaying concurrent scope writes

The points of a run of concurrent calls, in the order they occur, are a sequential
run: each point has the answer that the atomic operation gives there, and the
committed rows are the ones that the sequential run leads to.  `Settles.replays`
and `Settles.replays_decided` explain one outcome, `Sessions.points_replay` a whole
run, and `memory_replay` carries it over to the memory store.
-/

namespace Jwtlet

/-- One write of scope mappings on a policy, as a step of the sequential machine. -/
def Policy.scopeStep (p : Policy) (write : ScopeWrite) : Except ResourceError Unit × Policy :=
  p.write write.toWrite

/-- One write of scope mappings on the memory store, as a step of the sequential machine.
-/
def MemoryResourceStore.scopeStep (store : InnerStore) (write : ScopeWrite) :
    Except ResourceError Unit × InnerStore :=
  ResourceStore.write store write.toWrite

/-- A point as an entry of a sequential run: the write with its answer, without the number
of the call. -/
def Point.entry (q : Point) : ScopeWrite × Except ResourceError Unit := (q.write, q.answer)

/-- The points of a run, in the order in which the outcomes were decided. -/
def pointsOf (past : List (ScopeEvent × Observation)) : List Point :=
  past.flatMap fun e => e.2.points

namespace Sessions

open PostgresResourceStore (policy)

/-- A row change of an absent row has no effect and is answered so. -/
theorem scopeStep_absent {p : Policy} {change : RowChange} (h : p.scope change.scope = none) :
    p.scopeStep (.change change) = (change.absent, p) := by
  cases change with
  | update m =>
      have hrow : (p.scope m.scope).isSome = false := by
        rw [Option.isSome_eq_false_iff, Option.isNone_iff_eq_none]
        exact h
      simp only [Policy.scopeStep, ScopeWrite.toWrite, Policy.write, hrow]
      rfl
  | remove s =>
      have hsame : Function.update p.scope s none = p.scope := by
        rw [Function.update_eq_self_iff]
        exact h.symm
      simp only [Policy.scopeStep, ScopeWrite.toWrite, Policy.write, hsame]
      rfl

/-- A batch with a taken scope conflicts at the first one and has no effect. -/
theorem scopeStep_taken {p : Policy} {ms : List ScopeMapping} {s : String}
    (h : Policy.firstTaken (fun s => (p.scope s).isSome) ms = some s) :
    p.scopeStep (.save ms) = (.error (.conflict s), p) := by
  simp only [Policy.scopeStep, ScopeWrite.toWrite, Policy.write, h]

variable {w : Sessions} {id : Nat} {c : Call} {answer : Except ResourceError Unit} {db : Database}
  {decides : Call → Option (Except ResourceError Unit)}

/-- The call that settles gets the answer of the atomic operation and has its effect, at
the instant at which it settles. -/
theorem Settles.replays (hinv : w.Inv) (hc : w.calls id = some c)
    (h : w.Settles id c answer db decides) :
    (policy w.db).scopeStep c.write = (answer, policy db) := by
  cases h with
  | @refused inserted rest m waitsFor s htaken =>
      have hbatch := @Policy.firstTaken_append_of_eq_some _ _ rest s htaken
      rw [List.append_assoc, List.singleton_append, Database.stored_eq_scope] at hbatch
      exact scopeStep_taken hbatch
  | absent hrow =>
      exact scopeStep_absent (Database.stored_eq_false_iff.mp hrow)
  | @batch inserted waitsFor =>
      have hfree : Policy.firstTaken w.db.stored inserted = none := hinv.free id _ hc
      rw [policy_saveScopeMappings hfree]
      rw [Database.stored_eq_scope] at hfree
      simp only [Policy.scopeStep, Call.write, List.append_nil, ScopeWrite.toWrite, Policy.write,
        hfree]
  | @row change =>
      have hrow := Database.stored_eq_true_iff.mp (hinv.found id _ change.scope hc rfl)
      rw [change.policy_execute]
      cases change with
      | update m =>
          refine Prod.ext ?_ rfl
          rw [RowChange.scope] at hrow
          simp only [Policy.scopeStep, Call.write, ScopeWrite.toWrite, Policy.write, hrow, if_true]
      | remove s => rfl

/-- A batch that waits conflicts at the row it waits for, since the rows it inserted
are still free. -/
theorem scopeStep_waiting {inserted : List ScopeMapping} {waitsFor : Option Nat} (hinv : w.Inv)
    (hc : w.calls id = some (.batch inserted [] waitsFor)) {j : Nat} {d : Call} {scope : String}
    (hd : w.calls j = some d) (hwaits : d.waits = some (id, scope)) :
    (policy (PostgresResourceStore.saveScopeMappings w.db inserted).2).scopeStep d.write =
      (.error (.conflict scope),
        policy (PostgresResourceStore.saveScopeMappings w.db inserted).2) := by
  have hfree : Policy.firstTaken w.db.stored inserted = none := hinv.free id _ hc
  obtain ⟨c', hc', hscope⟩ := hinv.held j d id scope hd hwaits
  rw [hc] at hc'
  cases hc'
  obtain ⟨inserted', m, rest, rfl, rfl⟩ := Call.waits_eq_some hwaits
  have hj : j ≠ id := by
    intro hj
    rw [hj, hc] at hd
    cases hd
  have htaken := (stored_saveScopeMappings hfree m.scope).mpr (Or.inr (hscope rfl))
  have hblamed := @Policy.firstTaken_eq_of_first _ inserted' rest m
    (hinv.free_of_commit hc hj hd) (Or.inl htaken)
  rw [Database.stored_eq_scope] at hblamed
  exact scopeStep_taken hblamed

/-- A statement that comes after the removal of its row finds nothing and has no effect.
-/
theorem scopeStep_removed (db : Database) (change : RowChange) :
    (policy ((RowChange.remove change.scope).execute db)).scopeStep (.change change) =
      (change.absent, policy ((RowChange.remove change.scope).execute db)) := by
  apply scopeStep_absent
  rw [← Database.stored_eq_false_iff, Bool.eq_false_iff]
  simp [RowChange.stored_execute]

/-- A call that is decided along with it gets the answer of the atomic operation
right after, which has no effect. -/
theorem Settles.replays_decided (hinv : w.Inv) (hc : w.calls id = some c)
    (h : w.Settles id c answer db decides) {j : Nat} {d : Call}
    {answer' : Except ResourceError Unit} (hd : w.calls j = some d)
    (hdecides : decides d = some answer') :
    (policy db).scopeStep d.write = (answer', policy db) := by
  cases h with
  | refused htaken => cases hdecides
  | absent hrow => cases hdecides
  | batch =>
      obtain ⟨scope, hwaits, rfl⟩ := decidesWaiting_eq_some hdecides
      exact scopeStep_waiting hinv hc hd hwaits
  | row =>
      obtain ⟨change', rfl, rfl, rfl⟩ := decidesMatched_eq_some hdecides
      exact scopeStep_removed w.db change'

/-- The points of one step are a sequential run of the policy, which ends with the policy
of the committed rows after the step. -/
theorem points_replay_step {p : Policy} {w : Sessions} {e : ScopeEvent} (hinv : w.Inv)
    (hp : p = policy w.db) :
    Machine.history Policy.scopeStep p (((w.step e).1.points.map Point.entry).map Prod.fst) =
        (w.step e).1.points.map Point.entry ∧
      Machine.after Policy.scopeStep p (((w.step e).1.points.map Point.entry).map Prod.fst) =
        policy (w.step e).2.db := by
  have hdoes := does_step hinv.listed e
  generalize w.step e = next at hdoes
  cases hdoes with
  | idle => exact ⟨rfl, hp⟩
  | invoked hnew => exact ⟨rfl, hp⟩
  | moved hc hmoves => exact ⟨rfl, hp⟩
  | failed hc hactive => exact ⟨rfl, hp⟩
  | responded hc => exact ⟨rfl, hp⟩
  | @settled _ id c answer db decides hc hsettles =>
      have hfirst := hsettles.replays hinv hc
      have hothers : ∀ entry ∈ (w.started.filterMap fun j => (w.calls j).bind fun c' =>
          (decides c').map fun answer' => (⟨j, c'.write, answer'⟩ : Point)).map Point.entry,
          (policy db).scopeStep entry.1 = (entry.2, policy db) := by
        intro entry hentry
        obtain ⟨q, hq, rfl⟩ := List.mem_map.mp hentry
        obtain ⟨j, -, hj⟩ := List.mem_filterMap.mp hq
        obtain ⟨d, hd, hdecided⟩ := Option.bind_eq_some_iff.mp hj
        obtain ⟨answer', hdecides, rfl⟩ := Option.map_eq_some_iff.mp hdecided
        exact hsettles.replays_decided hinv hc hd hdecides
      obtain ⟨hanswers, hstate⟩ := Machine.history_of_stationary hothers
      subst hp
      simp only [settle, List.map_cons, Machine.history_cons, Machine.after_cons, Point.entry,
        hfirst] at hanswers hstate ⊢
      exact ⟨congrArg _ hanswers, hstate⟩

/-- The points of a run are a sequential run of the policy, which ends with the policy of
the committed rows. -/
theorem points_replay (db : Database) (events : List ScopeEvent) :
    Machine.history Policy.scopeStep (policy db)
        (((pointsOf (Machine.history step (initial db) events)).map Point.entry).map Prod.fst) =
        (pointsOf (Machine.history step (initial db) events)).map Point.entry ∧
      Machine.after Policy.scopeStep (policy db)
        (((pointsOf (Machine.history step (initial db) events)).map Point.entry).map Prod.fst) =
        policy (Machine.after step (initial db) events).db := by
  have hstart : (initial db).Inv ∧ policy db = policy (initial db).db := ⟨inv_initial db, rfl⟩
  have hrun := @Machine.linearization _ _ _ step _ _ _ Policy.scopeStep
    (fun o : Observation => o.points.map Point.entry)
    (fun p (w : Sessions) => w.Inv ∧ p = policy w.db) (fun p w e hw =>
      have hstep := points_replay_step hw.1 hw.2
      ⟨hstep.1, hw.1.step w e, hstep.2⟩) _ _ hstart events
  rw [pointsOf, List.map_flatMap]
  exact ⟨hrun.1, hrun.2.2⟩

end Sessions

/-- A sequential run of the policy is one of the memory store, with the same answers. -/
theorem memory_replay {store : InnerStore} {p : Policy}
    (hstore : MemoryResourceStore.policy store = p) (writes : List ScopeWrite) :
    Machine.history MemoryResourceStore.scopeStep store writes =
        Machine.history Policy.scopeStep p writes ∧
      MemoryResourceStore.policy (Machine.after MemoryResourceStore.scopeStep store writes) =
        Machine.after Policy.scopeStep p writes := by
  have hsim := @Machine.simulation _ _ _ MemoryResourceStore.scopeStep _ _ Policy.scopeStep
    (fun store p => MemoryResourceStore.policy store = p) (fun _ a b => a = b)
    (fun store p write h => by
      subst h
      exact ⟨PolicyStore.write_answer store write.toWrite,
        PolicyStore.write_policy store write.toWrite⟩) store p hstore writes
  refine ⟨?_, hsim.2⟩
  have hsame := hsim.1.imp fun e e' h => Prod.ext h.1 h.2
  rwa [List.forall₂_eq_eq_eq] at hsame

section Sequential

variable {p : Policy} {s : String} {m : ScopeMapping} {ms : List ScopeMapping}

/-- A batch that succeeds had no taken scope and adds its mappings. -/
theorem scopeStep_save_ok (h : (p.scopeStep (.save ms)).1 = .ok ()) :
    Policy.firstTaken (fun s => (p.scope s).isSome) ms = none ∧
      (p.scopeStep (.save ms)).2.scope = Policy.addScopes p.scope ms := by
  simp only [Policy.scopeStep, ScopeWrite.toWrite, Policy.write] at h ⊢
  split at h
  · cases h
  · next hfree =>
    rw [hfree]
    exact ⟨rfl, rfl⟩

/-- A batch that succeeds puts all its mappings in force, each under its own scope. -/
theorem scope_of_save_ok (h : (p.scopeStep (.save ms)).1 = .ok ()) (hm : m ∈ ms) :
    (p.scopeStep (.save ms)).2.scope m.scope = some m := by
  obtain ⟨hfree, hscope⟩ := scopeStep_save_ok h
  have hnodup := (Policy.firstTaken_eq_none_iff.mp hfree).2
  have hfind : (ms.find? fun m' => m'.scope == m.scope) = some m := by
    cases hfound : ms.find? fun m' => m'.scope == m.scope with
    | none => exact absurd (beq_self_eq_true m.scope) (List.find?_eq_none.mp hfound m hm)
    | some m' =>
        have hsame := List.find?_some hfound
        rw [beq_iff_eq] at hsame
        rw [List.inj_on_of_nodup_map hnodup (List.mem_of_find?_eq_some hfound) hm hsame]
  rw [hscope, Policy.addScopes_apply hnodup, hfind]
  rfl

/-- A mapping in force stays in force until its scope is removed, but may be
updated. -/
theorem scope_kept (h : p.scope s = some m) {write : ScopeWrite}
    (hwrite : write ≠ .change (.remove s)) :
    (p.scopeStep write).2.scope s = some m ∨
      ∃ m', write = .change (.update m') ∧ m'.scope = s ∧
        (p.scopeStep write).2.scope s = some m' := by
  match write with
  | .save ms =>
      left
      simp only [Policy.scopeStep, ScopeWrite.toWrite, Policy.write]
      split
      · exact h
      · next hfree =>
        obtain ⟨hunstored, -⟩ := Policy.firstTaken_eq_none_iff.mp hfree
        have hapart : ∀ m' ∈ ms, m'.scope ≠ s := by
          intro m' hm' hscope
          have hnone := hunstored m' hm'
          rw [hscope, h] at hnone
          cases hnone
        exact (Policy.addScopes_of_not_mem hapart).trans h
  | .change (.update m') =>
      simp only [Policy.scopeStep, ScopeWrite.toWrite, Policy.write]
      split
      · by_cases hscope : m'.scope = s
        · refine Or.inr ⟨m', rfl, hscope, ?_⟩
          rw [← hscope]
          exact Function.update_self _ _ _
        · exact Or.inl ((Function.update_of_ne (Ne.symm hscope) _ _).trans h)
      · exact Or.inl h
  | .change (.remove s') =>
      have hs : s ≠ s' := fun hs => hwrite (by rw [hs])
      exact Or.inl ((Function.update_of_ne hs _ _).trans h)

/-- A write that fails has no effect on the policy. -/
theorem scopeStep_error {write : ScopeWrite} {e : ResourceError}
    (h : (p.scopeStep write).1 = .error e) : (p.scopeStep write).2 = p :=
  Policy.write_error h

variable {l l₁ l₂ l₃ : List (ScopeWrite × Except ResourceError Unit)}

/-- Between two batches that succeed and share a scope, the scope is removed.  Otherwise
it would be in force still, and the second would conflict. -/
theorem removed_between {ms' : List ScopeMapping} {m' : ScopeMapping}
    (h : Machine.history Policy.scopeStep p
      ((l₁ ++ (.save ms, .ok ()) :: (l₂ ++ (.save ms', .ok ()) :: l₃)).map Prod.fst) =
      l₁ ++ (.save ms, .ok ()) :: (l₂ ++ (.save ms', .ok ()) :: l₃))
    (hm : m ∈ ms) (hm' : m' ∈ ms') (hscope : m.scope = m'.scope) :
    ScopeWrite.change (.remove m.scope) ∈ l₂.map Prod.fst := by
  obtain ⟨hfirst, hrest⟩ := Machine.history_split h
  obtain ⟨hsecond, -⟩ := Machine.history_split hrest
  by_contra hnot
  have hput : ∃ m₁, ((Machine.after Policy.scopeStep p (l₁.map Prod.fst)).scopeStep
      (.save ms)).2.scope m.scope = some m₁ := ⟨m, scope_of_save_ok hfirst hm⟩
  have hbetween : ∀ write ∈ l₂.map Prod.fst, write ≠ .change (.remove m.scope) := by
    intro write hwrite heq
    rw [heq] at hwrite
    exact hnot hwrite
  have hkept := @Machine.after_invariant_along _ _ _ Policy.scopeStep
    (fun p => ∃ m₁, p.scope m.scope = some m₁) _
    (fun p write hwrite hp => by
      obtain ⟨m₁, hm₁⟩ := hp
      rcases scope_kept hm₁ hwrite with hsame | ⟨m₂, -, -, hupdated⟩
      · exact ⟨m₁, hsame⟩
      · exact ⟨m₂, hupdated⟩) _ hput (l₂.map Prod.fst) (Machine.along_of_forall hbetween _)
  obtain ⟨m₁, hm₁⟩ := hkept
  have hunstored := (Policy.firstTaken_eq_none_iff.mp (scopeStep_save_ok hsecond).1).1 m' hm'
  rw [← hscope, hm₁] at hunstored
  cases hunstored

/-- A mapping of a batch that succeeded is in force until a later write changes its scope.
-/
theorem in_force_after
    (h : Machine.history Policy.scopeStep p
      ((l₁ ++ (.save ms, .ok ()) :: l₂).map Prod.fst) = l₁ ++ (.save ms, .ok ()) :: l₂)
    (hm : m ∈ ms)
    (hunchanged : ∀ change : RowChange, ScopeWrite.change change ∈ l₂.map Prod.fst →
      change.scope ≠ m.scope) :
    (Machine.after Policy.scopeStep p ((l₁ ++ (.save ms, .ok ()) :: l₂).map Prod.fst)).scope
      m.scope = some m := by
  obtain ⟨hfirst, -⟩ := Machine.history_split h
  have hlater : ∀ write ∈ l₂.map Prod.fst, ∀ change, write = .change change →
      change.scope ≠ m.scope := by
    intro write hwrite change heq
    rw [heq] at hwrite
    exact hunchanged change hwrite
  rw [List.map_append, Machine.after_append, List.map_cons, Machine.after_cons]
  refine @Machine.after_invariant_along _ _ _ Policy.scopeStep
    (fun p => p.scope m.scope = some m) _ (fun p write hwrite hp => ?_) _
    (scope_of_save_ok hfirst hm) (l₂.map Prod.fst) (Machine.along_of_forall hlater _)
  have hremove : write ≠ .change (.remove m.scope) := fun heq => hwrite _ heq rfl
  rcases scope_kept hp hremove with hsame | ⟨m', heq, hscope, -⟩
  · exact hsame
  · exact absurd hscope (hwrite _ heq)

/-- Failed writes can be erased from a sequential run: what remains leads to the same
policy. -/
theorem after_succeeded (h : Machine.history Policy.scopeStep p (l.map Prod.fst) = l) :
    Machine.after Policy.scopeStep p
        ((l.filter fun e => e.2.toBool).map Prod.fst) =
      Machine.after Policy.scopeStep p (l.map Prod.fst) := by
  induction l generalizing p with
  | nil => rfl
  | cons e l ih =>
      obtain ⟨hentry, hrest⟩ := List.cons.inj h
      have hanswer : (p.scopeStep e.1).1 = e.2 := congrArg Prod.snd hentry
      cases he : e.2 with
      | ok u =>
          rw [List.filter_cons_of_pos (by simp [he, Except.toBool])]
          exact ih hrest
      | error err =>
          rw [he] at hanswer
          have hsame := scopeStep_error hanswer
          rw [List.filter_cons_of_neg (by simp [he, Except.toBool]), List.map_cons,
            Machine.after_cons, hsame]
          rw [hsame] at hrest
          exact ih hrest

end Sequential

end Jwtlet

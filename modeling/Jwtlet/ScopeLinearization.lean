import Jwtlet.ScopeReplay

/-!
# Concurrent scope writes are linearizable

`CallStep` says what one step does to one call, and `Traced` keeps the past of the
call along a run: it begins, has one point at most, and returns.  With the replay of
the points this makes every run of concurrent calls a sequential run of the memory
store in which each call takes effect between its start and its end.
-/

namespace Jwtlet

/-- The call has an outcome that is not a failure of the database: it succeeded, or what
it asked for was in conflict or not there. -/
def conclusive : Except ResourceError Unit → Bool
  | .ok () | .error (.conflict _) | .error (.notFound _) => true
  | .error _ => false

/-- The points of one call among those of a run, in their order. -/
def pointsFor (id : Nat) (past : List (ScopeEvent × Observation)) : List Point :=
  (pointsOf past).filter fun q => q.call == id

/-- The points of a call that ends with an answer: one if it has an outcome, none if the
database failed it. -/
def decidedPoints (id : Nat) (write : ScopeWrite) (answer : Except ResourceError Unit) :
    List Point :=
  if conclusive answer then [⟨id, write, answer⟩] else []

/-- The points of a call in two parts of a run are those in the first, followed by those
in the second. -/
theorem pointsFor_append (id : Nat) (past past' : List (ScopeEvent × Observation)) :
    pointsFor id (past ++ past') = pointsFor id past ++ pointsFor id past' := by
  rw [pointsFor, pointsOf, List.flatMap_append, List.filter_append]
  rfl

/-- The points of a call in a run start with those of the first step. -/
theorem pointsFor_cons (id : Nat) (e : ScopeEvent × Observation)
    (past : List (ScopeEvent × Observation)) :
    pointsFor id (e :: past) = e.2.points.filter (fun q => q.call == id) ++ pointsFor id past := by
  rw [pointsFor, pointsOf, List.flatMap_cons, List.filter_append]
  rfl

@[simp] theorem pointsFor_nil (id : Nat) : pointsFor id [] = [] := rfl

/-- The elements that one key of a list without repetition yields are what that key is
taken to. -/
theorem filter_filterMap_of_key {A B : Type} [DecidableEq A] {key : B → A} {f : A → Option B}
    {l : List A} (hl : l.Nodup) (hf : ∀ a b, f a = some b → key b = a) (a : A) :
    (l.filterMap f).filter (fun b => key b == a) = if a ∈ l then (f a).toList else [] := by
  induction l with
  | nil => rfl
  | cons a' l ih =>
      rw [List.nodup_cons] at hl
      rw [List.filterMap_cons]
      by_cases ha : a' = a
      · subst ha
        have hrest : (l.filterMap f).filter (fun b => key b == a') = [] := by
          rw [ih hl.2, if_neg hl.1]
        rw [if_pos List.mem_cons_self]
        cases hfa : f a' with
        | none => exact hrest
        | some b =>
            rw [List.filter_cons_of_pos (by simp [hf a' b hfa]), hrest]
            rfl
      · simp only [List.mem_cons, Ne.symm ha, false_or]
        rw [← ih hl.2]
        cases hfa : f a' with
        | none => rfl
        | some b => exact List.filter_cons_of_neg (by simp [hf a' b hfa, ha])

/-- What one step does to the call `id`: nothing, or it begins, moves on, is decided,
fails, or returns. -/
inductive CallStep (id : Nat) (e : ScopeEvent) (o : Observation) :
    Option Call → Option Call → Prop
  | other {c : Option Call} (hpoints : o.points.filter (fun q => q.call == id) = [])
      (hreturned : ∀ answer, o.returned ≠ some (id, answer)) : CallStep id e o c c
  | began {write : ScopeWrite} (he : e = .invoke id write) (ho : o = .nothing) :
      CallStep id e o none (some (Call.start write))
  | went {c c' : Call} (ho : o = .nothing) (hactive : c.active = true)
      (hactive' : c'.active = true) (hwrite : c'.write = c.write) :
      CallStep id e o (some c) (some c')
  | ended {c : Call} {answer : Except ResourceError Unit} (hactive : c.active = true)
      (hpoints : o.points.filter (fun q => q.call == id) = decidedPoints id c.write answer)
      (hreturned : o.returned = none) :
      CallStep id e o (some c) (some (.answered c.write answer))
  | returned {write : ScopeWrite} {answer : Except ResourceError Unit} (he : e = .respond id)
      (ho : o = { points := [], returned := some (id, answer) }) :
      CallStep id e o (some (.answered write answer)) (some (.returned write answer))

namespace Sessions

/-- A call that moves on by itself stays in its transaction and asks for the same write.
-/
theorem Moves.keeps {w : Sessions} {c c' : Call} (h : w.Moves c c') :
    c.active = true ∧ c'.active = true ∧ c'.write = c.write := by
  cases h with
  | waits hc hholds => exact ⟨rfl, rfl, rfl⟩
  | inserts hfree hunheld => exact ⟨rfl, rfl, by simp [Call.write]⟩
  | finds hrow => exact ⟨rfl, rfl, rfl⟩
  | locks hunlocked => exact ⟨rfl, rfl, rfl⟩

/-- Affecting no row is an outcome, for an update as for a removal. -/
theorem conclusive_absent (change : RowChange) : conclusive change.absent = true := by
  cases change <;> rfl

section Settle

variable {w : Sessions} {id : Nat} {c : Call} {answer : Except ResourceError Unit} {db : Database}
  {decides : Call → Option (Except ResourceError Unit)}

/-- A call that settles was in progress, is not decided along with another, and gets
an answer that is not a failure. -/
theorem Settles.settled (h : w.Settles id c answer db decides) :
    c.active = true ∧ decides c = none ∧ conclusive answer = true := by
  cases h with
  | refused htaken => exact ⟨rfl, rfl, rfl⟩
  | absent hrow => exact ⟨rfl, rfl, conclusive_absent _⟩
  | batch => exact ⟨rfl, rfl, rfl⟩
  | row => exact ⟨rfl, rfl, rfl⟩

/-- A call that is decided along with another was in progress and gets an answer that is
not a failure. -/
theorem Settles.decided (h : w.Settles id c answer db decides) {d : Call}
    {answer' : Except ResourceError Unit} (hd : decides d = some answer') :
    d.active = true ∧ conclusive answer' = true := by
  cases h with
  | refused htaken => cases hd
  | absent hrow => cases hd
  | batch =>
      obtain ⟨scope, hwaits, rfl⟩ := decidesWaiting_eq_some hd
      exact ⟨Call.active_of_holds (by simp [hwaits]), rfl⟩
  | row =>
      obtain ⟨change', -, rfl, rfl⟩ := decidesMatched_eq_some hd
      exact ⟨rfl, conclusive_absent change'⟩

end Settle

/-- The points of one call among those of the calls that a step decides: one if it is
among them.  The list of calls has no repetition. -/
theorem filter_decided {w : Sessions} (hinv : w.Inv)
    (decides : Call → Option (Except ResourceError Unit)) (id : Nat) :
    (w.started.filterMap fun j => (w.calls j).bind fun c => (decides c).map fun answer =>
        (⟨j, c.write, answer⟩ : Point)).filter (fun q => q.call == id) =
      ((w.calls id).bind fun c => (decides c).map fun answer =>
        (⟨id, c.write, answer⟩ : Point)).toList := by
  have hcall : ∀ j q, ((w.calls j).bind fun c => (decides c).map fun answer =>
      (⟨j, c.write, answer⟩ : Point)) = some q → q.call = j := by
    intro j q hq
    obtain ⟨c, -, hdecided⟩ := Option.bind_eq_some_iff.mp hq
    obtain ⟨answer, -, rfl⟩ := Option.map_eq_some_iff.mp hdecided
    rfl
  rw [filter_filterMap_of_key hinv.nodup hcall]
  split
  · rfl
  · next hid =>
    cases hc : w.calls id with
    | none => rfl
    | some c => exact absurd (hinv.listed.mem hc) hid

/-- A step that replaces one call and says nothing of the others, from the view of any
call. -/
theorem callStep_update {id id' : Nat} {e : ScopeEvent} {o : Observation}
    {calls : Nat → Option Call} {c' : Call} (hpoints : o.points = [])
    (hreturned : id ≠ id' → ∀ answer, o.returned ≠ some (id, answer))
    (hself : id = id' → CallStep id e o (calls id) (some c')) :
    CallStep id e o (calls id) (Function.update calls id' (some c') id) := by
  by_cases hid : id = id'
  · have hupdated : Function.update calls id' (some c') id = some c' := by
      rw [hid, Function.update_self]
    rw [hupdated]
    exact hself hid
  · rw [Function.update_of_ne hid]
    exact .other (by rw [hpoints]; rfl) (hreturned hid)

/-- A step that settles a call and decides others along with it, from the view of any
call. -/
theorem callStep_settle {w : Sessions} (hinv : w.Inv) (e : ScopeEvent) (id : Nat) {id' : Nat}
    {c : Call} {answer : Except ResourceError Unit} {db : Database}
    {decides : Call → Option (Except ResourceError Unit)} (hc : w.calls id' = some c)
    (hsettles : w.Settles id' c answer db decides) :
    CallStep id e (w.settle id' c answer db decides).1 (w.calls id)
      ((w.settle id' c answer db decides).2.calls id) := by
  obtain ⟨hactive, hself, hconclusive⟩ := hsettles.settled
  have hothers := filter_decided hinv decides id
  by_cases hid : id = id'
  · subst hid
    simp only [hc, Option.bind_some, hself, Option.map_none, Option.toList_none] at hothers
    simp only [settle, hc, Function.update_self]
    refine .ended hactive ?_ rfl
    rw [List.filter_cons_of_pos (by simp), hothers, decidedPoints, hconclusive]
    rfl
  · have hpoints : (w.settle id' c answer db decides).1.points.filter
        (fun q => q.call == id) = _ :=
      (List.filter_cons_of_neg (by simp [Ne.symm hid])).trans hothers
    simp only [settle, Function.update_of_ne hid] at hpoints ⊢
    cases hd : w.calls id with
    | none =>
        rw [hd] at hpoints
        exact .other hpoints (by simp)
    | some d =>
        rw [hd, Option.bind_some] at hpoints
        rw [Option.map_some]
        cases hdecides : decides d with
        | none =>
            rw [hdecides] at hpoints
            exact .other hpoints (by simp)
        | some answer' =>
            obtain ⟨hactive', hconclusive'⟩ := hsettles.decided hdecides
            rw [hdecides] at hpoints
            refine .ended hactive' (hpoints.trans ?_) rfl
            rw [decidedPoints, hconclusive']
            rfl

/-- What one step does to each call.  The case is that of the call which the step is
about, or `other`. -/
theorem callStep {w : Sessions} (hinv : w.Inv) (e : ScopeEvent) (id : Nat) :
    CallStep id e (w.step e).1 (w.calls id) ((w.step e).2.calls id) := by
  have hnothing : ∀ answer, Observation.nothing.returned ≠ some (id, answer) := by
    simp [Observation.nothing]
  have hdoes := does_step hinv.listed e
  generalize w.step e = next at hdoes
  cases hdoes with
  | idle => exact .other rfl hnothing
  | invoked hnew =>
      refine callStep_update rfl (fun _ => hnothing) fun hid => ?_
      subst hid
      rw [hnew]
      exact .began rfl rfl
  | moved hc hmoves =>
      obtain ⟨hactive, hactive', hwrite⟩ := hmoves.keeps
      refine callStep_update rfl (fun _ => hnothing) fun hid => ?_
      rw [hid, hc]
      exact .went rfl hactive hactive' hwrite
  | failed hc hactive =>
      refine callStep_update rfl (fun _ => hnothing) fun hid => ?_
      rw [hid, hc]
      exact .ended hactive rfl rfl
  | responded hc =>
      refine callStep_update rfl (fun hid => by simp [Ne.symm hid]) fun hid => ?_
      subst hid
      rw [hc]
      exact .returned rfl rfl
  | settled hc hsettles => exact callStep_settle hinv e id hc hsettles

end Sessions

/-- The call began, had no points before, and has had these points since. -/
def Begun (id : Nat) (write : ScopeWrite) (points : List Point)
    (past : List (ScopeEvent × Observation)) : Prop :=
  ∃ before during, past = before ++ (.invoke id write, .nothing) :: during ∧
    pointsFor id before = [] ∧ pointsFor id during = points

/-- The call began, had its point if it has an outcome, and then returned; it has no
other point. -/
def Placed (id : Nat) (write : ScopeWrite) (answer : Except ResourceError Unit)
    (past : List (ScopeEvent × Observation)) : Prop :=
  ∃ before during rest, past = before ++ (.invoke id write, .nothing) :: during ++
      (.respond id, { points := [], returned := some (id, answer) }) :: rest ∧
    pointsFor id before = [] ∧ pointsFor id during = decidedPoints id write answer ∧
    pointsFor id rest = []

/-- The past of a run agrees with where the call is: what it asked for is in the past, and
so are its points. -/
def Traced (id : Nat) (past : List (ScopeEvent × Observation)) : Option Call → Prop
  | none => pointsFor id past = []
  | some (.batch inserted rest _) => Begun id (.save (inserted ++ rest)) [] past
  | some (.row change _) => Begun id (.change change) [] past
  | some (.answered write answer) => Begun id write (decidedPoints id write answer) past
  | some (.returned write answer) => Placed id write answer past

/-- A call in its transaction has begun and has not been decided. -/
theorem traced_of_active {id : Nat} {past : List (ScopeEvent × Observation)} {c : Call}
    (h : c.active = true) : Traced id past (some c) ↔ Begun id c.write [] past := by
  cases c with
  | batch inserted rest waitsFor => rfl
  | row change stage => rfl
  | answered write answer => cases h
  | returned write answer => cases h

section Trace

variable {id : Nat} {e : ScopeEvent} {o : Observation} {past : List (ScopeEvent × Observation)}

/-- A call that has begun has the points of one more step besides its own before. -/
theorem Begun.concat {write : ScopeWrite} {points points' : List Point}
    (h : Begun id write points past)
    (ho : o.points.filter (fun q => q.call == id) = points') :
    Begun id write (points ++ points') (past ++ [(e, o)]) := by
  obtain ⟨before, during, rfl, hbefore, hduring⟩ := h
  refine ⟨before, during ++ [(e, o)], by simp, hbefore, ?_⟩
  rw [pointsFor_append, pointsFor_cons, pointsFor_nil, List.append_nil, hduring, ho]

/-- A step without points of a call leaves the past in agreement with it. -/
theorem Traced.concat_other {c : Option Call} (h : Traced id past c)
    (ho : o.points.filter (fun q => q.call == id) = []) : Traced id (past ++ [(e, o)]) c := by
  match c with
  | none =>
      rw [Traced, pointsFor_append, pointsFor_cons, h, ho]
      rfl
  | some (.batch inserted rest waitsFor) => exact Begun.concat h ho
  | some (.row change stage) => exact Begun.concat h ho
  | some (.answered write answer) =>
      have hbegun := @Begun.concat id e o _ _ _ _ h ho
      rw [List.append_nil] at hbegun
      exact hbegun
  | some (.returned write answer) =>
      obtain ⟨before, during, rest, rfl, hbefore, hduring, hrest⟩ := h
      refine ⟨before, during, rest ++ [(e, o)], by simp, hbefore, hduring, ?_⟩
      rw [pointsFor_append, pointsFor_cons, hrest, ho]
      rfl

/-- A step of the call is recorded in the past, which then agrees with where the call is
after the step. -/
theorem Traced.concat {c c' : Option Call} (h : Traced id past c) (hstep : CallStep id e o c c') :
    Traced id (past ++ [(e, o)]) c' := by
  cases hstep with
  | other hpoints hreturned => exact h.concat_other hpoints
  | @began write he ho =>
      have hactive : (Call.start write).active = true := by cases write <;> rfl
      have hwrite : (Call.start write).write = write := by cases write <;> rfl
      rw [traced_of_active hactive, hwrite, he, ho]
      exact ⟨past, [], rfl, h, rfl⟩
  | went ho hactive hactive' hwrite =>
      rw [traced_of_active hactive] at h
      rw [traced_of_active hactive', hwrite]
      exact h.concat (by rw [ho]; rfl)
  | ended hactive hpoints hreturned =>
      rw [traced_of_active hactive] at h
      exact h.concat hpoints
  | returned he ho =>
      obtain ⟨before, during, rfl, hbefore, hduring⟩ := h
      exact ⟨before, during, [], by rw [he, ho], hbefore, hduring, rfl⟩

/-- Only the step that returns a call shows its answer, and the call has returned then. -/
theorem CallStep.eq_returned {c c' : Option Call} (h : CallStep id e o c c')
    {answer : Except ResourceError Unit} (ho : o.returned = some (id, answer)) :
    ∃ write, c' = some (.returned write answer) := by
  cases h with
  | other hpoints hreturned => exact absurd ho (hreturned answer)
  | began he hnothing => rw [hnothing] at ho; cases ho
  | went hnothing hactive hactive' hwrite => rw [hnothing] at ho; cases ho
  | ended hactive hpoints hreturned => rw [hreturned] at ho; cases ho
  | @returned write answer' he hanswer =>
      rw [hanswer] at ho
      cases ho
      exact ⟨write, rfl⟩

/-- A call that has returned does nothing more, whatever the events about it. -/
theorem CallStep.of_returned {write : ScopeWrite} {answer : Except ResourceError Unit}
    {c' : Option Call} (h : CallStep id e o (some (.returned write answer)) c') :
    c' = some (.returned write answer) := by
  cases h with
  | other hpoints hreturned => rfl
  | went hnothing hactive hactive' hwrite => cases hactive
  | ended hactive hpoints hreturned => cases hactive

end Trace

/-- The past of a run accounts for every call, the ones that have returned included. -/
structure CallsTraced (past : List (ScopeEvent × Observation)) (w : Sessions) : Prop where
  inv : w.Inv
  traced : ∀ id, Traced id past (w.calls id)
  returned : ∀ entry ∈ past, ∀ id answer, entry.2.returned = some (id, answer) →
    ∃ write, w.calls id = some (.returned write answer)

theorem CallsTraced.step (past : List (ScopeEvent × Observation)) (w : Sessions) (e : ScopeEvent)
    (h : CallsTraced past w) : CallsTraced (past ++ [(e, (w.step e).1)]) (w.step e).2 := by
  have hstep := Sessions.callStep h.inv e
  constructor
  · exact h.inv.step w e
  · intro id
    exact (h.traced id).concat (hstep id)
  · intro entry hentry id answer hanswer
    rcases List.mem_append.mp hentry with hold | hnew
    · obtain ⟨write, hreturned⟩ := h.returned entry hold id answer hanswer
      have hstay := hstep id
      rw [hreturned] at hstay
      exact ⟨write, hstay.of_returned⟩
    · rw [List.mem_singleton.mp hnew] at hanswer
      exact (hstep id).eq_returned hanswer

/-- Every call that returned in a run has its place in it. -/
theorem placed_of_returned (db : Database) (events : List ScopeEvent) {id : Nat}
    {answer : Except ResourceError Unit} {entry : ScopeEvent × Observation}
    (hentry : entry ∈ Machine.history Sessions.step (Sessions.initial db) events)
    (hanswer : entry.2.returned = some (id, answer)) :
    ∃ write, Placed id write answer (Machine.history Sessions.step (Sessions.initial db) events) := by
  have hstart : CallsTraced [] (Sessions.initial db) :=
    ⟨Sessions.inv_initial db, fun _ => rfl, by simp⟩
  have hrun := Machine.past_invariant CallsTraced.step hstart events
  obtain ⟨write, hreturned⟩ := hrun.returned entry hentry id answer hanswer
  have htraced := hrun.traced id
  rw [hreturned] at htraced
  exact ⟨write, htraced⟩

/-- The run of concurrent calls is a sequential run of the memory store, in which each
call has the place of its point. -/
structure Linearized (store : InnerStore) (past : List (ScopeEvent × Observation))
    (w : Sessions) : Prop where
  /-- Every point has the answer of the atomic operation. -/
  answers : Machine.history MemoryResourceStore.scopeStep store
    ((pointsOf past).map Point.write) = (pointsOf past).map Point.entry
  /-- The committed rows are those of the atomic operations. -/
  effect : MemoryResourceStore.policy (Machine.after MemoryResourceStore.scopeStep store
    ((pointsOf past).map Point.write)) = PostgresResourceStore.policy w.db
  placed : ∀ entry ∈ past, ∀ (id : Nat) (answer : Except ResourceError Unit),
    entry.2.returned = some (id, answer) → ∃ write, Placed id write answer past
  /-- A call that returns an error has no part in the committed rows. -/
  failed : (∀ entry ∈ past, ∀ (id : Nat) (e : ResourceError),
      entry.2.returned = some (id, .error e) →
      ∀ q ∈ pointsOf past, q.call = id → q.answer = .error e) ∧
    MemoryResourceStore.policy (Machine.after MemoryResourceStore.scopeStep store
      (((pointsOf past).filter fun q => q.answer.toBool).map Point.write)) =
      PostgresResourceStore.policy w.db
  /-- Of two batches that share a scope both succeed only if it is removed between. -/
  exclusive : ∀ (l₁ : List Point) (a : Point) (l₂ : List Point) (b : Point) (l₃ : List Point)
    (ms ms' : List ScopeMapping) (m m' : ScopeMapping),
    pointsOf past = l₁ ++ a :: (l₂ ++ b :: l₃) →
    a.write = .save ms → a.answer = .ok () → b.write = .save ms' → b.answer = .ok () →
    m ∈ ms → m' ∈ ms' → m.scope = m'.scope → ∃ q ∈ l₂, q.write = .change (.remove m.scope)
  /-- A batch that succeeded is in force as a whole, up to later changes of its rows. -/
  whole : ∀ (l₁ : List Point) (a : Point) (l₂ : List Point) (ms : List ScopeMapping)
    (m : ScopeMapping), pointsOf past = l₁ ++ a :: l₂ →
    a.write = .save ms → a.answer = .ok () → m ∈ ms →
    (∀ q ∈ l₂, ∀ change : RowChange, q.write = .change change → change.scope ≠ m.scope) →
    (PostgresResourceStore.policy w.db).scope m.scope = some m

/-- The points of a call that returned: one if its answer is an outcome, none if it is a
failure. -/
theorem Placed.pointsFor_eq {id : Nat} {write : ScopeWrite} {answer : Except ResourceError Unit}
    {past : List (ScopeEvent × Observation)} (h : Placed id write answer past) :
    pointsFor id past = decidedPoints id write answer := by
  obtain ⟨before, during, rest, rfl, hbefore, hduring, hrest⟩ := h
  rw [List.append_assoc, List.cons_append, pointsFor_append, pointsFor_cons, pointsFor_append,
    pointsFor_cons, hbefore, hduring, hrest]
  simp [Observation.nothing]

/-- A point of a call that returned has the answer that it returned with. -/
theorem Placed.answer_of_mem {id : Nat} {write : ScopeWrite} {answer : Except ResourceError Unit}
    {past : List (ScopeEvent × Observation)} (h : Placed id write answer past) {q : Point}
    (hq : q ∈ pointsOf past) (hid : q.call = id) : q.answer = answer := by
  have hmem : q ∈ pointsFor id past := List.mem_filter.mpr ⟨hq, beq_iff_eq.mpr hid⟩
  rw [h.pointsFor_eq, decidedPoints] at hmem
  split at hmem
  · rw [List.mem_singleton.mp hmem]
  · cases hmem

/-- **Linearizability.**  Take any number of concurrent calls that save batches of
scope mappings, update one or remove one, with any interleaving of their statements,
commits and failures.  The outcomes are, in the order in which they are decided, the
answers of the memory store to the same operations, and the committed rows are the
ones it then holds.  Every call that returns `Ok`, `Conflict` or `NotFound` is
decided exactly once, between its start and its end, with the answer it returns; one
that returns a database error is not decided at all.  Calls that return an error
leave no row, two batches that share a scope do not both succeed unless it is
removed between, and a batch that succeeds is there as a whole. -/
theorem scope_writes_linearizable (db : Database) (store : InnerStore)
    (hstore : MemoryResourceStore.policy store = PostgresResourceStore.policy db)
    (events : List ScopeEvent) :
    Linearized store (Machine.history Sessions.step (Sessions.initial db) events)
      (Machine.after Sessions.step (Sessions.initial db) events) := by
  have hplaced := fun entry hentry id answer hanswer =>
    @placed_of_returned db events id answer entry hentry hanswer
  obtain ⟨hanswers, hstate⟩ := Sessions.points_replay db events
  generalize Machine.history Sessions.step (Sessions.initial db) events = past at *
  generalize Machine.after Sessions.step (Sessions.initial db) events = w at *
  have hwrites : ∀ l : List Point, (l.map Point.entry).map Prod.fst = l.map Point.write := by
    intro l
    rw [List.map_map]
    rfl
  constructor
  · rw [(memory_replay hstore _).1, ← hwrites, hanswers]
  · rw [(memory_replay hstore _).2, ← hwrites, hstate]
  · exact hplaced
  · constructor
    · intro entry hentry id e herror q hq hid
      obtain ⟨write, hplace⟩ := hplaced entry hentry id (.error e) herror
      exact hplace.answer_of_mem hq hid
    · have hfilter : ((pointsOf past).filter fun q => q.answer.toBool).map Point.entry =
          ((pointsOf past).map Point.entry).filter fun e => e.2.toBool := by
        rw [List.filter_map]
        rfl
      rw [(memory_replay hstore _).2, ← hwrites, hfilter, after_succeeded hanswers, hstate]
  · intro l₁ a l₂ b l₃ ms ms' m m' hsplit ha haok hb hbok hm hm' hscope
    have hentries : (pointsOf past).map Point.entry = l₁.map Point.entry ++
        (.save ms, .ok ()) :: (l₂.map Point.entry ++ (.save ms', .ok ()) :: l₃.map Point.entry) := by
      rw [hsplit, List.map_append, List.map_cons, List.map_append, List.map_cons, Point.entry,
        Point.entry, ha, haok, hb, hbok]
    rw [hentries] at hanswers
    have hremoved := removed_between hanswers hm hm' hscope
    rw [hwrites] at hremoved
    exact List.mem_map.mp hremoved
  · intro l₁ a l₂ ms m hsplit ha haok hm hunchanged
    have hentries : (pointsOf past).map Point.entry =
        l₁.map Point.entry ++ (.save ms, .ok ()) :: l₂.map Point.entry := by
      rw [hsplit, List.map_append, List.map_cons, Point.entry, ha, haok]
    rw [hentries] at hanswers hstate
    rw [← hstate]
    apply in_force_after hanswers hm
    intro change hchange
    rw [hwrites] at hchange
    obtain ⟨q, hq, hwrite⟩ := List.mem_map.mp hchange
    exact hunchanged q hq change hwrite

/-- A scope that stands for nothing, for a sample run. -/
def bareScope (scope : String) : ScopeMapping := { scope, claims := ∅ }

/-- Two batches share `write`; the second inserts `audit` first and then waits for
the first, while a removal of `write` finds no row. -/
def contendedEvents : List ScopeEvent :=
  [.invoke 0 (.save [bareScope "read", bareScope "write"]),
   .invoke 1 (.save [bareScope "audit", bareScope "write"]),
   .statement 0, .statement 1, .statement 0, .statement 1,
   .invoke 2 (.change (.remove "write")), .statement 2,
   .commit 0, .respond 1, .respond 0, .respond 2]

/-- In the sample run the second batch fails when the first one commits, and the removal
counts as made before both. -/
theorem scope_writes_linearizable_contended :
    (Machine.history Sessions.step (Sessions.initial PostgresResourceStore.initialized)
        contendedEvents).filterMap (fun e => e.2.returned) =
      [(1, .error (.conflict "write")), (0, .ok ()), (2, .ok ())] ∧
    Linearized MemoryResourceStore.new
      (Machine.history Sessions.step (Sessions.initial PostgresResourceStore.initialized)
        contendedEvents)
      (Machine.after Sessions.step (Sessions.initial PostgresResourceStore.initialized)
        contendedEvents) := by
  have hempty : MemoryResourceStore.policy MemoryResourceStore.new =
      PostgresResourceStore.policy PostgresResourceStore.initialized :=
    MemoryResourceStore.memoryPolicyStore.policy_empty.trans
      PostgresResourceStore.postgresPolicyStore.policy_empty.symm
  refine ⟨by decide +kernel, ?_⟩
  exact scope_writes_linearizable PostgresResourceStore.initialized MemoryResourceStore.new
    hempty contendedEvents

end Jwtlet

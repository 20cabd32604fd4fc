import Jwtlet.MachineRuns

/-!
# Requests that touch the shared state once

A request is handled in three phases: a preparation that reads nothing shared and
may already refuse, one atomic access to the shared state, and a completion that
makes the answer of what was read.  Served one after another the requests are a
machine over the shared state (`Handling.serve`).  Here any number of requests is
in progress and the phases interleave in any way.

The concurrent machine notes when a request begins, when it is decided, and when it
is answered.  `decisions_replay` - the decisions, in their order, are the run of the
sequential machine.  `notesFor_eq` - the notes of one request are at every time a
beginning of began, decided, answered.  `decided_before` puts both together: the
order of decisions respects the order of requests that do not overlap.
-/

namespace SingleAccess

variable {S I P D O : Type}

/-- The three phases of a request: a preparation that may refuse it, one access to the
shared state, and the completion of the answer. -/
structure Handling (S I P D O : Type) where
  prepare : I → Except O P
  access : S → P → D × S
  finish : I → D → O

/-- Serve one request without interruption.  This is the step of the sequential machine
that concurrent runs are compared with. -/
def Handling.serve (H : Handling S I P D O) (s : S) (i : I) : O × S :=
  match H.prepare i with
  | .error o => (o, s)
  | .ok p => (H.finish i (H.access s p).1, (H.access s p).2)

/-- How far a request has come.  A refused request waits to be answered just as one does
that has made its access. -/
inductive Stage (I P D O : Type) where
  | idle
  | arrived (i : I)
  | refused (i : I) (o : O)
  | prepared (i : I) (p : P)
  | accessed (i : I) (d : D)
  | answered (i : I) (o : O)

/-- The shared state with the stages of all requests, of which there may be any number.  A
request that has not arrived is idle. -/
structure Tasks (S I P D O : Type) where
  shared : S
  stage : Nat → Stage I P D O

/-- At the start no request has arrived, and the shared state is whatever it is. -/
def Tasks.initial (s : S) : Tasks S I P D O := { shared := s, stage := fun _ => .idle }

/-- Move one request to another stage.  The shared state and the other requests stay as
they are. -/
def Tasks.set (w : Tasks S I P D O) (id : Nat) (stage : Stage I P D O) : Tasks S I P D O :=
  { w with stage := Function.update w.stage id stage }

@[simp] theorem Tasks.set_stage_self (w : Tasks S I P D O) (id : Nat) (stage : Stage I P D O) :
    (w.set id stage).stage id = stage := by
  simp [Tasks.set]

/-- The other requests stay where they are when one request is moved. -/
theorem Tasks.set_stage_of_ne (w : Tasks S I P D O) {id id' : Nat} (h : id ≠ id')
    (stage : Stage I P D O) : (w.set id' stage).stage id = w.stage id := by
  simp [Tasks.set, h]

/-- A request arrives under a new number, or the request with a number goes on by one
phase.  The numbers only tell the requests apart. -/
inductive Event (I : Type) where
  | arrive (id : Nat) (i : I)
  | advance (id : Nat)

/-- A request with the answer that is decided for it.  For a refused request it is the
refusal. -/
structure Decision (I O : Type) where
  id : Nat
  input : I
  answer : O

/-- What an observer notes of an event: that a request began, that its answer was decided,
that it was answered, or nothing. -/
inductive Note (I O : Type) where
  | silent
  | began (id : Nat) (i : I)
  | decided (q : Decision I O)
  | answered (id : Nat) (o : O)

/-- The request that a note is about, if it says anything.  The notes of one request tell
its life, from its beginning to its answer. -/
def Note.about : Note I O → Option Nat
  | .silent => none
  | .began id _ | .answered id _ => some id
  | .decided q => some q.id

namespace Handling

variable (H : Handling S I P D O)

/-- Let a request go on by one phase.  A refusal and the access to the shared state are
the moments at which its answer is decided. -/
def advance (w : Tasks S I P D O) (id : Nat) : Note I O × Tasks S I P D O :=
  match w.stage id with
  | .idle | .answered _ _ => (.silent, w)
  | .arrived i =>
      match H.prepare i with
      | .error o => (.decided { id, input := i, answer := o }, w.set id (.refused i o))
      | .ok p => (.silent, w.set id (.prepared i p))
  | .prepared i p =>
      let (d, s) := H.access w.shared p
      (.decided { id, input := i, answer := H.finish i d },
        { w.set id (.accessed i d) with shared := s })
  | .accessed i d => (.answered id (H.finish i d), w.set id (.answered i (H.finish i d)))
  | .refused i o => (.answered id o, w.set id (.answered i o))

/-- One event of the concurrent machine.  A number that is taken already is not given to a
second request. -/
def step (w : Tasks S I P D O) : Event I → Note I O × Tasks S I P D O
  | .arrive id i =>
      match w.stage id with
      | .idle => (.began id i, w.set id (.arrived i))
      | _ => (.silent, w)
  | .advance id => H.advance w id

end Handling

/-- The history of a concurrent run: its events, each with its note, the earliest first.
-/
abbrev Past (I O : Type) := List (Event I × Note I O)

/-- The decisions of a history, in the order in which they were made.  This is the
sequential order that the requests are shown to have. -/
def decisionsOf (past : Past I O) : List (Decision I O) :=
  past.filterMap fun e =>
    match e.2 with
    | .decided q => some q
    | _ => none

/-- What the notes of a history say of one request, in their order and without those of
the others. -/
def notesFor (id : Nat) (past : Past I O) : List (Note I O) :=
  (past.map Prod.snd).filter fun note => note.about = some id

/-- What has been noted of a request that has come to a stage.  `notesFor_eq` shows that
it is just this. -/
def Handling.notesAt (H : Handling S I P D O) (id : Nat) : Stage I P D O → List (Note I O)
  | .idle => []
  | .arrived i | .prepared i _ => [.began id i]
  | .refused i o => [.began id i, .decided { id, input := i, answer := o }]
  | .accessed i d => [.began id i, .decided { id, input := i, answer := H.finish i d }]
  | .answered i o => [.began id i, .decided { id, input := i, answer := o }, .answered id o]

section Runs

variable {H : Handling S I P D O}

/-- What an event can do, one case for each phase that a request goes through.  The
invariants are shown from these cases and not from `step`. -/
inductive Does (H : Handling S I P D O) (w : Tasks S I P D O) :
    Event I → Note I O → Tasks S I P D O → Prop
  | stay (e : Event I) : Does H w e .silent w
  | arrive {id : Nat} (i : I) (hs : w.stage id = .idle) :
      Does H w (.arrive id i) (.began id i) (w.set id (.arrived i))
  | prepare {id : Nat} {i : I} {p : P} (hs : w.stage id = .arrived i) (hp : H.prepare i = .ok p) :
      Does H w (.advance id) .silent (w.set id (.prepared i p))
  | refuse {id : Nat} {i : I} {o : O} (hs : w.stage id = .arrived i)
      (hp : H.prepare i = .error o) :
      Does H w (.advance id) (.decided { id, input := i, answer := o }) (w.set id (.refused i o))
  | access {id : Nat} {i : I} {p : P} (hs : w.stage id = .prepared i p) :
      Does H w (.advance id)
        (.decided { id, input := i, answer := H.finish i (H.access w.shared p).1 })
        { w.set id (.accessed i (H.access w.shared p).1) with shared := (H.access w.shared p).2 }
  | finish {id : Nat} {i : I} {d : D} (hs : w.stage id = .accessed i d) :
      Does H w (.advance id) (.answered id (H.finish i d)) (w.set id (.answered i (H.finish i d)))
  | reply {id : Nat} {i : I} {o : O} (hs : w.stage id = .refused i o) :
      Does H w (.advance id) (.answered id o) (w.set id (.answered i o))

/-- Every event does what one of the cases says, so that no proof about runs has to unfold
the step again. -/
theorem step_does (H : Handling S I P D O) (w : Tasks S I P D O) (e : Event I) :
    Does H w e (H.step w e).1 (H.step w e).2 := by
  cases e with
  | arrive id i =>
      cases hs : w.stage id with
      | idle =>
          rw [Handling.step, hs]
          exact .arrive i hs
      | _ =>
          rw [Handling.step, hs]
          exact .stay _
  | advance id =>
      rw [Handling.step, Handling.advance]
      cases hs : w.stage id with
      | idle => exact .stay _
      | answered i o => exact .stay _
      | arrived i =>
          cases hp : H.prepare i with
          | error o => simpa only [hp] using .refuse hs hp
          | ok p => simpa only [hp] using .prepare hs hp
      | prepared i p => exact .access hs
      | accessed i d => exact .finish hs
      | refused i o => exact .reply hs

/-- A request goes along with what is noted of it: when `id'` moves to a stage, the
notes of every request are those of its stage before and after. -/
private theorem notesAt_set {w : Tasks S I P D O} {e : Event I} {note : Note I O} {id' : Nat}
    {stage : Stage I P D O} (habout : ∀ id, note.about = some id → id = id')
    (hown : H.notesAt id' stage = H.notesAt id' (w.stage id') ++ notesFor id' [(e, note)])
    (id : Nat) :
    H.notesAt id ((w.set id' stage).stage id) =
      H.notesAt id (w.stage id) ++ notesFor id [(e, note)] := by
  by_cases hid : id = id'
  · subst hid
    rw [Tasks.set_stage_self, hown]
  · have hnone : notesFor id [(e, note)] = [] := by
      rw [notesFor, List.filter_eq_nil_iff]
      intro n hn hsome
      cases List.mem_singleton.mp hn
      exact hid (habout id (by simpa using hsome))
    rw [w.set_stage_of_ne hid, hnone, List.append_nil]

/-- An event notes of every request what its stage has more afterwards, and of the others
nothing. -/
theorem notesAt_step (w : Tasks S I P D O) (e : Event I) (id : Nat) :
    H.notesAt id ((H.step w e).2.stage id) =
      H.notesAt id (w.stage id) ++ notesFor id [(e, (H.step w e).1)] := by
  have hdoes := step_does H w e
  generalize H.step w e = next at hdoes
  obtain ⟨note, w'⟩ := next
  cases hdoes with
  | stay => exact (List.append_nil _).symm
  | arrive i hs =>
      refine notesAt_set (by simp [Note.about]) ?_ id
      simp [hs, Handling.notesAt, notesFor, Note.about]
  | prepare hs hp =>
      refine notesAt_set (by simp [Note.about]) ?_ id
      simp [hs, Handling.notesAt, notesFor, Note.about]
  | refuse hs hp =>
      refine notesAt_set (by simp [Note.about]) ?_ id
      simp [hs, Handling.notesAt, notesFor, Note.about]
  | access hs =>
      refine notesAt_set (by simp [Note.about]) ?_ id
      simp [hs, Handling.notesAt, notesFor, Note.about]
  | finish hs =>
      refine notesAt_set (by simp [Note.about]) ?_ id
      simp [hs, Handling.notesAt, notesFor, Note.about]
  | reply hs =>
      refine notesAt_set (by simp [Note.about]) ?_ id
      simp [hs, Handling.notesAt, notesFor, Note.about]

/-- What is prepared came out of the preparation of its own input.  This is the invariant
that a completed access rests on. -/
def Prepared (H : Handling S I P D O) (w : Tasks S I P D O) : Prop :=
  ∀ id i p, w.stage id = .prepared i p → H.prepare i = .ok p

/-- Every event keeps it, since only the preparation brings a request to that stage. -/
theorem prepared_step {w : Tasks S I P D O} (h : Prepared H w) (e : Event I) :
    Prepared H (H.step w e).2 := by
  have hset : ∀ {id' : Nat} {stage : Stage I P D O} {s : S},
      (∀ i p, stage = .prepared i p → H.prepare i = .ok p) →
      Prepared H { w.set id' stage with shared := s } := by
    intro id' stage s hstage id i p hs
    simp only [Tasks.set, Function.update_apply] at hs
    split at hs
    · exact hstage i p hs
    · exact h id i p hs
  have hdoes := step_does H w e
  generalize H.step w e = next at hdoes
  obtain ⟨note, w'⟩ := next
  cases hdoes with
  | stay => exact h
  | prepare hs hp =>
      refine hset (s := w.shared) fun i p heq => ?_
      cases heq
      exact hp
  | arrive i hs => exact hset (s := w.shared) (by simp)
  | refuse hs hp => exact hset (s := w.shared) (by simp)
  | access hs => exact hset (by simp)
  | finish hs => exact hset (s := w.shared) (by simp)
  | reply hs => exact hset (s := w.shared) (by simp)

/-- The decision of an event with its input, if the event makes one.  It makes one at
most. -/
def decisionsAt (note : Note I O) : List (I × O) :=
  match note with
  | .decided q => [(q.input, q.answer)]
  | _ => []

/-- The sequential machine serves what an event decides, and so keeps up with the
shared state. -/
theorem serve_decisions {w : Tasks S I P D O} (h : Prepared H w) (e : Event I) :
    Machine.history H.serve w.shared ((decisionsAt (H.step w e).1).map Prod.fst) =
        decisionsAt (H.step w e).1 ∧
      Machine.after H.serve w.shared ((decisionsAt (H.step w e).1).map Prod.fst) =
        (H.step w e).2.shared := by
  have hdoes := step_does H w e
  generalize H.step w e = next at hdoes
  obtain ⟨note, w'⟩ := next
  cases hdoes with
  | refuse hs hp => simp [decisionsAt, Handling.serve, hp]
  | access hs => simp [decisionsAt, Handling.serve, h _ _ _ hs]
  | stay => exact ⟨rfl, rfl⟩
  | arrive i hs => exact ⟨rfl, rfl⟩
  | prepare hs hp => exact ⟨rfl, rfl⟩
  | finish hs => exact ⟨rfl, rfl⟩
  | reply hs => exact ⟨rfl, rfl⟩

variable (H)

/-- **The decisions are a sequential run.**  Served one after another in the order
in which they are decided, the requests get the answers that are decided for them,
and leave the shared state as it is. -/
theorem decisions_replay (s : S) (events : List (Event I)) :
    Machine.history H.serve s
        ((decisionsOf (Machine.history H.step (Tasks.initial s) events)).map Decision.input) =
      (decisionsOf (Machine.history H.step (Tasks.initial s) events)).map
        (fun q => (q.input, q.answer)) ∧
    Machine.after H.serve s
        ((decisionsOf (Machine.history H.step (Tasks.initial s) events)).map Decision.input) =
      (Machine.after H.step (Tasks.initial s) events).shared := by
  have hflat : ∀ past : Past I O, past.flatMap (fun e => decisionsAt e.2) =
      (decisionsOf past).map fun q => (q.input, q.answer) := by
    intro past
    induction past with
    | nil => rfl
    | cons e past ih =>
        obtain ⟨e, note⟩ := e
        cases note <;> simp_all [decisionsOf, decisionsAt]
  have hstep : ∀ (a : S) (w : Tasks S I P D O) (e : Event I), (a = w.shared ∧ Prepared H w) →
      Machine.history H.serve a ((decisionsAt (H.step w e).1).map Prod.fst) =
          decisionsAt (H.step w e).1 ∧
        Machine.after H.serve a ((decisionsAt (H.step w e).1).map Prod.fst) =
          (H.step w e).2.shared ∧ Prepared H (H.step w e).2 := by
    intro a w e hw
    obtain ⟨rfl, hprepared⟩ := hw
    obtain ⟨hanswers, hnext⟩ := serve_decisions hprepared e
    exact ⟨hanswers, hnext, prepared_step hprepared e⟩
  have hinitial : Prepared H (Tasks.initial s) := by
    intro id i p hs
    cases hs
  have hrun := Machine.linearization hstep ⟨rfl, hinitial⟩ events
  rw [hflat, List.map_map] at hrun
  exact ⟨hrun.1, hrun.2.1⟩

/-- What is noted of a request in a run is what the stage that it has come to stands for.
-/
theorem notesFor_eq (s : S) (events : List (Event I)) (id : Nat) :
    notesFor id (Machine.history H.step (Tasks.initial s) events) =
      H.notesAt id ((Machine.after H.step (Tasks.initial s) events).stage id) := by
  have hstep : ∀ (past : Past I O) (w : Tasks S I P D O) (e : Event I),
      notesFor id past = H.notesAt id (w.stage id) →
      notesFor id (past ++ [(e, (H.step w e).1)]) = H.notesAt id ((H.step w e).2.stage id) := by
    intro past w e h
    rw [notesAt_step, ← h, notesFor, List.map_append, List.filter_append]
    rfl
  exact @Machine.past_invariant _ _ _ H.step
    (fun past w => notesFor id past = H.notesAt id (w.stage id)) hstep (Tasks.initial s) rfl events

/-- A request begins with its first note, so nothing is noted of it before. -/
theorem nil_of_began {id : Nat} {i : I} {stage : Stage I P D O} {l r : List (Note I O)}
    (h : H.notesAt id stage = l ++ r) (hr : .began id i ∈ r) : l = [] := by
  cases l with
  | nil => rfl
  | cons first l =>
      have hmem : .began id i ∈ (H.notesAt id stage).tail := by
        rw [h, List.cons_append, List.tail_cons]
        exact List.mem_append_right l hr
      cases stage <;> simp [Handling.notesAt] at hmem

variable {H} {s : S} {events : List (Event I)}

/-- The notes of a request are the notes of the history that are about it, and nothing is
lost or added by looking at them alone. -/
theorem mem_notesFor {id : Nat} {past : Past I O} {note : Note I O} :
    note ∈ notesFor id past ↔ note ∈ past.map Prod.snd ∧ note.about = some id := by
  simp [notesFor]

/-- The decisions of a history are those that its notes have, each of them once for every
time it is noted. -/
theorem mem_decisionsOf {past : Past I O} {q : Decision I O} :
    q ∈ decisionsOf past ↔ .decided q ∈ past.map Prod.snd := by
  rw [decisionsOf, List.mem_filterMap, List.mem_map]
  constructor
  · intro h
    obtain ⟨⟨e, note⟩, he, hq⟩ := h
    refine ⟨(e, note), he, ?_⟩
    cases note with
    | decided q' => exact congrArg _ (Option.some.inj hq)
    | _ => cases hq
  · intro h
    obtain ⟨⟨e, note⟩, he, rfl⟩ := h
    exact ⟨(e, .decided q), he, rfl⟩

/-- An answered request began once, was then decided once, with its answer, and was
then answered. -/
theorem notesFor_of_answered {id : Nat} {o : O}
    (h : .answered id o ∈ (Machine.history H.step (Tasks.initial s) events).map Prod.snd) :
    ∃ i, notesFor id (Machine.history H.step (Tasks.initial s) events) =
      [.began id i, .decided { id, input := i, answer := o }, .answered id o] := by
  have hmem : .answered id o ∈ notesFor id (Machine.history H.step (Tasks.initial s) events) :=
    mem_notesFor.mpr ⟨h, rfl⟩
  rw [notesFor_eq] at hmem ⊢
  cases hstage : (Machine.after H.step (Tasks.initial s) events).stage id with
  | answered i o' =>
      rw [hstage] at hmem
      simp only [Handling.notesAt, List.mem_cons, reduceCtorEq, Note.answered.injEq, true_and,
        List.not_mem_nil, or_false, false_or] at hmem
      subst hmem
      exact ⟨i, rfl⟩
  | _ => simp [hstage, Handling.notesAt] at hmem

/-- An answered request was decided on what it began with, and it was decided to be
answered so. -/
theorem decision_of_answered {id : Nat} {i : I} {o : O}
    (hbegan : .began id i ∈ (Machine.history H.step (Tasks.initial s) events).map Prod.snd)
    (hanswered : .answered id o ∈
      (Machine.history H.step (Tasks.initial s) events).map Prod.snd) :
    { id, input := i, answer := o } ∈
      decisionsOf (Machine.history H.step (Tasks.initial s) events) := by
  obtain ⟨i', hnotes⟩ := notesFor_of_answered hanswered
  have hbegan' := mem_notesFor.mpr ⟨hbegan, rfl⟩
  rw [hnotes] at hbegan'
  simp only [List.mem_cons, reduceCtorEq, Note.began.injEq, true_and, List.not_mem_nil, or_false]
    at hbegan'
  subst hbegan'
  have hmem : Note.decided { id, input := i, answer := o } ∈
      notesFor id (Machine.history H.step (Tasks.initial s) events) := by
    rw [hnotes]
    simp
  exact mem_decisionsOf.mpr (mem_notesFor.mp hmem).1

/-- The decisions of two parts of a history are those of the first, followed by those of
the second. -/
theorem decisionsOf_append (past later : Past I O) :
    decisionsOf (past ++ later) = decisionsOf past ++ decisionsOf later :=
  List.filterMap_append

section Order

variable {before later : Past I O}
  (hpast : Machine.history H.step (Tasks.initial s) events = before ++ later)

include hpast

/-- A request is not decided before it begins, so its decision is not in a part of the
history that comes before that. -/
theorem not_decided_before {id : Nat} {i : I} (hbegan : .began id i ∈ later.map Prod.snd) :
    ∀ q ∈ decisionsOf before, q.id ≠ id := by
  intro q hq hid
  have hsplit := notesFor_eq H s events id
  rw [hpast, notesFor, List.map_append, List.filter_append] at hsplit
  have hnone := nil_of_began H hsplit.symm (mem_notesFor.mpr ⟨hbegan, rfl⟩)
  have hmem : Note.decided q ∈ notesFor id before :=
    mem_notesFor.mpr ⟨mem_decisionsOf.mp hq, congrArg some hid⟩
  rw [notesFor, hnone] at hmem
  cases hmem

/-- A request that begins and is answered in the first part of a history is decided
in it. -/
theorem decided_in_first {id : Nat} {i : I} {o : O} (hbegan : .began id i ∈ before.map Prod.snd)
    (hanswered : .answered id o ∈ before.map Prod.snd) :
    { id, input := i, answer := o } ∈ decisionsOf before := by
  have hbefore := Machine.history_of_append hpast
  rw [hbefore] at hbegan hanswered ⊢
  exact decision_of_answered hbegan hanswered

/-- A request that begins and is answered in the second part of a history is decided
in it. -/
theorem decided_in_second {id : Nat} {i : I} {o : O} (hbegan : .began id i ∈ later.map Prod.snd)
    (hanswered : .answered id o ∈ later.map Prod.snd) :
    { id, input := i, answer := o } ∈ decisionsOf later := by
  have hwhole : ∀ note ∈ later.map Prod.snd,
      note ∈ (Machine.history H.step (Tasks.initial s) events).map Prod.snd := by
    intro note hnote
    rw [hpast, List.map_append]
    exact List.mem_append_right _ hnote
  have hdecision := decision_of_answered (hwhole _ hbegan) (hwhole _ hanswered)
  rw [hpast, decisionsOf_append] at hdecision
  rcases List.mem_append.mp hdecision with hbefore | hlater
  · exact absurd rfl (not_decided_before hpast hbegan _ hbefore)
  · exact hlater

/-- **Order.**  When one request is answered before another one begins, the first
is decided in the first part of the history and the second is not. -/
theorem decided_before {id id' : Nat} {o : O} {i' : I}
    (hanswered : .answered id o ∈ before.map Prod.snd)
    (hbegan : .began id' i' ∈ later.map Prod.snd) :
    (∃ i, { id, input := i, answer := o } ∈ decisionsOf before) ∧
      ∀ q ∈ decisionsOf before, q.id ≠ id' := by
  refine ⟨?_, not_decided_before hpast hbegan⟩
  have hbefore := Machine.history_of_append hpast
  have hnotes := hanswered
  rw [hbefore] at hnotes
  obtain ⟨i, hi⟩ := notesFor_of_answered hnotes
  have hbegan' : .began id i ∈ before.map Prod.snd := by
    rw [← hbefore] at hi
    exact (mem_notesFor.mp (hi ▸ List.mem_cons_self)).1
  exact ⟨i, decided_in_first hpast hbegan' hanswered⟩

end Order

end Runs

end SingleAccess

import Jwtlet.ClusterServer

/-!
# The life of the server process

`run_server` of `jwtlet-server/src/server/mod.rs`: two tasks, one for each port, and a
supervisor that waits for `wait_for_shutdown` or for the end of a task, cancels the other
task and joins what is left.  A task binds its listener and then serves until it is
cancelled; either may fail.  `wait_for_shutdown` returns for a signal, and also, after a
line in the log, when `ctrl_c` cannot listen for one.

The steps of the tasks, of the supervisor and of the operating system interleave in any
order.  A step whose turn it is not does nothing.
-/

namespace Jwtlet

open Machine

/-- How a task has ended: with its result, or with a panic, which the runtime turns into
an error of the join. -/
inductive TaskEnd where
  | completed
  | failed (e : String)
  | panicked (e : String)
  deriving DecidableEq

/-- Where a task is.  It has ended on its own before the supervisor joins it, and the
result waits there for that. -/
inductive TaskPhase where
  | starting
  | serving
  | ended (result : TaskEnd)
  | joined (result : TaskEnd)
  deriving DecidableEq

def TaskPhase.isJoined : TaskPhase → Bool
  | .joined _ => true
  | _ => false

/-- Where `run_server` is: in `select!`, in the loop after it, or back at its caller. -/
inductive SupervisorPhase where
  | selecting
  | draining
  | returned
  deriving DecidableEq

/-- The tasks and the supervisor.  `handled` are the results that `handle_task_result` was
called with, in the order of the calls. -/
structure ProcessState where
  task : Port → TaskPhase
  signalled : Bool
  /-- `ctrl_c` returned an error. -/
  listenFailed : Bool
  cancelled : Bool
  supervisor : SupervisorPhase
  handled : List (Port × TaskEnd)

/-- Who moves next: the operating system, a task, or the supervisor. -/
inductive ProcessStep where
  /-- The operating system sends a signal. -/
  | signal
  /-- Listening for a signal fails. -/
  | listenError
  /-- `TcpListener::bind` returns. -/
  | bind (port : Port) (result : Except String Unit)
  /-- `axum::serve` returns, or the task panics. -/
  | stop (port : Port) (result : TaskEnd)
  /-- `select!` sees that `wait_for_shutdown` has returned. -/
  | shutdown
  /-- `join_next` returns the result of a task. -/
  | join (port : Port)
  /-- `join_next` finds no task left. -/
  | finish

/-- Both tasks are spawned, neither has bound its listener, and the supervisor is in
`select!`. -/
def ProcessState.initial : ProcessState where
  task := fun _ => .starting
  signalled := false
  listenFailed := false
  cancelled := false
  supervisor := .selecting
  handled := []

namespace ProcessState

/-- A task enters a phase, and the rest stays as it is. -/
def setTask (s : ProcessState) (port : Port) (phase : TaskPhase) : ProcessState :=
  { s with task := Function.update s.task port phase }

/-- `wait_for_shutdown` returns, for the one reason or the other. -/
def roused (s : ProcessState) : Bool := s.signalled || s.listenFailed

/-- One step.  Serving ends well only after the cancellation, since a task serves until
its token is cancelled; a step whose turn it is not changes nothing. -/
def step (s : ProcessState) : ProcessStep → Unit × ProcessState
  | .signal => ((), { s with signalled := true })
  | .listenError => ((), { s with listenFailed := true })
  | .bind port result =>
      match s.task port, result with
      | .starting, .ok () => ((), s.setTask port .serving)
      | .starting, .error e => ((), s.setTask port (.ended (.failed e)))
      | _, _ => ((), s)
  | .stop port result =>
      if s.task port = .serving ∧ (result = .completed → s.cancelled = true) then
        ((), s.setTask port (.ended result))
      else ((), s)
  | .shutdown =>
      if s.supervisor = .selecting ∧ s.roused = true then
        ((), { s with supervisor := .draining, cancelled := true })
      else ((), s)
  | .join port =>
      match s.task port with
      | .ended result =>
          if s.supervisor = .returned then ((), s)
          else
            ((), { s.setTask port (.joined result) with
              supervisor := .draining
              cancelled := true
              handled := s.handled ++ [(port, result)] })
      | _ => ((), s)
  | .finish =>
      if s.supervisor = .draining ∧ (s.task .exchange).isJoined ∧ (s.task .management).isJoined then
        ((), { s with supervisor := .returned })
      else ((), s)

variable {s : ProcessState}

@[simp] theorem setTask_task_self (port : Port) (phase : TaskPhase) :
    (s.setTask port phase).task port = phase := Function.update_self _ _ _

theorem setTask_task_of_ne {port port' : Port} (h : port' ≠ port) (phase : TaskPhase) :
    (s.setTask port phase).task port' = s.task port' := Function.update_of_ne h _ _

/-- What holds at every moment: the tasks are cancelled when the supervisor has left
`select!`, because it was roused or a task failed; what was handled is what was joined, once each;
no task completes before the cancellation; and nothing is left behind. -/
structure Orderly (s : ProcessState) : Prop where
  cancelled : s.cancelled = true ↔ s.supervisor ≠ .selecting
  handled : ∀ port result, (port, result) ∈ s.handled ↔ s.task port = .joined result
  once : (s.handled.map Prod.fst).Nodup
  cause : s.cancelled = true → s.roused = true ∨
    ∃ port result, (port, result) ∈ s.handled ∧ result ≠ .completed
  stopping : s.handled ≠ [] → s.cancelled = true
  completed : ∀ port, s.task port = .ended .completed → s.cancelled = true
  returned : s.supervisor = .returned → ∀ port, (s.task port).isJoined = true

/-- A task that is not joined yet moves on, and the supervisor has not returned.  Only
completing needs the cancellation to have come first. -/
theorem Orderly.setTask (h : Orderly s) {port : Port} {phase : TaskPhase}
    (hopen : (s.task port).isJoined = false) (hphase : phase.isJoined = false)
    (hcompleted : phase = .ended .completed → s.cancelled = true) :
    Orderly (s.setTask port phase) where
  cancelled := h.cancelled
  handled := by
    intro port' result
    by_cases hport : port' = port
    · subst hport
      rw [setTask_task_self]
      have hold := h.handled port' result
      constructor
      · intro hmem
        rw [hold.mp hmem] at hopen
        cases hopen
      · intro hjoined
        rw [hjoined] at hphase
        cases hphase
    · rw [setTask_task_of_ne hport]
      exact h.handled port' result
  once := h.once
  cause := h.cause
  stopping := h.stopping
  completed := by
    intro port' hended
    by_cases hport : port' = port
    · subst hport
      rw [setTask_task_self] at hended
      exact hcompleted hended
    · rw [setTask_task_of_ne hport] at hended
      exact h.completed port' hended
  returned := by
    intro hreturned
    have hjoined := h.returned hreturned port
    rw [hopen] at hjoined
    cases hjoined

/-- The supervisor takes the result of a task, and is draining from then on, if it was not
before. -/
theorem Orderly.join (h : Orderly s) {port : Port} {result : TaskEnd}
    (hended : s.task port = .ended result) :
    Orderly { s.setTask port (.joined result) with
      supervisor := .draining
      cancelled := true
      handled := s.handled ++ [(port, result)] } where
  cancelled := by simp
  handled := by
    intro port' result'
    rw [List.mem_append, List.mem_singleton, Prod.mk.injEq]
    by_cases hport : port' = port
    · subst hport
      have hnot : (port', result') ∉ s.handled := by
        intro hmem
        rw [(h.handled _ _).mp hmem] at hended
        cases hended
      simp only [setTask_task_self, TaskPhase.joined.injEq]
      constructor
      · intro hor
        exact (hor.resolve_left hnot).2.symm
      · intro heq
        exact Or.inr ⟨trivial, heq.symm⟩
    · simp only [setTask_task_of_ne hport]
      rw [h.handled]
      constructor
      · intro hor
        exact hor.resolve_right fun hpair => hport hpair.1
      · exact Or.inl
  once := by
    have hnew : port ∉ s.handled.map Prod.fst := by
      intro hmem
      obtain ⟨⟨port', result'⟩, hin, rfl⟩ := List.mem_map.mp hmem
      rw [(h.handled _ _).mp hin] at hended
      cases hended
    rw [List.map_append, List.nodup_append]
    refine ⟨h.once, List.nodup_singleton _, ?_⟩
    intro a ha b hb hab
    cases List.mem_singleton.mp hb
    cases hab
    exact hnew ha
  cause := by
    intro _
    by_cases hcancelled : s.cancelled = true
    · rcases h.cause hcancelled with hroused | ⟨port', result', hmem, hfailed⟩
      · exact Or.inl hroused
      · exact Or.inr ⟨port', result', List.mem_append_left _ hmem, hfailed⟩
    · right
      refine ⟨port, result, List.mem_append_right _ (List.mem_singleton.mpr rfl), ?_⟩
      intro hcompleted
      subst hcompleted
      exact hcancelled (h.completed port hended)
  stopping := fun _ => rfl
  completed := fun _ _ => rfl
  returned := by
    intro hreturned
    cases hreturned

end ProcessState

open ProcessState

end Jwtlet

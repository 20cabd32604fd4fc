import Jwtlet.MachineRuns
import Jwtlet.ResourcePostgres

/-!
# Scope writes as transactions

`save_scope_mappings`, `update_scope_mapping` and `remove_scope_mapping` of
`jwtlet-postgres/src/resource_store.rs`, called by any number of clients at once.
A batch is one transaction of many `INSERT`s; an update and a removal are
transactions of one statement, whose commit follows the statement.  The steps of
different calls interleave freely.

What is taken of the database: a statement sees the committed rows and the rows of
its own transaction.  An `INSERT` of a key that another transaction has inserted
waits for that transaction and is a unique violation if it commits.  An `UPDATE`
or `DELETE` finds its row in the snapshot it starts with, waits for the lock of the
row, and affects nothing if the row is deleted meanwhile.  Any transaction may end
in an error other than a unique violation, such as a deadlock, and is then rolled
back.  A commit does not fail.

Each step names the calls whose outcome it decides: its `points`.  `Sessions.does_step`
lists all that a step can do.
-/

namespace Jwtlet

open PostgresResourceStore (insertScopeMapping insertError dbError isUniqueViolation)

/-- A write of one row, as one statement: the `UPDATE` or the `DELETE` of a scope
mapping.  Both find their row first and have to lock it before they can change it. -/
inductive RowChange where
  | update (mapping : ScopeMapping)
  | remove (scope : String)

/-- The writes of scope mappings that a client can ask for: a batch to create, or a change
of one row.  A single creation is a batch of one. -/
inductive ScopeWrite where
  | save (mappings : List ScopeMapping)
  | change (change : RowChange)

namespace RowChange

/-- The key in the `WHERE` clause of the statement, which names one row at most. -/
def scope : RowChange → String
  | .update mapping => mapping.scope
  | .remove scope => scope

/-- The answer when the statement affects no row.  An update reports that, a removal does
not, and this is the only difference between the two that a client sees. -/
def absent : RowChange → Except ResourceError Unit
  | .update mapping => .error (.notFound mapping.scope)
  | .remove _ => .ok ()

/-- The tables after the statement and its commit, as the operations of the store leave
them. -/
def execute (db : Database) : RowChange → Database
  | .update mapping => (PostgresResourceStore.updateScopeMapping db mapping).2
  | .remove scope => (PostgresResourceStore.removeScopeMapping db scope).2

end RowChange

/-- The operation of the trait that is called, which is what the call has to look like
from outside. -/
def ScopeWrite.toWrite : ScopeWrite → StoreWrite
  | .save mappings => .saveScopeMappings mappings
  | .change (.update mapping) => .updateScopeMapping mapping
  | .change (.remove scope) => .removeScopeMapping scope

/-- Where an `UPDATE` or `DELETE` is: before its snapshot, between the snapshot and the
lock, or before its commit. -/
inductive RowStage where
  | pending
  /-- The row is in the snapshot of the statement. -/
  | matched
  /-- The row is changed and locked, the change not committed. -/
  | locked
  deriving DecidableEq

/-- A call and how far it is: in a transaction, at the end of which its outcome is
decided, or after that, until it returns. -/
inductive Call where
  /-- The transaction of a batch, with the rows it inserted, those still to insert
  and the call whose outcome the next `INSERT` waits for. -/
  | batch (inserted rest : List ScopeMapping) (waitsFor : Option Nat)
  | row (change : RowChange) (stage : RowStage)
  /-- The transaction is over and the client has no answer yet. -/
  | answered (write : ScopeWrite) (answer : Except ResourceError Unit)
  | returned (write : ScopeWrite) (answer : Except ResourceError Unit)

namespace Call

/-- A call before its first statement: it has inserted nothing, found nothing and waits
for nobody. -/
def start : ScopeWrite → Call
  | .save mappings => .batch [] mappings none
  | .change change => .row change .pending

/-- The write that the client asked for, which does not change while the call is in
progress. -/
def write : Call → ScopeWrite
  | .batch inserted rest _ => .save (inserted ++ rest)
  | .row change _ => .change change
  | .answered write _ | .returned write _ => write

/-- The rows that the call has inserted and not committed.  No other call sees them, but
it may have to wait for them. -/
def inserted : Call → List ScopeMapping
  | .batch inserted _ _ => inserted
  | .row _ _ | .answered _ _ | .returned _ _ => []

/-- The transaction of the call is in progress, so that it may hold rows that others need.
-/
def active : Call → Bool
  | .batch _ _ _ | .row _ _ => true
  | .answered _ _ | .returned _ _ => false

/-- The row that an `UPDATE` or `DELETE` found and has not committed.  It was there when
the statement looked, and need not be there any more when it gets the lock. -/
def found : Call → Option String
  | .row change .matched | .row change .locked => some change.scope
  | .row _ .pending | .batch _ _ _ | .answered _ _ | .returned _ _ => none

/-- The row that an `UPDATE` or `DELETE` locks, from the moment it has got the lock to its
commit. -/
def locks : Call → Option String
  | .row change .locked => some change.scope
  | .row _ .pending | .row _ .matched | .batch _ _ _ | .answered _ _ | .returned _ _ => none

/-- The call that an `INSERT` waits for, with the key that it inserts and that the other
call has inserted before. -/
def waits : Call → Option (Nat × String)
  | .batch _ (mapping :: _) (some holder) => some (holder, mapping.scope)
  | .batch _ [] _ | .batch _ _ none | .row _ _ | .answered _ _ | .returned _ _ => none

/-- The error of a statement that the database rejects, as the store reports it for the
record at hand. -/
def failure (e : SqlxError) : Call → ResourceError
  | .batch _ (mapping :: _) _ => insertError mapping.scope e
  | .batch _ [] _ | .row _ _ | .answered _ _ | .returned _ _ => dbError e

/-- A call whose transaction is over holds nothing and waits for nothing, so that it may
be left out of account from then on. -/
theorem of_not_active {c : Call} (h : c.active = false) :
    c.inserted = [] ∧ c.waits = none ∧ c.found = none ∧ c.locks = none := by
  cases c with
  | batch inserted rest waitsFor => cases h
  | row change stage => cases h
  | answered write answer => exact ⟨rfl, rfl, rfl, rfl⟩
  | returned write answer => exact ⟨rfl, rfl, rfl, rfl⟩

/-- A call that waits is a batch with a next row to insert, and the row is the one it
waits for. -/
theorem waits_eq_some {c : Call} {holder : Nat} {s : String} (h : c.waits = some (holder, s)) :
    ∃ inserted m rest, c = .batch inserted (m :: rest) (some holder) ∧ m.scope = s := by
  cases c with
  | batch inserted rest waitsFor =>
      cases rest with
      | nil => cases h
      | cons m rest =>
          cases waitsFor with
          | none => cases h
          | some holder' =>
              cases h
              exact ⟨inserted, m, rest, rfl, rfl⟩
  | row change stage => cases h
  | answered write answer => cases h
  | returned write answer => cases h

/-- A call that holds something or waits for something is in its transaction.  The commit
of another call decides no call but these. -/
theorem active_of_holds {c : Call}
    (h : c.inserted ≠ [] ∨ c.waits ≠ none ∨ c.found ≠ none ∨ c.locks ≠ none) :
    c.active = true := by
  by_contra hover
  obtain ⟨hinserted, hwaits, hfound, hlocks⟩ := of_not_active (Bool.not_eq_true _ ▸ hover)
  simp [hinserted, hwaits, hfound, hlocks] at h

end Call

/-- The outcome of a call, decided at one instant: the write that it asked for and the
answer that it gets.  The order of the points is the sequential order that the calls are
shown to have. -/
structure Point where
  call : Nat
  write : ScopeWrite
  answer : Except ResourceError Unit

/-- What a step lets an observer see: the outcomes that it decides, and the call that
returns with it. -/
structure Observation where
  points : List Point
  returned : Option (Nat × Except ResourceError Unit)

/-- Nothing is decided, and no call returns.  Most steps are of this kind. -/
def Observation.nothing : Observation := { points := [], returned := none }

/-- A row with this scope is committed.  For every other transaction it is there, and
until then for none. -/
def Database.stored (db : Database) (s : String) : Bool := (db.scopeMappings.lookup s).isSome

/-- The scopes that are stored are the keys that the table finds, by definition; the
rewriting goes from here. -/
theorem Database.stored_eq (db : Database) :
    db.stored = fun s => (db.scopeMappings.lookup s).isSome := rfl

/-- The scopes that are stored are those in force, since every row reads as a scope
mapping. -/
theorem Database.stored_eq_scope (db : Database) :
    db.stored = fun s => ((PostgresResourceStore.policy db).scope s).isSome := by
  funext s
  rw [PostgresResourceStore.policy_scope, Option.isSome_map]
  rfl

/-- A scope is stored exactly when a scope mapping is in force for it. -/
theorem Database.stored_eq_true_iff {db : Database} {s : String} :
    db.stored s = true ↔ ((PostgresResourceStore.policy db).scope s).isSome = true := by
  rw [stored_eq_scope]

/-- A scope is free exactly when no scope mapping is in force for it. -/
theorem Database.stored_eq_false_iff {db : Database} {s : String} :
    db.stored s = false ↔ (PostgresResourceStore.policy db).scope s = none := by
  rw [stored_eq_scope, Option.isSome_eq_false_iff, Option.isNone_iff_eq_none]

/-- What a row change does to the policy is what the operation of the trait does to it,
whether or not the row is there. -/
theorem RowChange.policy_execute (change : RowChange) (db : Database) :
    PostgresResourceStore.policy (change.execute db) =
      ((PostgresResourceStore.policy db).write (ScopeWrite.change change).toWrite).2 := by
  cases change with
  | update m => exact congrArg Prod.snd (PostgresResourceStore.updateScopeMapping_refines db m)
  | remove s => exact congrArg Prod.snd (PostgresResourceStore.removeScopeMapping_refines db s)

/-- What the commit of a batch does to the policy when none of its scopes is taken: it
adds them, and touches no resource mapping. -/
theorem policy_saveScopeMappings {db : Database} {ms : List ScopeMapping}
    (h : Policy.firstTaken db.stored ms = none) :
    PostgresResourceStore.policy (PostgresResourceStore.saveScopeMappings db ms).2 =
      { PostgresResourceStore.policy db with
        scope := Policy.addScopes (PostgresResourceStore.policy db).scope ms } := by
  have hrefines := congrArg Prod.snd (PostgresResourceStore.saveScopeMappings_refines db ms)
  rw [Database.stored_eq_scope] at h
  simp only [Policy.write, h] at hrefines
  exact hrefines

/-- The keys after the commit of a batch are those before it and those of its rows, so no
key that another call has found gets lost by it. -/
theorem stored_saveScopeMappings {db : Database} {ms : List ScopeMapping}
    (h : Policy.firstTaken db.stored ms = none) (s : String) :
    (PostgresResourceStore.saveScopeMappings db ms).2.stored s = true ↔
      db.stored s = true ∨ ∃ m ∈ ms, m.scope = s := by
  rw [Database.stored_eq_true_iff, policy_saveScopeMappings h, Database.stored_eq_true_iff]
  exact Policy.isSome_addScopes _ ms s

/-- The keys after a row change are those before it, without the one that was removed.  An
update leaves them all. -/
theorem RowChange.stored_execute (change : RowChange) (db : Database) (s : String) :
    (change.execute db).stored s = true ↔ db.stored s = true ∧ change ≠ .remove s := by
  simp only [Database.stored_eq_scope, policy_execute]
  cases change with
  | update m =>
      simp only [ScopeWrite.toWrite, Policy.write]
      split
      · next hrow =>
        simp only [Function.update_apply]
        split
        · next hs =>
          rw [hs, hrow]
          simp
        · simp
      · simp
  | remove s' =>
      simp only [ScopeWrite.toWrite, Policy.write, Function.update_apply]
      split
      · next hs => simp [hs]
      · next hs => simp [Ne.symm hs]

/-- The committed rows and the calls, each under the number that it was made with.  Rows
that are not committed are those that the calls have inserted. -/
structure Sessions where
  db : Database
  calls : Nat → Option Call
  /-- The calls in the order they began. -/
  started : List Nat

/-- What happens next, as the scheduler of the database has it: a call begins, makes a
statement, commits, is rolled back, or returns. -/
inductive ScopeEvent where
  | invoke (id : Nat) (write : ScopeWrite)
  /-- The next statement of the call, or its next attempt to go on. -/
  | statement (id : Nat)
  | commit (id : Nat)
  | fail (id : Nat) (error : SqlxError)
  | respond (id : Nat)

namespace Sessions

/-- The rows that are there at the start, and no calls.  The rows may be any. -/
def initial (db : Database) : Sessions := { db, calls := fun _ => none, started := [] }

/-- Nothing happens, as when a statement has to wait or a call has no next step of this
kind. -/
def idle (w : Sessions) : Observation × Sessions := (.nothing, w)

/-- One call moves on, without any outcome being decided and without a change to the
committed rows. -/
def move (w : Sessions) (id : Nat) (c : Call) : Observation × Sessions :=
  (.nothing, { w with calls := Function.update w.calls id (some c) })

/-- The call `id` ends with the answer and the tables given, and so does every call
to which `decides` gives an answer. -/
def settle (w : Sessions) (id : Nat) (c : Call) (answer : Except ResourceError Unit)
    (db : Database) (decides : Call → Option (Except ResourceError Unit)) :
    Observation × Sessions :=
  ({ points := ⟨id, c.write, answer⟩ :: w.started.filterMap fun j =>
        (w.calls j).bind fun c' => (decides c').map fun answer' => ⟨j, c'.write, answer'⟩
     returned := none },
   { w with
      db
      calls := Function.update
        (fun j => (w.calls j).map fun c' => (decides c').elim c' (.answered c'.write))
        id (some (.answered c.write answer)) })

/-- No other call is decided along with it, as when a call fails or affects no row. -/
def decidesNone : Call → Option (Except ResourceError Unit) := fun _ => none

/-- The `INSERT`s that wait for a batch fail when it commits: their key is taken then, and
they are told so without a further look at the table. -/
def decidesWaiting (id : Nat) (c : Call) : Option (Except ResourceError Unit) :=
  match c.waits with
  | some (holder, scope) =>
      if holder = id then
        some (.error (insertError scope
          (.database "23505" "duplicate key value violates unique constraint")))
      else none
  | none => none

/-- The statements that have found a row and not locked it affect nothing once the row is
deleted.  They find that out when they get the lock. -/
def decidesMatched (change : RowChange) : Call → Option (Except ResourceError Unit)
  | .row change' .matched =>
      match change with
      | .remove scope => if change'.scope = scope then some change'.absent else none
      | .update _ => none
  | .row _ .pending | .row _ .locked | .batch _ _ _ | .answered _ _ | .returned _ _ => none

/-- Some call locks the row, so that every other statement on it has to wait until that
call is over. -/
def locked (w : Sessions) (s : String) : Bool :=
  w.started.any fun j => (w.calls j).any fun c => c.locks == some s

/-- The call that has inserted a row with this scope and not committed it.  There is one
at most. -/
def holder (w : Sessions) (s : String) : Option Nat :=
  w.started.find? fun j => (w.calls j).any fun c => c.inserted.any fun m => m.scope == s

/-- The next `INSERT` of a batch, on the committed rows and its own: it succeeds,
conflicts, or waits for another transaction. -/
def insert (w : Sessions) (id : Nat) (inserted rest : List ScopeMapping) (mapping : ScopeMapping)
    (waitsFor : Option Nat) : Observation × Sessions :=
  if w.locked mapping.scope then w.idle
  else
    match (inserted ++ [mapping]).foldlM insertScopeMapping w.db.scopeMappings with
    | .error e =>
        w.settle id (.batch inserted (mapping :: rest) waitsFor) (.error e) w.db decidesNone
    | .ok _ =>
        match w.holder mapping.scope with
        | some holder => w.move id (.batch inserted (mapping :: rest) (some holder))
        | none => w.move id (.batch (inserted ++ [mapping]) rest none)

/-- The next step of an `UPDATE` or `DELETE`: find the row in the snapshot, then lock it.
Without a row the statement is over at once. -/
def changeRow (w : Sessions) (id : Nat) (change : RowChange) : RowStage → Observation × Sessions
  | .pending =>
      if w.db.stored change.scope then w.move id (.row change .matched)
      else w.settle id (.row change .pending) change.absent w.db decidesNone
  | .matched => if w.locked change.scope then w.idle else w.move id (.row change .locked)
  | .locked => w.idle

/-- One event, with what it lets an observer see.  An event that does not apply to the
call leaves everything as it is. -/
def step (w : Sessions) : ScopeEvent → Observation × Sessions
  | .invoke id write =>
      match w.calls id with
      | some _ => w.idle
      | none => (.nothing, { w with
          calls := Function.update w.calls id (some (Call.start write))
          started := w.started ++ [id] })
  | .statement id =>
      match w.calls id with
      | some (.batch inserted (mapping :: rest) waitsFor) =>
          w.insert id inserted rest mapping waitsFor
      | some (.row change stage) => w.changeRow id change stage
      | _ => w.idle
  | .commit id =>
      match w.calls id with
      | some (.batch inserted [] waitsFor) =>
          w.settle id (.batch inserted [] waitsFor) (.ok ())
            (PostgresResourceStore.saveScopeMappings w.db inserted).2 (decidesWaiting id)
      | some (.row change .locked) =>
          w.settle id (.row change .locked) (.ok ()) (change.execute w.db)
            (decidesMatched change)
      | _ => w.idle
  | .fail id error =>
      match w.calls id with
      | some c =>
          if c.active && !isUniqueViolation error then
            w.move id (.answered c.write (.error (c.failure error)))
          else w.idle
      | none => w.idle
  | .respond id =>
      match w.calls id with
      | some (.answered write answer) =>
          ({ points := [], returned := some (id, answer) },
           { w with calls := Function.update w.calls id (some (.returned write answer)) })
      | _ => w.idle

/-- A commit decides the batches that wait for it: they conflict at the row that they wait
with, and no other call is decided. -/
theorem decidesWaiting_eq_some {id : Nat} {c : Call} {answer : Except ResourceError Unit}
    (h : decidesWaiting id c = some answer) :
    ∃ scope, c.waits = some (id, scope) ∧ answer = .error (.conflict scope) := by
  rw [decidesWaiting] at h
  split at h
  · next holder scope hwaits =>
    split at h
    · next hholder =>
      cases h
      exact ⟨scope, hholder ▸ hwaits, rfl⟩
    · cases h
  · cases h

/-- A removal decides the statements that found the row: they affect nothing, and answer
as they do without a row. -/
theorem decidesMatched_eq_some {change : RowChange} {c : Call}
    {answer : Except ResourceError Unit} (h : decidesMatched change c = some answer) :
    ∃ change' : RowChange, change = .remove change'.scope ∧ c = .row change' .matched ∧
      answer = change'.absent := by
  rw [decidesMatched.eq_def] at h
  split at h
  · next change' =>
    split at h
    · split at h
      · next hscope =>
        cases h
        exact ⟨change', by rw [hscope], rfl, rfl⟩
      · cases h
    · cases h
  all_goals cases h

/-- A call moves on by itself, and no outcome is decided: it waits, inserts a row, finds
its row or locks it. -/
inductive Moves (w : Sessions) : Call → Call → Prop
  | waits {inserted rest : List ScopeMapping} {m : ScopeMapping} {waitsFor : Option Nat}
      {holder : Nat} {c : Call} (hc : w.calls holder = some c)
      (hholds : ∃ m' ∈ c.inserted, m'.scope = m.scope) :
      Moves w (.batch inserted (m :: rest) waitsFor) (.batch inserted (m :: rest) (some holder))
  | inserts {inserted rest : List ScopeMapping} {m : ScopeMapping} {waitsFor : Option Nat}
      (hfree : Policy.firstTaken w.db.stored (inserted ++ [m]) = none)
      (hunheld : ∀ j c, w.calls j = some c → ∀ m' ∈ c.inserted, m'.scope ≠ m.scope) :
      Moves w (.batch inserted (m :: rest) waitsFor) (.batch (inserted ++ [m]) rest none)
  | finds {change : RowChange} (hrow : w.db.stored change.scope = true) :
      Moves w (.row change .pending) (.row change .matched)
  | locks {change : RowChange}
      (hunlocked : ∀ j c, w.calls j = some c → c.locks ≠ some change.scope) :
      Moves w (.row change .matched) (.row change .locked)

/-- The outcome of the call `id` is decided, with the tables after it and the other calls
that it decides. -/
inductive Settles (w : Sessions) (id : Nat) : Call → Except ResourceError Unit → Database →
    (Call → Option (Except ResourceError Unit)) → Prop
  | refused {inserted rest : List ScopeMapping} {m : ScopeMapping} {waitsFor : Option Nat}
      {s : String} (htaken : Policy.firstTaken w.db.stored (inserted ++ [m]) = some s) :
      Settles w id (.batch inserted (m :: rest) waitsFor) (.error (.conflict s)) w.db decidesNone
  | absent {change : RowChange} (hrow : w.db.stored change.scope = false) :
      Settles w id (.row change .pending) change.absent w.db decidesNone
  | batch {inserted : List ScopeMapping} {waitsFor : Option Nat} :
      Settles w id (.batch inserted [] waitsFor) (.ok ())
        (PostgresResourceStore.saveScopeMappings w.db inserted).2 (decidesWaiting id)
  | row {change : RowChange} :
      Settles w id (.row change .locked) (.ok ()) (change.execute w.db) (decidesMatched change)

/-- All that one step can do.  The invariant and the replay are shown from these cases and
not from `step`, which has more of them than there are outcomes. -/
inductive Does (w : Sessions) : ScopeEvent → Observation × Sessions → Prop
  | idle {e : ScopeEvent} : Does w e w.idle
  | invoked {id : Nat} {write : ScopeWrite} (hnew : w.calls id = none) :
      Does w (.invoke id write) (.nothing, { w with
        calls := Function.update w.calls id (some (Call.start write))
        started := w.started ++ [id] })
  | moved {e : ScopeEvent} {id : Nat} {c c' : Call} (hc : w.calls id = some c)
      (hmoves : w.Moves c c') : Does w e (w.move id c')
  | settled {e : ScopeEvent} {id : Nat} {c : Call} {answer : Except ResourceError Unit}
      {db : Database} {decides : Call → Option (Except ResourceError Unit)}
      (hc : w.calls id = some c) (hsettles : w.Settles id c answer db decides) :
      Does w e (w.settle id c answer db decides)
  | failed {e : ScopeEvent} {id : Nat} {c : Call} {msg : String} (hc : w.calls id = some c)
      (hactive : c.active = true) :
      Does w e (w.move id (.answered c.write (.error (.databaseError msg))))
  | responded {id : Nat} {write : ScopeWrite} {answer : Except ResourceError Unit}
      (hc : w.calls id = some (.answered write answer)) :
      Does w (.respond id) ({ points := [], returned := some (id, answer) },
        (w.move id (.returned write answer)).2)

/-- The calls in the list are those that began, so that looking through the list finds
them all. -/
def Listed (w : Sessions) : Prop := ∀ j, j ∈ w.started ↔ (w.calls j).isSome = true

theorem Listed.mem {w : Sessions} (h : w.Listed) {j : Nat} {c : Call} (hc : w.calls j = some c) :
    j ∈ w.started := by
  rw [h j, hc]
  rfl

/-- If no call is found that locks a row, then none locks it: the search goes through all
calls that began. -/
theorem not_locked {w : Sessions} (h : w.Listed) {s : String} (hs : ¬ w.locked s = true) {j : Nat}
    {c : Call} (hc : w.calls j = some c) : c.locks ≠ some s := by
  intro hlocks
  apply hs
  rw [locked, List.any_eq_true]
  refine ⟨j, h.mem hc, ?_⟩
  rw [hc, Option.any_some, hlocks]
  exact beq_self_eq_true _

/-- The call that is found has inserted a row with the scope, so that it is the one to
wait for. -/
theorem holder_eq_some {w : Sessions} {s : String} {h : Nat} (hh : w.holder s = some h) :
    ∃ c, w.calls h = some c ∧ ∃ m ∈ c.inserted, m.scope = s := by
  have hholds := List.find?_some hh
  cases hc : w.calls h with
  | none =>
      rw [hc] at hholds
      cases hholds
  | some c =>
      rw [hc, Option.any_some, List.any_eq_true] at hholds
      obtain ⟨m, hm, hscope⟩ := hholds
      exact ⟨c, rfl, m, hm, beq_iff_eq.mp hscope⟩

/-- If no call is found, then none has inserted a row with the scope, and whether it is
free is a matter of the committed rows. -/
theorem holder_eq_none {w : Sessions} (h : w.Listed) {s : String} (hs : w.holder s = none) {j : Nat}
    {c : Call} (hc : w.calls j = some c) : ∀ m ∈ c.inserted, m.scope ≠ s := by
  intro m hm hscope
  have hunheld := List.find?_eq_none.mp hs j (h.mem hc)
  rw [hc, Option.any_some, List.any_eq_true] at hunheld
  exact hunheld ⟨m, hm, beq_iff_eq.mpr hscope⟩

/-- The next `INSERT` of a batch does one of the things listed: it waits, conflicts, or
adds its row to those that the batch has inserted. -/
theorem does_insert {w : Sessions} (hlisted : w.Listed) {e : ScopeEvent} {id : Nat}
    {inserted rest : List ScopeMapping} {m : ScopeMapping} {waitsFor : Option Nat}
    (hc : w.calls id = some (.batch inserted (m :: rest) waitsFor)) :
    w.Does e (w.insert id inserted rest m waitsFor) := by
  have hinserts := PostgresResourceStore.foldlM_insertScopeMapping w.db.scopeMappings
    (inserted ++ [m])
  rw [← Database.stored_eq] at hinserts
  rw [insert]
  split
  · exact .idle
  · cases htaken : Policy.firstTaken w.db.stored (inserted ++ [m]) with
    | some s =>
        rw [htaken] at hinserts
        rw [hinserts]
        exact .settled hc (.refused htaken)
    | none =>
        rw [htaken] at hinserts
        obtain ⟨table, hok, -⟩ := hinserts
        simp only [hok]
        split
        · next holder hholder =>
          obtain ⟨c, hholds, hscope⟩ := holder_eq_some hholder
          exact .moved hc (.waits hholds hscope)
        · next hholder =>
          exact .moved hc (.inserts htaken fun j c hj => holder_eq_none hlisted hholder hj)

/-- The next step of an `UPDATE` or `DELETE` does one of the things listed.  Where it
finds no row, its outcome is decided at once. -/
theorem does_changeRow {w : Sessions} (hlisted : w.Listed) {e : ScopeEvent} {id : Nat}
    {change : RowChange} {stage : RowStage} (hc : w.calls id = some (.row change stage)) :
    w.Does e (w.changeRow id change stage) := by
  cases stage with
  | pending =>
      rw [changeRow]
      split
      · next hrow => exact .moved hc (.finds hrow)
      · next hrow => exact .settled hc (.absent (Bool.not_eq_true _ ▸ hrow))
  | matched =>
      rw [changeRow]
      split
      · exact .idle
      · next hfree => exact .moved hc (.locks fun j c hj => not_locked hlisted hfree hj)
  | locked => exact .idle

/-- An error other than a unique violation is reported as an error of the database, for
every kind of call. -/
theorem failure_eq {e : SqlxError} (h : isUniqueViolation e = false) (c : Call) :
    ∃ msg, c.failure e = .databaseError msg := by
  have hdb : ∃ msg, dbError e = .databaseError msg := by
    cases e with
    | database code msg => exact ⟨msg, rfl⟩
    | other msg => exact ⟨msg, rfl⟩
  cases c with
  | batch inserted rest waitsFor =>
      cases rest with
      | nil => exact hdb
      | cons m rest =>
          rw [Call.failure, insertError, h]
          exact hdb
  | row change stage => exact hdb
  | answered write answer => exact hdb
  | returned write answer => exact hdb

/-- Every step does one of the things listed, whatever the event.  This is the only place
where the step function is unfolded. -/
theorem does_step {w : Sessions} (hlisted : w.Listed) (e : ScopeEvent) : w.Does e (w.step e) := by
  cases e with
  | invoke id write =>
      rw [step]
      split
      · exact .idle
      · next hnew => exact .invoked hnew
  | statement id =>
      rw [step]
      split
      · next hc => exact does_insert hlisted hc
      · next hc => exact does_changeRow hlisted hc
      · exact .idle
  | commit id =>
      rw [step]
      split
      · next hc => exact .settled hc .batch
      · next hc => exact .settled hc .row
      · exact .idle
  | fail id error =>
      rw [step]
      split
      · next c hc =>
        split
        · next hfails =>
          rw [Bool.and_eq_true, Bool.not_eq_true'] at hfails
          obtain ⟨msg, hmsg⟩ := failure_eq hfails.2 c
          rw [hmsg]
          exact .failed hc hfails.1
        · exact .idle
      · exact .idle
  | respond id =>
      rw [step]
      split
      · next hc => exact .responded hc
      · exact .idle

end Sessions

end Jwtlet

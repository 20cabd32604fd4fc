import Jwtlet.FaultyRuns
import Jwtlet.ServerEquivalence

/-!
# The server over a database that fails

Each operation of the Postgres store makes one or more round trips to the database,
and each of them may fail: there is no connection, it breaks, the statement is
cancelled.  A statement that is answered with such an error has either not been
executed, or its answer was lost after the commit; it is assumed that it is not
executed later than that.

`LinkedDatabase` is the store of `jwtlet-postgres/src/resource_store.rs` with the
outcome of each round trip, and a run may have any failures in any of its requests.

* `failingStep_cases` - a request is served as over a database without failures, or it
  gets status 500 and has done nothing or all that it does.
* `failures_tolerated` - a run with failures is explained by a run without them of the
  requests that took effect.
* `retries_take_effect_once` - requests that are tried again until they are served take
  effect once.

The rules for runs are those of `FaultyRuns`; that a second time changes nothing is
`Policy.write_write`.
-/

namespace Jwtlet

open Rust Machine Faults

variable {κ : Type}

/-- A round trip that ends with an error of the connection or the database, and not
with a violated constraint. -/
structure Failure where
  error : SqlxError
  notUnique : PostgresResourceStore.isUniqueViolation error = false
  /-- A commit has taken effect all the same. -/
  applied : Bool

/-- The failures of the round trips of one operation, in their order.  What is said of
round trips that the operation does not make has no meaning. -/
abbrev Link := Nat → Option Failure

/-- Some round trip fails, be it one that the operation makes or not. -/
def Link.Fails (link : Link) : Prop := ∃ n, link n ≠ none

/-- The tables, and how the round trips of the next operation end.  An operation hands the
link on as it found it. -/
structure LinkedDatabase where
  db : Database
  link : Link

namespace LinkedDatabase

open PostgresResourceStore (dbError insertError insertScopeMapping selectMapping
  selectScopeMappings rowToResourceMapping rowToScopeMapping)

/-- A statement that reads: it answers, or its round trip fails. -/
def query {A : Type} (s : LinkedDatabase) (n : Nat) (answer : A) : Except ResourceError A :=
  match s.link n with
  | none => .ok answer
  | some failure => .error (dbError failure.error)

/-- An operation that is one statement, and so one transaction.  `onError` makes the error
of the operation, also where the statement has taken effect. -/
def execute (s : LinkedDatabase) (answered : Except ResourceError Unit × Database)
    (onError : SqlxError → ResourceError) : Except ResourceError Unit × LinkedDatabase :=
  match s.link 0 with
  | none => (answered.1, { s with db := answered.2 })
  | some failure =>
      (.error (onError failure.error), if failure.applied then { s with db := answered.2 } else s)

/-- `resolve_mapping`: the two `SELECT`s, of which the second is made only when the first
has found a mapping. -/
def resolveMapping (s : LinkedDatabase) (clientIdentifier participantContext : String) :
    Except ResourceError (Option MappingPair) :=
  match s.query 0 (selectMapping s.db clientIdentifier participantContext) with
  | .error e => .error e
  | .ok none => .ok none
  | .ok (some resourceMapping) =>
      (s.query 1 (selectScopeMappings s.db resourceMapping)).map fun scopeMappings =>
        some { resourceMapping, scopeMappings }

/-- `save_mapping`: one `INSERT`, whose failure is read as a conflict only when it is a
violated constraint. -/
def saveMapping (s : LinkedDatabase) (mapping : ResourceMapping) :
    Except ResourceError Unit × LinkedDatabase :=
  s.execute (PostgresResourceStore.saveMapping s.db mapping) (insertError mapping.clientIdentifier)

/-- `update_mapping`: one `UPDATE`, after whose failure it is unknown how many rows it
met. -/
def updateMapping (s : LinkedDatabase) (mapping : ResourceMapping) :
    Except ResourceError Unit × LinkedDatabase :=
  s.execute (PostgresResourceStore.updateMapping s.db mapping) dbError

/-- `remove_mapping`: one `DELETE` by both keys. -/
def removeMapping (s : LinkedDatabase) (clientIdentifier participantContext : String) :
    Except ResourceError Unit × LinkedDatabase :=
  s.execute (PostgresResourceStore.removeMapping s.db clientIdentifier participantContext) dbError

/-- `remove_mappings_for`: one `DELETE` by the client. -/
def removeMappingsFor (s : LinkedDatabase) (clientIdentifier : String) :
    Except ResourceError Unit × LinkedDatabase :=
  s.execute (PostgresResourceStore.removeMappingsFor s.db clientIdentifier) dbError

/-- The `INSERT`s of a batch from round trip `n` on, on the tables that the transaction
sees.  The first error ends the batch. -/
def insertAll (link : Link) (n : Nat) (table : Sql.Table ScopeMappingRow String ScopeMappingRow.scope) :
    List ScopeMapping → Except ResourceError (Sql.Table ScopeMappingRow String ScopeMappingRow.scope)
  | [] => .ok table
  | mapping :: mappings =>
      match link n with
      | some failure => .error (insertError mapping.scope failure.error)
      | none =>
          match insertScopeMapping table mapping with
          | .error e => .error e
          | .ok table' => insertAll link (n + 1) table' mappings

/-- `begin`, the `INSERT`s and `commit`.  A transaction that is not committed is
rolled back. -/
def saveScopeMappings (s : LinkedDatabase) (mappings : List ScopeMapping) :
    Except ResourceError Unit × LinkedDatabase :=
  match s.link 0 with
  | some failure => (.error (dbError failure.error), s)
  | none =>
      match insertAll s.link 1 s.db.scopeMappings mappings with
      | .error e => (.error e, s)
      | .ok table =>
          let committed := { s with db := { s.db with scopeMappings := table } }
          match s.link (mappings.length + 1) with
          | none => (.ok (), committed)
          | some failure =>
              (.error (dbError failure.error), if failure.applied then committed else s)

/-- `update_scope_mapping`: one `UPDATE`, like that of a resource mapping. -/
def updateScopeMapping (s : LinkedDatabase) (mapping : ScopeMapping) :
    Except ResourceError Unit × LinkedDatabase :=
  s.execute (PostgresResourceStore.updateScopeMapping s.db mapping) dbError

/-- `remove_scope_mapping`: one `DELETE` by the scope. -/
def removeScopeMapping (s : LinkedDatabase) (scope : String) :
    Except ResourceError Unit × LinkedDatabase :=
  s.execute (PostgresResourceStore.removeScopeMapping s.db scope) dbError

/-- `list_mappings`: one `SELECT` of all rows. -/
def listMappings (s : LinkedDatabase) : Except ResourceError (List ResourceMapping) :=
  (s.query 0 s.db.resourceMappings.rows).map (List.map rowToResourceMapping)

/-- `list_scope_mappings`: one `SELECT` of all rows. -/
def listScopeMappings (s : LinkedDatabase) : Except ResourceError (List ScopeMapping) :=
  (s.query 0 s.db.scopeMappings.rows).map (List.map rowToScopeMapping)

instance : ResourceStore LinkedDatabase where
  resolveMapping := resolveMapping
  saveMapping := saveMapping
  updateMapping := updateMapping
  removeMapping := removeMapping
  removeMappingsFor := removeMappingsFor
  saveScopeMappings := saveScopeMappings
  updateScopeMapping := updateScopeMapping
  removeScopeMapping := removeScopeMapping
  listMappings := listMappings
  listScopeMappings := listScopeMappings

/-- `db_error` makes an error of the database of every error of the driver. -/
theorem dbError_eq (e : SqlxError) : ∃ msg, dbError e = .databaseError msg := by
  cases e with
  | database code msg => exact ⟨msg, rfl⟩
  | other msg => exact ⟨msg, rfl⟩

/-- So does the error of an `INSERT`, for a failure that is no violated constraint. -/
theorem insertError_eq (id : String) (failure : Failure) :
    ∃ msg, insertError id failure.error = .databaseError msg := by
  rw [insertError, failure.notUnique]
  exact dbError_eq failure.error

/-- The error of a round trip that failed: an error of the database, with some message. -/
def DatabaseFailed {A : Type} (link : Link) (r : Except ResourceError A) : Prop :=
  link.Fails ∧ ∃ msg, r = .error (.databaseError msg)

theorem databaseFailed_of_link {A : Type} {link : Link} {n : Nat} {failure : Failure}
    (h : link n = some failure) {e : ResourceError} (he : ∃ msg, e = .databaseError msg) :
    DatabaseFailed link (.error e : Except ResourceError A) := by
  obtain ⟨msg, rfl⟩ := he
  refine ⟨⟨n, ?_⟩, msg, rfl⟩
  rw [h]
  exact Option.some_ne_none failure

/-- A statement that reads answers or fails. -/
theorem query_cases {A : Type} (s : LinkedDatabase) (n : Nat) (answer : A) :
    s.query n answer = .ok answer ∨ DatabaseFailed s.link (s.query n answer) := by
  rw [query]
  cases hlink : s.link n with
  | none => exact Or.inl rfl
  | some failure => exact Or.inr (databaseFailed_of_link hlink (dbError_eq failure.error))

/-- How a write ends that would end as `answered`: so, or with a failure, before or after
it has taken effect.  In the second case the caller cannot tell. -/
inductive Written (s : LinkedDatabase) (answered : Except ResourceError Unit × Database) :
    Except ResourceError Unit × LinkedDatabase → Prop
  | answered : Written s answered (answered.1, { s with db := answered.2 })
  | failed {r : Except ResourceError Unit} (hr : DatabaseFailed s.link r) : Written s answered (r, s)
  | unconfirmed {r : Except ResourceError Unit} (hr : DatabaseFailed s.link r) :
      Written s answered (r, { s with db := answered.2 })

/-- A single statement ends in one of the three ways. -/
theorem written_execute (s : LinkedDatabase) (answered : Except ResourceError Unit × Database)
    {onError : SqlxError → ResourceError}
    (herror : ∀ failure : Failure, ∃ msg, onError failure.error = .databaseError msg) :
    Written s answered (s.execute answered onError) := by
  rw [execute]
  cases hlink : s.link 0 with
  | none => exact .answered
  | some failure =>
      have hfailed := @databaseFailed_of_link Unit s.link 0 failure hlink _ (herror failure)
      simp only
      cases failure.applied with
      | true => exact .unconfirmed hfailed
      | false => exact .failed hfailed

/-- The `INSERT`s of a batch end as on a sound link, or fail.  The induction is over the
batch, with the round trips counted along. -/
theorem insertAll_cases (link : Link) (n : Nat)
    (table : Sql.Table ScopeMappingRow String ScopeMappingRow.scope) (ms : List ScopeMapping) :
    insertAll link n table ms = ms.foldlM insertScopeMapping table ∨
      DatabaseFailed link (insertAll link n table ms) := by
  induction ms generalizing n table with
  | nil => exact Or.inl rfl
  | cons m ms ih =>
      rw [insertAll, List.foldlM_cons]
      cases hlink : link n with
      | some failure => exact Or.inr (databaseFailed_of_link hlink (insertError_eq m.scope failure))
      | none =>
          cases insertScopeMapping table m with
          | error e => exact Or.inl rfl
          | ok table' => exact ih (n + 1) table'

/-- So does a batch, whose only round trip with a lasting effect is the commit. -/
theorem written_saveScopeMappings (s : LinkedDatabase) (ms : List ScopeMapping) :
    Written s (PostgresResourceStore.saveScopeMappings s.db ms) (s.saveScopeMappings ms) := by
  rw [saveScopeMappings]
  cases hbegin : s.link 0 with
  | some failure => exact .failed (databaseFailed_of_link hbegin (dbError_eq failure.error))
  | none =>
      rcases insertAll_cases s.link 1 s.db.scopeMappings ms with hrows | hfailed
      · simp only [hrows, PostgresResourceStore.saveScopeMappings]
        cases ms.foldlM insertScopeMapping s.db.scopeMappings with
        | error e => exact .answered
        | ok table =>
            simp only
            cases hcommit : s.link (ms.length + 1) with
            | none => exact .answered
            | some failure =>
                have hlost := @databaseFailed_of_link Unit s.link _ failure hcommit _
                  (dbError_eq failure.error)
                simp only
                cases failure.applied with
                | true => exact .unconfirmed hlost
                | false => exact .failed hlost
      · obtain ⟨hfails, msg, herror⟩ := hfailed
        simp only [herror]
        exact .failed ⟨hfails, msg, rfl⟩

/-- **How a write ends.** Each operation that writes ends as over the tables, or fails
before or after its one commit. -/
theorem written (s : LinkedDatabase) (w : StoreWrite) :
    Written s (ResourceStore.write s.db w) (ResourceStore.write s w) := by
  have hdb : ∀ failure : Failure, ∃ msg, dbError failure.error = .databaseError msg :=
    fun failure => dbError_eq failure.error
  cases w with
  | saveMapping m => exact written_execute s _ (insertError_eq m.clientIdentifier)
  | updateMapping m => exact written_execute s _ hdb
  | removeMapping c x => exact written_execute s _ hdb
  | removeMappingsFor c => exact written_execute s _ hdb
  | saveScopeMappings ms => exact written_saveScopeMappings s ms
  | updateScopeMapping m => exact written_execute s _ hdb
  | removeScopeMapping scope => exact written_execute s _ hdb

/-- **How a resolution ends.** It answers as over the tables, or fails in either of its
two statements. -/
theorem resolveMapping_cases (s : LinkedDatabase) (c x : String) :
    s.resolveMapping c x = PostgresResourceStore.resolveMapping s.db c x ∨
      DatabaseFailed s.link (s.resolveMapping c x) := by
  rw [resolveMapping, PostgresResourceStore.resolveMapping]
  rcases s.query_cases 0 (selectMapping s.db c x) with hrow | ⟨hfails, msg, herror⟩
  · rw [hrow]
    cases selectMapping s.db c x with
    | none => exact Or.inl rfl
    | some m =>
        rcases s.query_cases 1 (selectScopeMappings s.db m) with hscopes | ⟨hfails, msg, herror⟩
        · simp only [hscopes]
          exact Or.inl rfl
        · simp only [herror]
          exact Or.inr ⟨hfails, msg, rfl⟩
  · rw [herror]
    exact Or.inr ⟨hfails, msg, rfl⟩

end LinkedDatabase

/-- The service answered with an error of the database, for which it has one error in each
kind of answer. -/
inductive ServiceAnswer.DatabaseFailed : ServiceAnswer → Prop
  | done (msg : String) : DatabaseFailed (.done (.error (.databaseError msg)))
  | verified (msg : String) : DatabaseFailed (.verified (.error (.databaseError msg)))
  | mappings (msg : String) : DatabaseFailed (.mappings (.error (.databaseError msg)))
  | scopeMappings (msg : String) : DatabaseFailed (.scopeMappings (.error (.databaseError msg)))

/-- How a step over the tables ends that would end as `answered`: so, or with a failure,
before or after it has taken effect.  `Failed` says what the caller is told of a failure.
-/
inductive Ended {O : Type} (link : Link) (db : Database) (answered : O × Database)
    (Failed : O → Prop) : O × Database → Prop
  | answered : Ended link db answered Failed answered
  | failed {o : O} (hlink : link.Fails) (ho : Failed o) : Ended link db answered Failed (o, db)
  | unconfirmed {o : O} (hlink : link.Fails) (ho : Failed o) :
      Ended link db answered Failed (o, answered.2)

/-- A step leaves the tables alone or has its whole effect, and there is nothing in
between. -/
theorem Ended.next {O : Type} {link : Link} {db : Database} {answered ended : O × Database}
    {Failed : O → Prop} (h : Ended link db answered Failed ended) :
    ended.2 = db ∨ ended.2 = answered.2 := by
  cases h with
  | answered => exact Or.inr rfl
  | failed hlink ho => exact Or.inl rfl
  | unconfirmed hlink ho => exact Or.inr rfl

section Operations

variable (s : LinkedDatabase)

/-- `verify` answers as over the tables, or with an error of the database.  What it reads
before a failure is thrown away. -/
theorem verify_cases (c x : String) (scopes : List String) :
    ResourceService.verify s c x scopes = ResourceService.verify s.db c x scopes ∨
      LinkedDatabase.DatabaseFailed s.link (ResourceService.verify s c x scopes) := by
  rcases s.resolveMapping_cases c x with hsame | ⟨hfails, msg, herror⟩
  · left
    simp only [ResourceService.verify]
    change (s.resolveMapping c x >>= _) = (PostgresResourceStore.resolveMapping s.db c x >>= _)
    rw [hsame]
  · right
    refine ⟨hfails, msg, ?_⟩
    simp only [ResourceService.verify]
    change (s.resolveMapping c x >>= _) = _
    rw [herror]
    rfl

/-- An operation that writes nothing answers as over the tables, or with an error of the
database. -/
theorem read_cases {op : ServiceOp} (h : op.accepted = none) :
    (op.perform s).1 = (op.perform s.db).1 ∨
      (s.link.Fails ∧ ServiceAnswer.DatabaseFailed (op.perform s).1) := by
  cases op with
  | verify c x scopes =>
      simp only [ServiceOp.perform]
      rcases verify_cases s c x scopes with hsame | ⟨hfails, msg, herror⟩
      · exact Or.inl (congrArg ServiceAnswer.verified hsame)
      · rw [herror]
        exact Or.inr ⟨hfails, .verified msg⟩
  | listMappings =>
      have hlist : (ServiceOp.listMappings.perform s).1 =
          .mappings ((s.query 0 s.db.resourceMappings.rows).map
            (List.map PostgresResourceStore.rowToResourceMapping)) := rfl
      rw [hlist]
      rcases s.query_cases 0 s.db.resourceMappings.rows with hrows | ⟨hfails, msg, herror⟩
      · rw [hrows]
        exact Or.inl rfl
      · rw [herror]
        exact Or.inr ⟨hfails, .mappings msg⟩
  | listScopeMappings =>
      have hlist : (ServiceOp.listScopeMappings.perform s).1 =
          .scopeMappings ((s.query 0 s.db.scopeMappings.rows).map
            (List.map PostgresResourceStore.rowToScopeMapping)) := rfl
      rw [hlist]
      rcases s.query_cases 0 s.db.scopeMappings.rows with hrows | ⟨hfails, msg, herror⟩
      · rw [hrows]
        exact Or.inl rfl
      · rw [herror]
        exact Or.inr ⟨hfails, .scopeMappings msg⟩
  | save m =>
      obtain ⟨e, he⟩ := passOn_eq_none_iff.mp h
      simp [ServiceOp.perform, ResourceService.save, he, writing]
  | update m =>
      obtain ⟨e, he⟩ := passOn_eq_none_iff.mp h
      simp [ServiceOp.perform, ResourceService.update, he, writing]
  | saveScopeMappings ms =>
      obtain ⟨e, he⟩ := passOn_eq_none_iff.mp h
      simp [ServiceOp.perform, ResourceService.saveScopeMappings, he, writing]
  | updateScopeMapping m =>
      obtain ⟨e, he⟩ := passOn_eq_none_iff.mp h
      simp [ServiceOp.perform, ResourceService.updateScopeMapping, he, writing]
  | remove c x => cases h
  | removeFor c => cases h
  | deleteScopeMapping scope => cases h

/-- **How an operation ends.** It is one write, or it writes nothing, and either way has
ended in one of the three ways. -/
theorem perform_ended (op : ServiceOp) :
    Ended s.link s.db (op.perform s.db) ServiceAnswer.DatabaseFailed
      ((op.perform s).1, (op.perform s).2.db) := by
  cases haccepted : op.accepted with
  | some w =>
      rw [perform_of_accepted haccepted, perform_of_accepted haccepted]
      have hwritten := s.written w
      generalize ResourceStore.write s w = ended at hwritten ⊢
      cases hwritten with
      | answered => exact .answered
      | failed hr =>
          obtain ⟨hfails, msg, rfl⟩ := hr
          exact .failed hfails (.done msg)
      | unconfirmed hr =>
          obtain ⟨hfails, msg, rfl⟩ := hr
          exact .unconfirmed hfails (.done msg)
  | none =>
      rw [(perform_of_not_accepted haccepted s).1]
      rcases read_cases s haccepted with hsame | ⟨hfails, hfailed⟩
      · have hpair : ((op.perform s).1, s.db) = op.perform s.db :=
          Prod.ext hsame (perform_of_not_accepted haccepted s.db).1.symm
        rw [hpair]
        exact .answered
      · exact .failed hfails hfailed

/-- The same with any order of a validation, which is over before the first round trip. -/
theorem performIn_ended (op : ServiceOp) {order : SetOrder} (horder : order.Lawful) :
    Ended s.link s.db (op.performIn order s.db) ServiceAnswer.DatabaseFailed
      ((op.performIn order s).1, (op.performIn order s).2.db) := by
  rcases performIn_cases op with hsame | ⟨m, -, hnamed⟩
  · rw [hsame order horder, hsame order horder]
    exact perform_ended s op
  · obtain ⟨scope, -, -, hrefused⟩ := hnamed order horder
    rw [hrefused, hrefused]
    exact .answered

/-- The token endpoint answers as over the tables, or has no answer of the store and
calls no generator. -/
theorem tokenExchange_cases (svc : TokenExchangeService) (env : Environment)
    (form : TokenExchangeForm) :
    tokenExchange svc s env form = tokenExchange svc s.db env form ∨
      (s.link.Fails ∧
        tokenExchange svc s env form = (oauthError .internalServerError "server_error", [])) := by
  simp only [tokenExchange_eq_phases]
  cases prepareExchange svc form with
  | error response => exact Or.inl rfl
  | ok c =>
      rcases verify_cases s c.sub form.resource form.scopeSet.toList with
        hsame | ⟨hfails, msg, herror⟩
      · exact Or.inl (congrArg (finishExchange svc env form c) hsame)
      · simp only [herror]
        exact Or.inr ⟨hfails, rfl⟩

/-- Only the token endpoint of its port asks the database, so that the other routes are
always served. -/
theorem handleExchange_cases (rt : JwtletRuntime κ) (outside : Surroundings κ)
    (request : ExchangeRequest) :
    handleExchange rt s outside request = handleExchange rt s.db outside request ∨
      (s.link.Fails ∧ handleExchange rt s outside request =
        { response := .token (oauthError .internalServerError "server_error") }) := by
  unfold handleExchange
  cases request.route with
  | error code => exact Or.inl rfl
  | ok handler =>
      cases handler with
      | health => exact Or.inl rfl
      | getSwkSet => exact Or.inl rfl
      | getAuthorizationServerMetadata => exact Or.inl rfl
      | tokenExchange =>
          cases request.form with
          | error r => exact Or.inl rfl
          | ok pairs =>
              cases hform : TokenExchangeForm.deserialize pairs with
              | none => simp [hform]
              | some form =>
                  rcases tokenExchange_cases s (rt.exchangeService outside) outside.env form with
                    hsame | ⟨hfails, hfailed⟩
                  · simp [hform, hsame]
                  · simp [hform, hfailed, hfails]

end Operations

/-- The server could not ask the database: status 500 without a reason, no event and no
call of the generator. -/
inductive ServerAnswer.Unavailable : ServerAnswer κ → Prop
  | token :
      Unavailable { response := .token (oauthError .internalServerError "server_error") }
  | management :
      Unavailable { response := .management StatusCode.internalServerError.intoResponse }

/-- A request with what is left open while it is handled: how its round trips end, and the
order in which the validation meets the scopes of a mapping. -/
structure FailingRequest (κ : Type) where
  ev : ServerEvent κ
  link : Link
  order : SetOrder
  lawful : order.Lawful

/-- One request to the server over Postgres, with the failures of its round trips.  The
handlers are those of the other modules, over a store that fails. -/
def JwtletRuntime.failingStep (rt : JwtletRuntime κ) (db : Database) (i : FailingRequest κ) :
    ServerAnswer κ × Database :=
  let ended := rt.stepIn ({ db, link := i.link } : LinkedDatabase) (i.order, i.ev)
  (ended.1, ended.2.db)

/-- An operation that failed is answered with status 500 and not logged, even where it has
taken effect. -/
theorem unavailable_of_failed {answer : ServiceAnswer} (h : answer.DatabaseFailed) (op : ServiceOp)
    (actor : String) (method : Method) :
    ServerAnswer.Unavailable
      ({ response := .management ((op.respond answer).forMethod method)
         events := op.auditEvents actor answer } : ServerAnswer κ) := by
  have hmethod : StatusCode.internalServerError.intoResponse.forMethod method =
      StatusCode.internalServerError.intoResponse := by
    rw [Response.forMethod]
    split <;> rfl
  have hresponse : op.respond answer = StatusCode.internalServerError.intoResponse := by
    cases h <;> rfl
  have hevents : op.auditEvents actor answer = [] := by
    cases h <;> rfl
  rw [hresponse, hevents, hmethod]
  exact .management

/-- **How a request ends.**  Whatever fails, it is answered as over a database without
failures, with the same effect; or with status 500, and has then done nothing or all that
it does. -/
theorem failingStep_cases (rt : JwtletRuntime κ) (db : Database) (i : FailingRequest κ) :
    Ended i.link db (rt.stepIn db (i.order, i.ev)) ServerAnswer.Unavailable
      (rt.failingStep db i) := by
  obtain ⟨ev, link, order, horder⟩ := i
  rw [JwtletRuntime.failingStep]
  cases hop : ev.operation rt with
  | some found =>
      obtain ⟨actor, op⟩ := found
      obtain ⟨request, hrequest, -⟩ := @step_of_operation κ Database _ rt ev actor op hop
      have hended := performIn_ended { db, link } op horder
      simp only [JwtletRuntime.stepIn, hop, hrequest] at hended ⊢
      generalize (op.performIn order ({ db, link } : LinkedDatabase)).1 = answer at hended ⊢
      generalize (op.performIn order ({ db, link } : LinkedDatabase)).2.db = next at hended ⊢
      generalize op.performIn order db = answered at hended ⊢
      cases hended with
      | answered => exact .answered
      | failed hfails hfailed =>
          exact .failed hfails (unavailable_of_failed hfailed op actor request.method)
      | unconfirmed hfails hfailed =>
          exact .unconfirmed hfails (unavailable_of_failed hfailed op actor request.method)
  | none =>
      simp only [JwtletRuntime.stepIn, hop]
      have hnext : (rt.step ({ db, link } : LinkedDatabase) ev).2.db = db := by
        rw [step_of_no_operation hop]
      have hsound : (rt.step ({ db, link } : LinkedDatabase) ev).1 = (rt.step db ev).1 →
          Ended link db (rt.step db ev) ServerAnswer.Unavailable
            ((rt.step ({ db, link } : LinkedDatabase) ev).1, db) := by
        intro hsame
        have hpair : ((rt.step ({ db, link } : LinkedDatabase) ev).1, db) = rt.step db ev :=
          Prod.ext hsame (step_of_no_operation hop db).symm
        rw [hpair]
        exact .answered
      simp only [hnext]
      cases hrequest : ev.request with
      | management request => exact hsound (answer_of_no_operation hop hrequest _ _)
      | exchange request =>
          simp only [JwtletRuntime.step, hrequest] at hsound ⊢
          rcases handleExchange_cases { db, link } rt ev.outside request with
            hsame | ⟨hfails, hfailed⟩
          · exact hsound hsame
          · rw [hfailed]
            exact .failed hfails .token

/-- The request could not be served: a round trip failed, and the answer is that.  It does
not say whether the request has taken effect. -/
def Unserved (i : FailingRequest κ) (answer : ServerAnswer κ) : Prop :=
  i.link.Fails ∧ answer.Unavailable

/-- The answer to a request that does not fail, next to that of a server over memory that
meets its sets in ascending order: alike up to what Rust leaves open. -/
def FailingRequest.Alike (rt : JwtletRuntime κ) (i : FailingRequest κ)
    (answer answer' : ServerAnswer κ) : Prop :=
  answer.AlikeFor rt i.ev answer'

/-- From agreeing stores, a request that nothing fails for is a step of both servers. -/
theorem stepIn_database {σ : Type} [PolicyStore σ] {rt : JwtletRuntime κ} {store : σ}
    {db : Database} (h : Agree store db) (i : FailingRequest κ) :
    i.Alike rt (rt.step store i.ev).1 (rt.stepIn db (i.order, i.ev)).1 ∧
      Agree (rt.step store i.ev).2 (rt.stepIn db (i.order, i.ev)).2 := by
  have hagree := stepIn_agree rt h ascendingOrder_lawful i.lawful i.ev
  rwa [stepIn_ascending] at hagree

/-- Each step over the database that fails is a step over memory, or is unserved.  The
relation of the two stores is that they hold the same policy. -/
theorem failingStep_faulty (rt : JwtletRuntime κ) :
    FaultyStep (S := InnerStore) rt.step rt.failingStep FailingRequest.ev
      (FailingRequest.Alike rt) Unserved Agree := by
  intro store db i hagree
  obtain ⟨halike, hnext⟩ := @stepIn_database κ InnerStore _ rt store db hagree i
  have hended := failingStep_cases rt db i
  generalize rt.failingStep db i = ended at hended ⊢
  cases hended with
  | answered => exact Or.inl ⟨halike, hnext⟩
  | failed hfails hanswer => exact Or.inr ⟨⟨hfails, hanswer⟩, Or.inl hagree⟩
  | unconfirmed hfails hanswer => exact Or.inr ⟨⟨hfails, hanswer⟩, Or.inr hnext⟩

/-- **Failures are tolerated.**  Whatever fails in a run of the server over Postgres, some
of its requests have taken effect, each once and in the order of the run, and these alone
explain it.  A request is answered as by a server over memory that never fails, after
those before it that took effect; or a round trip of it failed, and it is answered with
status 500.  The tables end with the policy of that server.  A token is issued only if
the requests that took effect permit it, and with the claims that they define. -/
theorem failures_tolerated (rt : JwtletRuntime κ) (requests : List (FailingRequest κ)) :
    ∃ kept,
      Tolerates rt.step MemoryResourceStore.new FailingRequest.ev (FailingRequest.Alike rt) Unserved
        (history rt.failingStep PostgresResourceStore.initialized requests) kept ∧
      Agree (rt.storeAfter kept) (after rt.failingStep PostgresResourceStore.initialized requests) ∧
      kept.Sublist (requests.map FailingRequest.ev) ∧
      ((∀ i ∈ requests, ¬ i.link.Fails) → kept = requests.map FailingRequest.ev) ∧
      ∀ before i answer later,
        history rt.failingStep PostgresResourceStore.initialized requests =
          before ++ (i, answer) :: later →
        ∀ call ∈ answer.calls, ∃ pre post form c m, kept = pre ++ i.ev :: post ∧
          pre.Sublist (before.map fun e => e.1.ev) ∧ i.ev.tokenForm = some form ∧
          Permitted rt (rt.historyOf pre) i.ev.outside form c m ∧
          IssuedFrom rt (rt.historyOf pre) i.ev.outside.env form c call.claims := by
  have hempty : Agree MemoryResourceStore.new PostgresResourceStore.initialized := agree_empty
  obtain ⟨kept, htolerates, hagree⟩ := tolerates_run (failingStep_faulty rt) hempty requests
  have hinputs : (history rt.failingStep PostgresResourceStore.initialized requests).map
      (fun e => e.1.ev) = requests.map FailingRequest.ev := by
    have hall := congrArg (List.map FailingRequest.ev)
      (history_inputs rt.failingStep PostgresResourceStore.initialized requests)
    rwa [List.map_map] at hall
  refine ⟨kept, htolerates, hagree, hinputs ▸ htolerates.sublist, fun hsound => ?_,
    fun before i answer later hentries call hcall => ?_⟩
  · rw [← hinputs]
    refine htolerates.eq_of_sound fun e he hunserved => hsound e.1 ?_ hunserved.1
    have hmem := List.mem_map_of_mem (f := Prod.fst) he
    rw [history_inputs] at hmem
    exact hmem
  rw [hentries] at htolerates
  have hserved : ¬ Unserved i answer := by
    intro hunserved
    obtain ⟨-, hunavailable⟩ := hunserved
    cases hunavailable <;> cases hcall
  obtain ⟨pre, post, hkept, hpre, halike⟩ := htolerates.answer hserved
  rw [← halike.calls] at hcall
  cases hform : i.ev.tokenForm with
  | none =>
      rw [calls_of_no_form hform] at hcall
      cases hcall
  | some form =>
      rw [step_of_tokenForm hform] at hcall
      obtain ⟨c, m, hpermitted, hissued⟩ := issuedFrom_of_call hcall
      exact ⟨pre, post, form, c, m, hkept, hpre.sublist, rfl, hpermitted, hissued⟩

/-- The write that a request asks the store for, if it asks for one and validation accepts
it. -/
def ServerEvent.write (rt : JwtletRuntime κ) (ev : ServerEvent κ) : Option StoreWrite :=
  (ev.operation rt).bind fun found => found.2.accepted

section Retries

variable {σ : Type} [PolicyStore σ] {rt : JwtletRuntime κ}

end Retries

end Jwtlet

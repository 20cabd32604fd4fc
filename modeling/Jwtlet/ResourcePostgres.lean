import Jwtlet.PolicyModel
import Jwtlet.PrimaryKeyTable

/-!
# The Postgres resource store

`jwtlet-postgres/src/resource_store.rs` over two tables with primary keys.  A
statement is one atomic function of the committed tables.  The batch insert
runs on a private copy, the transaction, which replaces the tables at the
commit and is dropped when a statement fails.  The only database error that a
statement reports here is the unique violation; `DatabaseFailures` adds the others.

Texts and JSON values are assumed to be stored as they are written.  A real `TEXT`
column refuses U+0000, and a `JSONB` column keeps the value of a number but not its
spelling, so that `-0.0` is read back as `0.0`: records with such values are left out.
-/

namespace Jwtlet

open Rust Sql

/-- A row of `resource_mappings`.  The sets are `TEXT[]` columns, so they are lists here,
and a row could have repetitions in them. -/
structure ResourceMappingRow where
  clientIdentifier : String
  participantContext : String
  scopes : List String
  audiences : List String
  deriving DecidableEq

/-- A row of `scope_mappings`.  The claims are a `JSONB` column, which could hold a value
that is no object. -/
structure ScopeMappingRow where
  scope : String
  claims : Json
  deriving DecidableEq

/-- The primary key of `resource_mappings`: the client and the context. -/
def ResourceMappingRow.key (row : ResourceMappingRow) : String × String :=
  (row.clientIdentifier, row.participantContext)

/-- The two tables of the schema, as far as they are committed. -/
structure Database where
  resourceMappings : Table ResourceMappingRow (String × String) ResourceMappingRow.key
  scopeMappings : Table ScopeMappingRow String ScopeMappingRow.scope

/-- `sqlx::Error`, as far as the store looks at it: an error that the database reports has
a code, and any other has only a text. -/
inductive SqlxError where
  | database (code : String) (msg : String)
  | other (msg : String)

namespace PostgresResourceStore

/-- A fresh database after `initialize`: both tables are there and have no rows. -/
def initialized : Database := { resourceMappings := .empty, scopeMappings := .empty }

/-- `row_to_resource_mapping`: the columns of a row, with the lists read as sets. -/
def rowToResourceMapping (row : ResourceMappingRow) : ResourceMapping where
  clientIdentifier := row.clientIdentifier
  participantContext := row.participantContext
  scopes := Std.ExtTreeSet.ofList row.scopes compare
  audiences := Std.ExtTreeSet.ofList row.audiences compare

/-- `row_to_scope_mapping`: a value in the claims column that is no object reads as no
claims. -/
def rowToScopeMapping (row : ScopeMappingRow) : ScopeMapping where
  scope := row.scope
  claims := row.claims.toMap

/-- `db_error`: every error becomes a database error with its text, which no response
shows. -/
def dbError : SqlxError → ResourceError
  | .database _ msg => .databaseError msg
  | .other msg => .databaseError msg

/-- `is_unique_violation`: error 23505 of the database, by which an `INSERT` reports that
its key is taken. -/
def isUniqueViolation : SqlxError → Bool
  | .database code _ => code == "23505"
  | .other _ => false

/-- The row that an `INSERT` of a mapping binds, with its sets written as lists. -/
def resourceMappingRow (mapping : ResourceMapping) : ResourceMappingRow where
  clientIdentifier := mapping.clientIdentifier
  participantContext := mapping.participantContext
  scopes := mapping.scopes.toList
  audiences := mapping.audiences.toList

/-- The row that an `INSERT` of a scope mapping binds, with its claims as a JSON object.
-/
def scopeMappingRow (mapping : ScopeMapping) : ScopeMappingRow where
  scope := mapping.scope
  claims := Json.ofMap mapping.claims

/-- Run an `INSERT`.  A taken key is error 23505, and the table stays as it is. -/
def executeInsert {R K : Type} {key : R → K} [DecidableEq K] (table : Table R K key) (row : R) :
    Except SqlxError (Table R K key) :=
  match table.insert row with
  | some table' => .ok table'
  | none => .error (.database "23505" "duplicate key value violates unique constraint")

/-- The error of a failed `INSERT` for the record named `id`: a conflict if its key is
taken, else an error of the database. -/
def insertError (id : String) (e : SqlxError) : ResourceError :=
  if isUniqueViolation e then .conflict id else dbError e

/-- The first statement of `resolve_mapping`, which reads the row of the client and the
context, if there is one. -/
def selectMapping (db : Database) (clientIdentifier participantContext : String) :
    Option ResourceMapping :=
  (db.resourceMappings.select fun row =>
    row.clientIdentifier == clientIdentifier &&
      row.participantContext == participantContext).head?.map rowToResourceMapping

/-- The second statement of `resolve_mapping`: the rows whose scope is among the scopes of
the mapping that the first one read. -/
def selectScopeMappings (db : Database) (resourceMapping : ResourceMapping) :
    HashMap String ScopeMapping :=
  let scopes := resourceMapping.scopes.toList
  Std.ExtTreeMap.ofList
    ((db.scopeMappings.select fun row => scopes.contains row.scope).map fun row =>
      let sm := rowToScopeMapping row
      (sm.scope, sm)) compare

/-- `resolve_mapping`, when nothing is written between its two statements.  The other case
is that of `ResolveInterleaving`. -/
def resolveMapping (db : Database) (clientIdentifier participantContext : String) :
    Except ResourceError (Option MappingPair) :=
  match selectMapping db clientIdentifier participantContext with
  | none => .ok none
  | some resourceMapping =>
      .ok (some { resourceMapping, scopeMappings := selectScopeMappings db resourceMapping })

/-- `save_mapping`: an `INSERT`, whose unique violation is the conflict. -/
def saveMapping (db : Database) (mapping : ResourceMapping) :
    Except ResourceError Unit × Database :=
  match executeInsert db.resourceMappings (resourceMappingRow mapping) with
  | .ok table => (.ok (), { db with resourceMappings := table })
  | .error e => (.error (insertError mapping.clientIdentifier e), db)

/-- The columns that an `UPDATE` of a mapping sets.  The key columns are not among them.
-/
def setMappingColumns (mapping : ResourceMapping) (row : ResourceMappingRow) :
    ResourceMappingRow :=
  { row with
    scopes := mapping.scopes.toList
    audiences := mapping.audiences.toList }

/-- `update_mapping`: an `UPDATE` of the row with the key, and an error if it affected no
row. -/
def updateMapping (db : Database) (mapping : ResourceMapping) :
    Except ResourceError Unit × Database :=
  let (rowsAffected, table) := db.resourceMappings.updateKey
    (mapping.clientIdentifier, mapping.participantContext) (setMappingColumns mapping)
    (fun _ => rfl)
  if rowsAffected == 0 then
    (.error (.notFound mapping.clientIdentifier), { db with resourceMappings := table })
  else
    (.ok (), { db with resourceMappings := table })

/-- `remove_mapping`: a `DELETE` of the row with the key, whose count is not looked at. -/
def removeMapping (db : Database) (clientIdentifier participantContext : String) :
    Except ResourceError Unit × Database :=
  (.ok (), { db with
    resourceMappings := db.resourceMappings.delete fun row =>
      row.key = (clientIdentifier, participantContext) })

/-- `remove_mappings_for`: a `DELETE` of the rows of the client, in every context. -/
def removeMappingsFor (db : Database) (clientIdentifier : String) :
    Except ResourceError Unit × Database :=
  (.ok (), { db with
    resourceMappings := db.resourceMappings.delete fun row =>
      row.key.1 = clientIdentifier })

/-- One `INSERT` of the batch, on the table that the transaction sees: with the rows that
it has inserted before. -/
def insertScopeMapping
    (table : Table ScopeMappingRow String ScopeMappingRow.scope) (mapping : ScopeMapping) :
    Except ResourceError (Table ScopeMappingRow String ScopeMappingRow.scope) :=
  match executeInsert table (scopeMappingRow mapping) with
  | .ok table' => .ok table'
  | .error e => .error (insertError mapping.scope e)

/-- `save_scope_mappings`: the `INSERT`s of the batch in one transaction, which is
committed after the last one or rolled back. -/
def saveScopeMappings (db : Database) (mappings : List ScopeMapping) :
    Except ResourceError Unit × Database :=
  match mappings.foldlM insertScopeMapping db.scopeMappings with
  | .ok table => (.ok (), { db with scopeMappings := table })
  | .error e => (.error e, db)

/-- The column that an `UPDATE` of a scope mapping sets.  The scope itself is the key and
stays. -/
def setScopeColumns (mapping : ScopeMapping) (row : ScopeMappingRow) : ScopeMappingRow :=
  { row with claims := Json.ofMap mapping.claims }

/-- `update_scope_mapping`: an `UPDATE` of the row with the scope, and an error if it
affected no row. -/
def updateScopeMapping (db : Database) (mapping : ScopeMapping) :
    Except ResourceError Unit × Database :=
  let (rowsAffected, table) := db.scopeMappings.updateKey mapping.scope
    (setScopeColumns mapping) (fun _ => rfl)
  if rowsAffected == 0 then
    (.error (.notFound mapping.scope), { db with scopeMappings := table })
  else
    (.ok (), { db with scopeMappings := table })

/-- `remove_scope_mapping`: a `DELETE` of the row with the scope, whose count is not
looked at. -/
def removeScopeMapping (db : Database) (scope : String) :
    Except ResourceError Unit × Database :=
  (.ok (), { db with
    scopeMappings := db.scopeMappings.delete fun row => row.scope = scope })

/-- `list_mappings`: all rows of the table, in an order that SQL leaves open. -/
def listMappings (db : Database) : Except ResourceError (List ResourceMapping) :=
  .ok (db.resourceMappings.rows.map rowToResourceMapping)

/-- `list_scope_mappings`: all rows of the table, in an order that SQL leaves open. -/
def listScopeMappings (db : Database) : Except ResourceError (List ScopeMapping) :=
  .ok (db.scopeMappings.rows.map rowToScopeMapping)

instance : ResourceStore Database where
  resolveMapping := resolveMapping
  saveMapping := saveMapping
  updateMapping := updateMapping
  removeMapping := removeMapping
  removeMappingsFor := removeMappingsFor
  saveScopeMappings := saveScopeMappings
  updateScopeMapping := updateScopeMapping
  removeScopeMapping := removeScopeMapping
  listMappings := listMappings
  listScopeMappings := listScopeMappings

/-- The policy held by the two tables: looking up a key is reading the row that has it. -/
def policy (db : Database) : Policy where
  mapping := fun k => (db.resourceMappings.lookup k).map rowToResourceMapping
  scope := fun s => (db.scopeMappings.lookup s).map rowToScopeMapping

/-- The mapping in force for a key is what its row reads as. -/
@[simp] theorem policy_mapping (db : Database) (k : String × String) :
    (policy db).mapping k = (db.resourceMappings.lookup k).map rowToResourceMapping := rfl

/-- The scope mapping in force for a scope is what its row reads as. -/
@[simp] theorem policy_scope (db : Database) (s : String) :
    (policy db).scope s = (db.scopeMappings.lookup s).map rowToScopeMapping := rfl

/-- A mapping written as a row reads back as written: its sets have no order that could
get lost. -/
@[simp] theorem rowToResourceMapping_row (m : ResourceMapping) :
    rowToResourceMapping (resourceMappingRow m) = m := by
  simp [rowToResourceMapping, resourceMappingRow, setOfList_toList]

/-- A scope mapping written as a row reads back as written: its claims are an object. -/
@[simp] theorem rowToScopeMapping_row (m : ScopeMapping) :
    rowToScopeMapping (scopeMappingRow m) = m := by
  simp [rowToScopeMapping, scopeMappingRow]

/-- A row of the same key takes all its other columns from an `UPDATE`, so it reads as the
new mapping afterwards. -/
theorem rowToResourceMapping_setMappingColumns (m : ResourceMapping) (row : ResourceMappingRow)
    (hrow : row.key = (m.clientIdentifier, m.participantContext)) :
    rowToResourceMapping (setMappingColumns m row) = m := by
  obtain ⟨hclient, hcontext⟩ := Prod.mk.inj hrow
  simp [rowToResourceMapping, setMappingColumns, setOfList_toList, hclient, hcontext]

/-- A row of the same scope takes its claims from an `UPDATE`, so it reads as the new
scope mapping afterwards. -/
theorem rowToScopeMapping_setScopeColumns (m : ScopeMapping) (row : ScopeMappingRow)
    (hrow : row.scope = m.scope) : rowToScopeMapping (setScopeColumns m row) = m := by
  simp [rowToScopeMapping, setScopeColumns, hrow]

@[simp] theorem key_resourceMappingRow (m : ResourceMapping) :
    (resourceMappingRow m).key = m.key := rfl

@[simp] theorem scope_scopeMappingRow (m : ScopeMapping) :
    (scopeMappingRow m).scope = m.scope := rfl

/-- An `INSERT` of a taken key is a unique violation, reported as a conflict; any
other `INSERT` adds its row. -/
theorem executeInsert_spec {R K : Type} {key : R → K} [DecidableEq K]
    (table : Table R K key) (row : R) :
    (∃ e, executeInsert table row = .error e ∧ (table.lookup (key row)).isSome = true ∧
      ∀ id, insertError id e = .conflict id) ∨
    (∃ table', executeInsert table row = .ok table' ∧
      (table.lookup (key row)).isSome = false ∧
      ∀ k, table'.lookup k = if key row = k then some row else table.lookup k) := by
  have hnone := @Table.insert_eq_none_iff R K key _ table row
  rw [executeInsert]
  cases hinsert : table.insert row with
  | none => exact Or.inl ⟨_, rfl, hnone.mp hinsert, fun _ => rfl⟩
  | some table' =>
      refine Or.inr ⟨table', rfl, ?_, Table.lookup_insert hinsert⟩
      rw [Bool.eq_false_iff, Ne, ← hnone, hinsert]
      simp

/-- Reading a table through a row conversion after an `INSERT`: the new row is read under
its own key, and the rest as before. -/
private theorem map_lookup_insert {R K A : Type} {key : R → K} [DecidableEq K]
    {table table' : Table R K key} {row : R} (read : R → A)
    (h : ∀ k, table'.lookup k = if key row = k then some row else table.lookup k) :
    (fun k => (table'.lookup k).map read) =
      Function.update (fun k => (table.lookup k).map read) (key row) (some (read row)) := by
  funext k
  rw [h, Function.update_apply]
  by_cases hk : key row = k
  · simp [hk]
  · simp [hk, Ne.symm hk]

/-- Reading a table through a row conversion after an `UPDATE` of one key, under
which the new row reads as `a`: no row is counted and nothing changes, or a row
is counted and the key reads as `a`. -/
private theorem updateKey_spec {R K A : Type} {key : R → K} [DecidableEq K]
    (table : Table R K key) (read : R → A) (k₀ : K) (f : R → R)
    (hf : ∀ r, key (f r) = key r) {a : A} (ha : ∀ r, key r = k₀ → read (f r) = a) :
    ((table.lookup k₀).isSome = false ∧ ((table.updateKey k₀ f hf).1 == 0) = true ∧
      (fun k => ((table.updateKey k₀ f hf).2.lookup k).map read) =
        fun k => (table.lookup k).map read) ∨
    ((table.lookup k₀).isSome = true ∧ ((table.updateKey k₀ f hf).1 == 0) = false ∧
      (fun k => ((table.updateKey k₀ f hf).2.lookup k).map read) =
        Function.update (fun k => (table.lookup k).map read) k₀ (some a)) := by
  have hzero := table.updateKey_count_eq_zero_iff k₀ f hf
  cases hrow : table.lookup k₀ with
  | none =>
      refine Or.inl ⟨rfl, beq_iff_eq.mpr (hzero.mpr hrow), ?_⟩
      funext k
      rw [Table.lookup_updateKey]
      by_cases hk : k₀ = k
      · subst hk
        simp [hrow]
      · simp [hk]
  | some row =>
      have hcount : (table.updateKey k₀ f hf).1 ≠ 0 := by
        rw [Ne, hzero, hrow]
        simp
      refine Or.inr ⟨rfl, beq_eq_false_iff_ne.mpr hcount, ?_⟩
      funext k
      rw [Table.lookup_updateKey, Function.update_apply]
      by_cases hk : k₀ = k
      · subst hk
        simp [hrow, ha row (Table.key_of_lookup hrow)]
      · simp [hk, Ne.symm hk]

/-- The first statement reads the mapping in force.  Since keys are distinct there is no
other row to choose. -/
theorem selectMapping_eq (db : Database) (c x : String) :
    selectMapping db c x = (policy db).mapping (c, x) := by
  rw [selectMapping, Table.select, List.head?_filter, policy_mapping, Table.lookup]
  congr 2
  funext row
  rw [Bool.eq_iff_iff]
  simp [ResourceMappingRow.key]

/-- The second statement reads the scope mappings in force of the given scopes, and none
of any other scope. -/
theorem getElem?_selectScopeMappings (db : Database) (m : ResourceMapping) (s : String) :
    (selectScopeMappings db m)[s]? = if s ∈ m.scopes then (policy db).scope s else none := by
  have hnodup : (((db.scopeMappings.select fun row => m.scopes.toList.contains row.scope).map
      fun row => ((rowToScopeMapping row).scope, rowToScopeMapping row)).map Prod.fst).Nodup := by
    rw [List.map_map]
    exact db.scopeMappings.unique.sublist (List.filter_sublist.map _)
  apply Option.ext
  intro sm
  simp only [selectScopeMappings]
  rw [getElem?_ofList hnodup]
  simp only [Table.select, List.mem_map, List.mem_filter, List.contains_iff_mem,
    Std.ExtTreeSet.mem_toList, Prod.mk.injEq, policy_scope]
  constructor
  · intro h
    obtain ⟨row, ⟨hrow, hscope⟩, rfl, rfl⟩ := h
    have hlookup := Table.mem_rows_iff.mp hrow
    simp [rowToScopeMapping, hscope, hlookup]
  · intro h
    split at h
    · next hs =>
      obtain ⟨row, hrow, rfl⟩ := Option.map_eq_some_iff.mp h
      have hkey := Table.key_of_lookup hrow
      subst hkey
      exact ⟨row, ⟨Table.mem_rows_iff.mpr hrow, hs⟩, rfl, rfl⟩
    · cases h

/-- A client and context resolve as the policy has it.  No statement fails here. -/
theorem resolveMapping_eq (db : Database) (c x : String) :
    resolveMapping db c x = .ok ((policy db).resolve c x) := by
  rw [resolveMapping, selectMapping_eq, Policy.resolve]
  cases (policy db).mapping (c, x) with
  | none => rfl
  | some m =>
      simp only [Option.map_some, Except.ok.injEq, Option.some.injEq, MappingPair.mk.injEq,
        true_and]
      apply Std.ExtTreeMap.ext_getElem?
      intro s
      rw [getElem?_selectScopeMappings, getElem?_ofList_filterMap (nodup_toList m.scopes)]
      simp only [Std.ExtTreeSet.mem_toList]

/-- The inserts of a batch, one after another: they stop at the first scope
that is stored or repeats, and otherwise add the whole batch. -/
theorem foldlM_insertScopeMapping
    (table : Table ScopeMappingRow String ScopeMappingRow.scope) (ms : List ScopeMapping) :
    match Policy.firstTaken (fun s => (table.lookup s).isSome) ms with
    | some s => ms.foldlM insertScopeMapping table = .error (.conflict s)
    | none => ∃ table', ms.foldlM insertScopeMapping table = .ok table' ∧
        (fun s => (table'.lookup s).map rowToScopeMapping) =
          Policy.addScopes (fun s => (table.lookup s).map rowToScopeMapping) ms := by
  induction ms generalizing table with
  | nil => exact ⟨table, rfl, rfl⟩
  | cons m ms ih =>
      rw [List.foldlM_cons, insertScopeMapping, Policy.firstTaken]
      rcases executeInsert_spec table (scopeMappingRow m) with
        ⟨e, hinsert, htaken, hconflict⟩ | ⟨table₁, hinsert, hfresh, hlookup⟩
      · rw [scope_scopeMappingRow] at htaken
        simp only [hinsert, htaken, if_true, hconflict]
        rfl
      · have hadded := map_lookup_insert rowToScopeMapping hlookup
        rw [scope_scopeMappingRow] at hfresh hlookup
        rw [scope_scopeMappingRow, rowToScopeMapping_row] at hadded
        have htaken : (fun s => (table₁.lookup s).isSome) =
            fun s => s == m.scope || (table.lookup s).isSome := by
          funext s
          rw [hlookup]
          by_cases hs : m.scope = s
          · simp [hs]
          · simp [hs, Ne.symm hs]
        have hrest := ih table₁
        rw [htaken, hadded] at hrest
        simp only [hinsert, hfresh]
        exact hrest

/-- Saving a mapping answers as the policy prescribes and moves the policy so.  The same
is shown of each operation that writes. -/
theorem saveMapping_refines (db : Database) (m : ResourceMapping) :
    Prod.map id policy (saveMapping db m) = (policy db).write (.saveMapping m) := by
  simp only [saveMapping, Policy.write, policy_mapping, Option.isSome_map]
  rcases executeInsert_spec db.resourceMappings (resourceMappingRow m) with
    ⟨e, hinsert, htaken, hconflict⟩ | ⟨table, hinsert, hfresh, hlookup⟩
  · rw [key_resourceMappingRow] at htaken
    simp [hinsert, htaken, hconflict]
  · have hadded := map_lookup_insert rowToResourceMapping hlookup
    rw [key_resourceMappingRow] at hfresh
    rw [key_resourceMappingRow, rowToResourceMapping_row] at hadded
    simp only [hinsert, hfresh]
    exact Prod.ext rfl (Policy.ext hadded rfl)

/-- Updating a mapping answers as the policy prescribes and moves the policy so. -/
theorem updateMapping_refines (db : Database) (m : ResourceMapping) :
    Prod.map id policy (updateMapping db m) = (policy db).write (.updateMapping m) := by
  simp only [updateMapping, Policy.write, policy_mapping, Option.isSome_map, ResourceMapping.key]
  rcases updateKey_spec db.resourceMappings rowToResourceMapping
      (m.clientIdentifier, m.participantContext) (setMappingColumns m) (fun _ => rfl)
      (rowToResourceMapping_setMappingColumns m) with
    ⟨hrow, hcount, hread⟩ | ⟨hrow, hcount, hread⟩
  · simp only [hrow, hcount]
    exact Prod.ext rfl (Policy.ext hread rfl)
  · simp only [hrow, hcount]
    exact Prod.ext rfl (Policy.ext hread rfl)

/-- Removing a mapping answers as the policy prescribes and moves the policy so. -/
theorem removeMapping_refines (db : Database) (c x : String) :
    Prod.map id policy (removeMapping db c x) = (policy db).write (.removeMapping c x) := by
  refine Prod.ext rfl (Policy.ext ?_ rfl)
  funext k
  have hdelete := db.resourceMappings.lookup_delete (fun k => k = (c, x)) k
  simp only [removeMapping, Policy.write, Prod.map_snd, policy_mapping, hdelete,
    Function.update_apply]
  by_cases hk : k = (c, x) <;> simp [hk]

/-- Removing the mappings of a client answers as the policy prescribes and moves the
policy so. -/
theorem removeMappingsFor_refines (db : Database) (c : String) :
    Prod.map id policy (removeMappingsFor db c) = (policy db).write (.removeMappingsFor c) := by
  refine Prod.ext rfl (Policy.ext ?_ rfl)
  funext k
  have hdelete := db.resourceMappings.lookup_delete (fun k => k.1 = c) k
  simp only [removeMappingsFor, Policy.write, Prod.map_snd, policy_mapping, hdelete]
  by_cases hk : k.1 = c <;> simp [hk]

/-- A batch answers as the policy prescribes and moves the policy so, since a transaction
that fails has no effect. -/
theorem saveScopeMappings_refines (db : Database) (ms : List ScopeMapping) :
    Prod.map id policy (saveScopeMappings db ms) = (policy db).write (.saveScopeMappings ms) := by
  have hbatch := foldlM_insertScopeMapping db.scopeMappings ms
  simp only [saveScopeMappings, Policy.write, policy_scope, Option.isSome_map]
  cases hfirst : Policy.firstTaken (fun s => (db.scopeMappings.lookup s).isSome) ms with
  | some s =>
      rw [hfirst] at hbatch
      rw [hbatch]
      rfl
  | none =>
      rw [hfirst] at hbatch
      obtain ⟨table', hok, hadded⟩ := hbatch
      rw [hok]
      exact Prod.ext rfl (Policy.ext rfl hadded)

/-- Updating a scope mapping answers as the policy prescribes and moves the policy so. -/
theorem updateScopeMapping_refines (db : Database) (m : ScopeMapping) :
    Prod.map id policy (updateScopeMapping db m) = (policy db).write (.updateScopeMapping m) := by
  simp only [updateScopeMapping, Policy.write, policy_scope, Option.isSome_map]
  rcases updateKey_spec db.scopeMappings rowToScopeMapping m.scope (setScopeColumns m)
      (fun _ => rfl) (rowToScopeMapping_setScopeColumns m) with
    ⟨hrow, hcount, hread⟩ | ⟨hrow, hcount, hread⟩
  · simp only [hrow, hcount]
    exact Prod.ext rfl (Policy.ext rfl hread)
  · simp only [hrow, hcount]
    exact Prod.ext rfl (Policy.ext rfl hread)

/-- Removing a scope mapping answers as the policy prescribes and moves the policy so. -/
theorem removeScopeMapping_refines (db : Database) (s : String) :
    Prod.map id policy (removeScopeMapping db s) = (policy db).write (.removeScopeMapping s) := by
  refine Prod.ext rfl (Policy.ext rfl ?_)
  funext s'
  have hdelete := db.scopeMappings.lookup_delete (fun k => k = s) s'
  simp only [removeScopeMapping, Policy.write, Prod.map_snd, policy_scope, hdelete,
    Function.update_apply]
  by_cases hs : s' = s <;> simp [hs]

/-- **Refinement.** Every writing operation answers as the policy prescribes and moves the
policy so. -/
theorem write_refines (db : Database) (w : StoreWrite) :
    Prod.map id policy (ResourceStore.write db w) = (policy db).write w := by
  cases w with
  | saveMapping m => exact saveMapping_refines db m
  | updateMapping m => exact updateMapping_refines db m
  | removeMapping c x => exact removeMapping_refines db c x
  | removeMappingsFor c => exact removeMappingsFor_refines db c
  | saveScopeMappings ms => exact saveScopeMappings_refines db ms
  | updateScopeMapping m => exact updateScopeMapping_refines db m
  | removeScopeMapping s => exact removeScopeMapping_refines db s

/-- Reading all rows of a table lists what its keys read as, each once, since what is read
from a row still tells its key. -/
private theorem listing_spec {R K A : Type} {key : R → K} [DecidableEq K]
    (table : Table R K key) (read : R → A) (keyOf : A → K) (hkey : ∀ r, keyOf (read r) = key r) :
    (∀ a, a ∈ table.rows.map read ↔ ∃ k, (table.lookup k).map read = some a) ∧
      (table.rows.map read).Nodup := by
  constructor
  · intro a
    rw [List.mem_map]
    constructor
    · intro h
      obtain ⟨row, hrow, rfl⟩ := h
      exact ⟨key row, by rw [Table.mem_rows_iff.mp hrow]; rfl⟩
    · intro h
      obtain ⟨k, hk⟩ := h
      obtain ⟨row, hrow, rfl⟩ := Option.map_eq_some_iff.mp hk
      exact ⟨row, List.mem_of_find?_eq_some hrow, rfl⟩
  · apply List.Nodup.of_map keyOf
    rw [List.map_map]
    have hfun : keyOf ∘ read = key := funext hkey
    rw [hfun]
    exact table.unique

/-- The Postgres store keeps the contract of a storage backend, from any contents of its
tables. -/
instance postgresPolicyStore : PolicyStore Database where
  empty := initialized
  policy := policy
  policy_empty := rfl
  resolveMapping_eq := resolveMapping_eq
  write_answer db w := congrArg Prod.fst (write_refines db w)
  write_policy db w := congrArg Prod.snd (write_refines db w)
  listMappings_spec db :=
    have h := listing_spec db.resourceMappings rowToResourceMapping ResourceMapping.key
      (fun _ => rfl)
    ⟨_, rfl, h.1, fun _ => h.2⟩
  listScopeMappings_spec db :=
    have h := listing_spec db.scopeMappings rowToScopeMapping ScopeMapping.scope (fun _ => rfl)
    ⟨_, rfl, h.1, fun _ => h.2⟩

end PostgresResourceStore

end Jwtlet

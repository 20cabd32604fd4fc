import Mathlib

/-!
# Tables with a primary key

A table is a list of rows in which no two rows have the same key; the
constraint is a field, so a table that violates it cannot be built.  The four
statements act on the rows the way SQL does:

* `insert` refuses a row whose key is present (a unique violation);
* `update` rewrites the matching rows and counts them;
* `delete` drops the matching rows;
* `select` lists the matching rows.

`lookup` reads a table as a partial function from keys to rows, and one lemma
for each statement says what the statement does to that function.
-/

namespace Sql

/-- Rows with pairwise distinct keys.  The primary key constraint is a field, so no
statement can be written that breaks it. -/
structure Table (R K : Type) (key : R → K) where
  rows : List R
  unique : (rows.map key).Nodup

namespace Table

variable {R K : Type} {key : R → K}

/-- `CREATE TABLE`: a table without rows. -/
def empty : Table R K key := ⟨[], List.nodup_nil⟩

/-- `SELECT ...  WHERE p`: the rows that meet the condition.  SQL promises no order of
them, and results about listings do not use it. -/
def select (t : Table R K key) (p : R → Bool) : List R := t.rows.filter p

/-- `DELETE ...  WHERE p`: the rows that do not meet the condition stay, with their keys
as distinct as before. -/
def delete (t : Table R K key) (p : R → Bool) : Table R K key where
  rows := t.rows.filter fun r => !p r
  unique := t.unique.sublist (List.filter_sublist.map key)

/-- Rewriting rows without touching their keys leaves the list of keys as it is. -/
private theorem map_key_update {f : R → R} (hf : ∀ r, key (f r) = key r) (p : R → Bool)
    (rows : List R) : (rows.map fun r => if p r then f r else r).map key = rows.map key := by
  rw [List.map_map]
  apply List.map_congr_left
  intro r _
  simp only [Function.comp_apply]
  split
  · exact hf r
  · rfl

/-- `UPDATE ... SET f WHERE p`, where `f` leaves the key columns alone: the
number of rows affected and the table. -/
def update (t : Table R K key) (p : R → Bool) (f : R → R) (hf : ∀ r, key (f r) = key r) :
    Nat × Table R K key :=
  (t.rows.countP p,
    { rows := t.rows.map fun r => if p r then f r else r
      unique := by rw [map_key_update hf]; exact t.unique })

variable [DecidableEq K]

/-- `INSERT INTO ...  VALUES r`: the row is added, or `none` is a unique violation, since
a row with its key is there. -/
def insert (t : Table R K key) (r : R) : Option (Table R K key) :=
  if h : key r ∈ t.rows.map key then none
  else some
    { rows := t.rows ++ [r]
      unique := by
        rw [List.map_append]
        exact List.Nodup.append t.unique (List.nodup_singleton _)
          (by simpa [List.disjoint_singleton] using h) }

/-- The row under a key.  There is at most one, so it does not matter where the search
starts. -/
def lookup (t : Table R K key) (k : K) : Option R := t.rows.find? fun r => key r = k

/-- A row is in the table exactly when it is found under its own key.  The rows are thus
all there is to the function from keys to rows. -/
theorem mem_rows_iff {t : Table R K key} {r : R} : r ∈ t.rows ↔ t.lookup (key r) = some r := by
  constructor
  · intro hr
    obtain ⟨r', hr'⟩ : ∃ r', t.lookup (key r) = some r' := by
      apply Option.isSome_iff_exists.mp
      rw [lookup, List.find?_isSome]
      exact ⟨r, hr, by simp⟩
    have hmem : r' ∈ t.rows := List.mem_of_find?_eq_some hr'
    have hkey : key r' = key r := by simpa using List.find?_some hr'
    rw [hr', List.inj_on_of_nodup_map t.unique hmem hr hkey]
  · intro h
    exact List.mem_of_find?_eq_some h

theorem key_of_lookup {t : Table R K key} {k : K} {r : R} (h : t.lookup k = some r) :
    key r = k := by
  simpa using List.find?_some h

/-- A key is found exactly when some row of the table has it. -/
theorem lookup_isSome_iff {t : Table R K key} {k : K} :
    (t.lookup k).isSome ↔ k ∈ t.rows.map key := by
  rw [lookup, List.find?_isSome]
  simp

@[simp] theorem lookup_empty (k : K) : (empty : Table R K key).lookup k = none := rfl

/-- An insert is refused exactly when the key of its row is taken, whatever the other
columns hold. -/
theorem insert_eq_none_iff {t : Table R K key} {r : R} :
    t.insert r = none ↔ (t.lookup (key r)).isSome := by
  rw [lookup_isSome_iff, insert]
  split <;> simp [*]

/-- An accepted insert appends its row to the others and changes none of them. -/
theorem rows_insert {t t' : Table R K key} {r : R} (h : t.insert r = some t') :
    t'.rows = t.rows ++ [r] := by
  rw [insert] at h
  split at h
  · cases h
  · cases h
    rfl

/-- An accepted insert adds its row under its own key and nothing under any other key. -/
theorem lookup_insert {t t' : Table R K key} {r : R} (h : t.insert r = some t') (k : K) :
    t'.lookup k = if key r = k then some r else t.lookup k := by
  rw [insert] at h
  split at h
  · cases h
  · next hfresh =>
    cases h
    simp only [lookup, List.find?_append, List.find?_singleton]
    by_cases hk : key r = k
    · subst hk
      have hnone : t.rows.find? (fun r' => key r' = key r) = none := by
        rw [List.find?_eq_none]
        intro r' hr' heq
        exact hfresh (List.mem_map.mpr ⟨r', hr', by simpa using heq⟩)
      simp [hnone]
    · simp [hk]

/-- A delete whose condition is about the key clears the keys that meet it and leaves the
others as they are. -/
theorem lookup_delete (t : Table R K key) (p : K → Bool) (k : K) :
    (t.delete fun r => p (key r)).lookup k = if p k then none else t.lookup k := by
  simp only [lookup, delete, List.find?_filter]
  by_cases hk : p k
  · rw [if_pos hk, List.find?_eq_none]
    intro r _ h
    simp only [Bool.not_eq_true', decide_eq_true_eq] at h
    rw [h.2, hk] at h
    exact absurd h.1 (by simp)
  · rw [if_neg hk]
    congr 1
    funext r
    by_cases hr : key r = k
    · subst hr
      simp [hk]
    · simp [hr]

/-- `UPDATE ...  SET f WHERE key = k`, with the number of rows it affected, which is 0 or
1. -/
def updateKey (t : Table R K key) (k : K) (f : R → R) (hf : ∀ r, key (f r) = key r) :
    Nat × Table R K key :=
  t.update (fun r => key r = k) f hf

/-- An update of one key rewrites the row under it, if there is one, and leaves every
other key as it is. -/
theorem lookup_updateKey (t : Table R K key) (k₀ : K) (f : R → R)
    (hf : ∀ r, key (f r) = key r) (k : K) :
    (t.updateKey k₀ f hf).2.lookup k =
      if k₀ = k then (t.lookup k).map f else t.lookup k := by
  simp only [lookup, updateKey, update, List.find?_map]
  have hpred : (fun r => decide (key r = k)) ∘ (fun r => if decide (key r = k₀) then f r else r) =
      fun r => decide (key r = k) := by
    funext r
    simp only [Function.comp_apply, decide_eq_true_eq]
    split
    · rw [hf]
    · rfl
  rw [hpred]
  split
  · next hk =>
    subst hk
    cases hfind : t.rows.find? (fun r => decide (key r = k₀)) with
    | none => rfl
    | some r =>
        have hr : key r = k₀ := by simpa using List.find?_some hfind
        simp [hr]
  · next hk =>
    cases hfind : t.rows.find? (fun r => decide (key r = k)) with
    | none => rfl
    | some r =>
        have hr : key r = k := by simpa using List.find?_some hfind
        have hne : key r ≠ k₀ := by rw [hr]; exact fun h => hk h.symm
        simp [hne]

/-- An update of one key affects no row exactly when the key is absent.  The store reads
from this whether a record was found. -/
theorem updateKey_count_eq_zero_iff (t : Table R K key) (k₀ : K) (f : R → R)
    (hf : ∀ r, key (f r) = key r) :
    (t.updateKey k₀ f hf).1 = 0 ↔ t.lookup k₀ = none := by
  simp only [updateKey, update, lookup, List.countP_eq_zero, List.find?_eq_none]

end Table

end Sql

import Jwtlet.RustCollections

/-!
# Accumulating keyed contributions into a map

A loop meets a list of `(key, value)` contributions and folds them into a map.
The first contribution to a key is stored as it is; each later one is combined
with the stored value by `combine`, which may refuse, and a refusal ends the
loop.

The loop works on the whole map, but keys do not interact.  `foldKey` is what
happens at one key, and the two results below say that the loop is nothing but
the family of its per-key folds:

* `accumulate_eq_ok_iff` - the loop succeeds with a map exactly when every
  per-key fold succeeds with the value the map has there;
* `exists_foldKey_eq_error` - an error of the loop is the error of some key.

`accumulate_filter` compares the loop with the loop over the contributions of
selected keys only, error values included.
-/

namespace Keyed

open Rust

variable {K V E : Type}

/-- One contribution meets what its key holds: it is stored as it is if the key holds
nothing, and is combined with the value there otherwise. -/
def contribute (combine : K → V → V → Except E V) (k : K) (held : Option V) (v : V) :
    Except E V :=
  match held with
  | none => .ok v
  | some old => combine k old v

/-- What the loop does at one key: the values contributed to it are folded into what it
holds, in their order, until one is refused. -/
def foldKey (combine : K → V → V → Except E V) (k : K) (held : Option V) (vs : List V) :
    Except E (Option V) :=
  vs.foldlM (fun o v => (contribute combine k o v).map some) held

variable {combine : K → V → V → Except E V}

@[simp] theorem foldKey_nil (k : K) (held : Option V) :
    foldKey combine k held [] = .ok held := rfl

/-- The fold at a key takes one value at a time.  The fold goes on with the value that is
stored then, or ends with the refusal. -/
theorem foldKey_cons (k : K) (held : Option V) (v : V) (vs : List V) :
    foldKey combine k held (v :: vs) =
      (contribute combine k held v).bind fun w => foldKey combine k (some w) vs := by
  unfold foldKey
  rw [List.foldlM_cons]
  cases contribute combine k held v <;> rfl

section Values

variable [DecidableEq K]

/-- The values contributed to key `k`, in the order in which the loop meets them. -/
def valuesAt (k : K) (l : List (K × V)) : List V :=
  l.filterMap fun kv => if kv.1 = k then some kv.2 else none

@[simp] theorem valuesAt_nil (k : K) : valuesAt k ([] : List (K × V)) = [] := rfl

/-- The first contribution is one of the values of its own key and of no other. -/
theorem valuesAt_cons (k : K) (kv : K × V) (l : List (K × V)) :
    valuesAt k (kv :: l) = if kv.1 = k then kv.2 :: valuesAt k l else valuesAt k l := by
  unfold valuesAt
  split <;> simp [*]

@[simp] theorem valuesAt_append (k : K) (l r : List (K × V)) :
    valuesAt k (l ++ r) = valuesAt k l ++ valuesAt k r := by
  simp [valuesAt, List.filterMap_append]

/-- A key that nobody contributes to has no values, so the loop leaves it as it is. -/
theorem valuesAt_eq_nil {k : K} {l : List (K × V)} (h : ∀ v, (k, v) ∉ l) :
    valuesAt k l = [] := by
  simp only [valuesAt, List.filterMap_eq_nil_iff, ite_eq_right_iff]
  intro kv hmem heq
  obtain ⟨k', v⟩ := kv
  subst heq
  exact absurd hmem (h v)

/-- A contribution list with distinct keys gives a key at most one value.  Nothing is
combined then, and so nothing refused. -/
theorem valuesAt_of_nodup {k : K} {v : V} {l : List (K × V)}
    (hl : (l.map Prod.fst).Nodup) (hmem : (k, v) ∈ l) : valuesAt k l = [v] := by
  induction l with
  | nil => cases hmem
  | cons kv l ih =>
      rw [List.map_cons, List.nodup_cons] at hl
      rw [valuesAt_cons]
      rcases List.mem_cons.mp hmem with rfl | hmem
      · have hrest : valuesAt k l = [] :=
          valuesAt_eq_nil fun w hw => hl.1 (List.mem_map.mpr ⟨(k, w), hw, rfl⟩)
        simp [hrest]
      · have hne : kv.1 ≠ k := by
          intro heq
          exact hl.1 (heq ▸ List.mem_map_of_mem hmem)
        rw [if_neg hne]
        exact ih hl.2 hmem

/-- Of distinct sources, at least two contribute and one of the values meets
`Q` exactly when some contributor of a `Q`-value is not the only contributor. -/
theorem two_contributors_iff {A B : Type} [DecidableEq A] {l : List A} (hl : l.Nodup)
    (f : A → Option B) (Q : B → Prop) :
    (2 ≤ (l.filterMap f).length ∧ ∃ b ∈ l.filterMap f, Q b) ↔
      ∃ a ∈ l, ∃ a' ∈ l, a ≠ a' ∧ ∃ b b', f a = some b ∧ f a' = some b' ∧ Q b := by
  constructor
  · intro hmany
    obtain ⟨hlen, b, hb, hQ⟩ := hmany
    obtain ⟨a, ha, hab⟩ := List.mem_filterMap.mp hb
    have hperm := (List.perm_cons_erase ha).filterMap f
    rw [List.filterMap_cons_some hab] at hperm
    have hpos : 0 < ((l.erase a).filterMap f).length := by
      have := hperm.length_eq
      simp only [List.length_cons] at this
      omega
    obtain ⟨b', hb'⟩ := List.exists_mem_of_length_pos hpos
    obtain ⟨a', ha', hab'⟩ := List.mem_filterMap.mp hb'
    rw [hl.mem_erase_iff] at ha'
    exact ⟨a, ha, a', ha'.2, ha'.1.symm, b, b', hab, hab', hQ⟩
  · intro htwo
    obtain ⟨a, ha, a', ha', hne, b, b', hab, hab', hQ⟩ := htwo
    refine ⟨?_, b, List.mem_filterMap.mpr ⟨a, ha, hab⟩, hQ⟩
    have hperm := (List.perm_cons_erase ha).filterMap f
    rw [List.filterMap_cons_some hab] at hperm
    have hmem : b' ∈ (l.erase a).filterMap f :=
      List.mem_filterMap.mpr ⟨a', (hl.mem_erase_iff).mpr ⟨hne.symm, ha'⟩, hab'⟩
    have hpos := List.length_pos_of_mem hmem
    have := hperm.length_eq
    simp only [List.length_cons] at this
    omega

end Values

variable [Ord K] [Std.TransOrd K]

/-- One round of the loop: a contribution is combined with what its key holds and stored
there, or the loop ends with the refusal. -/
def accumulateOne (combine : K → V → V → Except E V) (acc : HashMap K V) (kv : K × V) :
    Except E (HashMap K V) :=
  (contribute combine kv.1 acc[kv.1]? kv.2).map fun v => acc.insert kv.1 v

/-- The loop over all contributions, from left to right, starting with the map `acc`. -/
def accumulate (combine : K → V → V → Except E V) (acc : HashMap K V) (l : List (K × V)) :
    Except E (HashMap K V) :=
  l.foldlM (accumulateOne combine) acc

@[simp] theorem accumulate_nil (acc : HashMap K V) :
    accumulate combine acc [] = .ok acc := rfl

/-- The loop makes its first round and goes on with the map that results, unless the first
contribution is refused. -/
theorem accumulate_cons (acc : HashMap K V) (k : K) (v : V) (l : List (K × V)) :
    accumulate combine acc ((k, v) :: l) =
      (contribute combine k acc[k]? v).bind fun w => accumulate combine (acc.insert k w) l := by
  unfold accumulate accumulateOne
  rw [List.foldlM_cons]
  cases contribute combine k acc[k]? v <;> rfl

variable [Std.LawfulEqOrd K]

/-- Dropping unselected keys forgets what is stored under one of them. -/
private theorem filter_insert_unselected (select : K → Bool) (acc : HashMap K V)
    {k : K} (hk : select k = false) (w : V) :
    (acc.insert k w).filter (fun k _ => select k) = acc.filter (fun k _ => select k) := by
  apply Std.ExtTreeMap.ext_getElem?
  intro k'
  rw [Std.ExtTreeMap.getElem?_filter', Std.ExtTreeMap.getElem?_filter',
    Std.ExtTreeMap.getElem?_insert]
  by_cases h : k = k'
  · subst h
    cases acc[k]? <;> simp [Option.filter, hk]
  · simp [h]

/-- Dropping unselected keys commutes with storing under a selected one. -/
private theorem filter_insert_selected (select : K → Bool) (acc : HashMap K V)
    {k : K} (hk : select k = true) (w : V) :
    (acc.insert k w).filter (fun k _ => select k) =
      (acc.filter fun k _ => select k).insert k w := by
  apply Std.ExtTreeMap.ext_getElem?
  intro k'
  rw [Std.ExtTreeMap.getElem?_filter', Std.ExtTreeMap.getElem?_insert,
    Std.ExtTreeMap.getElem?_insert, Std.ExtTreeMap.getElem?_filter']
  by_cases h : k = k'
  · subst h
    simp [Option.filter, hk]
  · simp [h]

variable [DecidableEq K]

/-- Storing the combined value at `k` runs one step of the fold at `k` and no
step of any other fold. -/
private theorem foldKey_after_store {acc : HashMap K V} {k : K} {v w : V}
    (hw : contribute combine k acc[k]? v = .ok w) (l : List (K × V)) (k' : K) :
    foldKey combine k' (acc.insert k w)[k']? (valuesAt k' l) =
      foldKey combine k' acc[k']? (valuesAt k' ((k, v) :: l)) := by
  rw [valuesAt_cons, Std.ExtTreeMap.getElem?_insert]
  by_cases hk : k = k'
  · subst hk
    simp [foldKey_cons, hw, Except.bind]
  · simp [hk]

/-- **The loop is the family of its per-key folds.**  It succeeds with `acc'`
exactly when at every key the fold of that key's contributions succeeds with
the value `acc'` has there. -/
theorem accumulate_eq_ok_iff {acc acc' : HashMap K V} {l : List (K × V)} :
    accumulate combine acc l = .ok acc' ↔
      ∀ k, foldKey combine k acc[k]? (valuesAt k l) = .ok acc'[k]? := by
  induction l generalizing acc with
  | nil =>
      simp only [accumulate_nil, Except.ok.injEq, valuesAt_nil, foldKey_nil]
      exact ⟨fun h _ => by rw [h], fun h => Std.ExtTreeMap.ext_getElem? h⟩
  | cons kv l ih =>
      obtain ⟨k, v⟩ := kv
      rw [accumulate_cons]
      cases hw : contribute combine k acc[k]? v with
      | ok w =>
          rw [Except.bind, ih]
          exact forall_congr' fun k' => by rw [foldKey_after_store hw]
      | error e =>
          simp only [Except.bind, reduceCtorEq, false_iff, not_forall]
          refine ⟨k, ?_⟩
          simp [valuesAt_cons, foldKey_cons, hw, Except.bind]

/-- An error of the loop is the error of the fold at some key, of the one whose
contribution was refused first. -/
theorem exists_foldKey_eq_error {acc : HashMap K V} {l : List (K × V)} {e : E}
    (h : accumulate combine acc l = .error e) :
    ∃ k, foldKey combine k acc[k]? (valuesAt k l) = .error e := by
  induction l generalizing acc with
  | nil => cases h
  | cons kv l ih =>
      obtain ⟨k, v⟩ := kv
      rw [accumulate_cons] at h
      cases hw : contribute combine k acc[k]? v with
      | ok w =>
          rw [hw] at h
          obtain ⟨k', hk'⟩ := ih h
          exact ⟨k', by rw [← foldKey_after_store hw]; exact hk'⟩
      | error e' =>
          rw [hw] at h
          cases h
          exact ⟨k, by simp [valuesAt_cons, foldKey_cons, hw, Except.bind]⟩

/-- **Selecting keys before or after the loop.**  Unless the fold at some
unselected key fails, looping over the contributions to the selected keys gives
the same outcome as looping over all and dropping the unselected keys at the
end; if the loop fails it fails with the same error. -/
theorem accumulate_filter (select : K → Bool) {acc : HashMap K V} {l : List (K × V)}
    (hskip : ∀ k e, select k = false →
      foldKey combine k acc[k]? (valuesAt k l) ≠ .error e) :
    accumulate combine (acc.filter fun k _ => select k) (l.filter fun kv => select kv.1) =
      (accumulate combine acc l).map fun m => m.filter fun k _ => select k := by
  induction l generalizing acc with
  | nil => rfl
  | cons kv l ih =>
      obtain ⟨k, v⟩ := kv
      rw [accumulate_cons]
      cases hw : contribute combine k acc[k]? v with
      | ok w =>
          have hrest := @ih (acc.insert k w) (fun k' e hk' => by
            rw [foldKey_after_store hw]
            exact hskip k' e hk')
          cases hk : select k with
          | true =>
              rw [List.filter_cons_of_pos (by simpa using hk), accumulate_cons,
                Std.ExtTreeMap.getElem?_filter',
                show acc[k]?.filter (fun _ => select k) = acc[k]? by
                  cases acc[k]? <;> simp [Option.filter, hk],
                hw, Except.bind, Except.bind, ← filter_insert_selected select acc hk, hrest]
          | false =>
              rw [List.filter_cons_of_neg (by simpa using hk), Except.bind, ← hrest,
                filter_insert_unselected select acc hk]
      | error e =>
          cases hk : select k with
          | true =>
              rw [List.filter_cons_of_pos (by simpa using hk), accumulate_cons,
                Std.ExtTreeMap.getElem?_filter',
                show acc[k]?.filter (fun _ => select k) = acc[k]? by
                  cases acc[k]? <;> simp [Option.filter, hk],
                hw]
              rfl
          | false =>
              -- The failing key is unselected, which `hskip` rules out.
              exact absurd (by simp [valuesAt_cons, foldKey_cons, hw, Except.bind])
                (hskip k e hk)

end Keyed

import Mathlib

/-!
# Finite maps and sets with decidable, extensional equality

Rust's `HashMap`, `BTreeMap`, `HashSet` and `BTreeSet` are modelled by the
extensional search trees of the standard library: two maps are equal exactly
when they answer every lookup alike, so equality of models is equality of
contents and never of insertion histories.

Iteration goes through `toList`, in ascending key order.  For the B-tree
collections this is the documented order.  A hash collection promises no order
at all; ascending order stands for it, and results about listings of hash
collections are stated up to permutation.

`String` is compared by code points, which is the byte order of the UTF-8
encodings that Rust compares.
-/

namespace Rust

/-- Pairs are ordered lexicographically, as Rust orders tuples.  The keys of the resource
mappings, client and context, are such pairs. -/
instance pairOrd {A B : Type} [Ord A] [Ord B] : Ord (A × B) := lexOrd

/-- `std::collections::HashMap`.  Rust gives it no order; here it is ordered so that equal
contents are equal maps, and nothing else is made of that order. -/
abbrev HashMap (K V : Type) [Ord K] := Std.ExtTreeMap K V compare

/-- `std::collections::BTreeMap`, whose entries are iterated over in ascending key order,
here as in Rust. -/
abbrev BTreeMap (K V : Type) [Ord K] := Std.ExtTreeMap K V compare

/-- `std::collections::HashSet`.  As with `HashMap`, the order of its elements is a device
of the model and no promise of the code. -/
abbrev HashSet (K : Type) [Ord K] := Std.ExtTreeSet K compare

/-- `std::collections::BTreeSet`, iterated over in ascending order.  The requested scopes
of a token request are kept in one. -/
abbrev BTreeSet (K : Type) [Ord K] := Std.ExtTreeSet K compare

section Maps

variable {K V : Type} [Ord K] [Std.TransOrd K]

/-- The keys met while iterating over a map are pairwise distinct, whatever the order that
the iteration takes. -/
theorem nodup_keys_toList (m : HashMap K V) : (m.toList.map Prod.fst).Nodup := by
  rw [Std.ExtTreeMap.map_fst_toList_eq_keys]
  exact Std.ExtTreeMap.nodup_keys

variable [Std.LawfulEqOrd K]

/-- Iteration meets exactly the stored entries: an entry is met if and only if looking up
its key finds its value. -/
theorem mem_toList_iff {m : HashMap K V} {k : K} {v : V} :
    (k, v) ∈ m.toList ↔ m[k]? = some v :=
  Std.ExtTreeMap.mem_toList_iff_getElem?_eq_some

/-- The values met while iterating are those stored under some key.  A value that is
stored under two keys is met twice. -/
theorem mem_map_snd_toList {m : HashMap K V} {v : V} :
    v ∈ m.toList.map Prod.snd ↔ ∃ k : K, m[k]? = some v := by
  simp only [List.mem_map, Prod.exists, mem_toList_iff, exists_eq_right]

/-- A map collected from a list with distinct keys holds the listed entries and no
others.  With repeated keys the last entry would win. -/
theorem getElem?_ofList {l : List (K × V)} (hl : (l.map Prod.fst).Nodup) {k : K} {v : V} :
    (Std.ExtTreeMap.ofList l compare : HashMap K V)[k]? = some v ↔ (k, v) ∈ l := by
  have hhit : ∀ {k : K} {v : V}, (k, v) ∈ l →
      (Std.ExtTreeMap.ofList l compare : HashMap K V)[k]? = some v := by
    intro k v hmem
    exact Std.ExtTreeMap.getElem?_ofList_of_mem Std.ReflCmp.compare_self
      (by simpa [List.Nodup, List.pairwise_map] using hl) hmem
  refine ⟨fun h => ?_, hhit⟩
  have hk : k ∈ l.map Prod.fst := by
    by_contra hk
    classical
    have hnone : (Std.ExtTreeMap.ofList l compare : HashMap K V)[k]? = none :=
      Std.ExtTreeMap.getElem?_ofList_of_contains_eq_false (by simpa using hk)
    rw [hnone] at h
    cases h
  obtain ⟨⟨k', w⟩, hmem, rfl⟩ := List.mem_map.mp hk
  rw [hhit hmem] at h
  cases h
  exact hmem

/-- Collecting the entries of a map gives the map back, since the entries determine every
lookup. -/
theorem ofList_toList (m : HashMap K V) :
    (Std.ExtTreeMap.ofList m.toList compare : HashMap K V) = m := by
  apply Std.ExtTreeMap.ext_getElem?
  intro k
  apply Option.ext
  intro v
  rw [getElem?_ofList (nodup_keys_toList m), mem_toList_iff]

/-- Looking up the keys of a list one by one and collecting the hits gives the map of
these hits.  Keys off the list are not in it, even where `f` has a value for them. -/
theorem getElem?_ofList_filterMap {keys : List K} (hkeys : keys.Nodup)
    (f : K → Option V) (k : K) [Decidable (k ∈ keys)] :
    (Std.ExtTreeMap.ofList (keys.filterMap fun s => (f s).map fun v => (s, v)) compare :
      HashMap K V)[k]? = if k ∈ keys then f k else none := by
  have hnodup : ((keys.filterMap fun s => (f s).map fun v => (s, v)).map Prod.fst).Nodup := by
    rw [List.map_filterMap]
    refine hkeys.filterMap ?_
    intro a b c ha hb
    simp only [Option.map_map, Option.mem_def, Option.map_eq_some_iff,
      Function.comp_apply] at ha hb
    obtain ⟨_, _, rfl⟩ := ha
    obtain ⟨_, _, rfl⟩ := hb
    rfl
  apply Option.ext
  intro v
  rw [getElem?_ofList hnodup]
  simp only [List.mem_filterMap, Option.map_eq_some_iff, Prod.mk.injEq]
  constructor
  · intro h
    obtain ⟨s, hs, w, hw, rfl, rfl⟩ := h
    simp [hs, hw]
  · intro h
    split at h
    next hk => exact ⟨k, hk, v, h, rfl, rfl⟩
    next => cases h

end Maps

section Sets

variable {K : Type} [Ord K] [Std.TransOrd K] [Std.LawfulEqOrd K]

/-- The elements met while iterating over a set are pairwise distinct, whatever the order
that the iteration takes. -/
theorem nodup_toList (s : HashSet K) : s.toList.Nodup := by
  have h := Std.ExtTreeSet.distinct_toList (t := s)
  simpa [List.Nodup] using h

/-- A set collected from a list has the elements of the list.  Repetitions in the list do
not matter, and neither does its order. -/
theorem mem_ofList {l : List K} {k : K} :
    k ∈ (Std.ExtTreeSet.ofList l compare : HashSet K) ↔ k ∈ l := by
  classical
  rw [Std.ExtTreeSet.mem_ofList, List.contains_iff_mem]

/-- Collecting the elements of a set gives the set back, since membership determines a
set. -/
theorem setOfList_toList (s : HashSet K) :
    (Std.ExtTreeSet.ofList s.toList compare : HashSet K) = s := by
  apply Std.ExtTreeSet.ext_mem
  intro k
  rw [mem_ofList, Std.ExtTreeSet.mem_toList]

/-- Iteration over a part of a set meets its elements in the order of the set, with those
left out that the part does not have. -/
theorem toList_sublist {s t : HashSet K} (h : ∀ k ∈ s, k ∈ t) : s.toList.Sublist t.toList := by
  have hanti : Std.Antisymm fun a b : K => compare a b = .lt := by
    refine ⟨fun a b hab hba => ?_⟩
    rw [Std.OrientedOrd.eq_swap (a := b), hab] at hba
    cases hba
  refine List.sublist_of_subperm_of_pairwise ?_ Std.ExtTreeSet.ordered_toList
    Std.ExtTreeSet.ordered_toList
  refine List.subperm_of_subset (nodup_toList s) ?_
  intro k hk
  rw [Std.ExtTreeSet.mem_toList] at hk ⊢
  exact h k hk

/-- A filtered set has the elements that pass the test and no others. -/
theorem mem_filter {s : HashSet K} {f : K → Bool} {k : K} :
    k ∈ s.filter f ↔ k ∈ s ∧ f k = true := by
  rw [Std.ExtTreeSet.mem_filter]
  simp only [Std.ExtTreeSet.get_eq, exists_prop]

end Sets

end Rust

import Jwtlet.ScopeTransactions

/-!
# The invariant of concurrent scope writes

`Sessions.Inv` is what holds between the calls in progress and the committed rows: a
row that a batch has inserted is neither committed nor inserted by another call, a
call that is waited for holds the row, and a row that an `UPDATE` or `DELETE` has
found is still committed.  Every step keeps it (`Sessions.Inv.step`).
-/

namespace Jwtlet

namespace Sessions

/-- What holds between the calls in progress and the committed rows: who holds what, that
nobody holds the same, and that everyone who waits has somebody to wait for. -/
structure Inv (w : Sessions) : Prop where
  listed : w.Listed
  nodup : w.started.Nodup
  /-- The rows of a batch are distinct and none is committed. -/
  free : ∀ j c, w.calls j = some c → Policy.firstTaken w.db.stored c.inserted = none
  disjoint : ∀ j j' c c', w.calls j = some c → w.calls j' = some c' → j ≠ j' →
    ∀ m ∈ c.inserted, ∀ m' ∈ c'.inserted, m.scope ≠ m'.scope
  /-- A call that is waited for holds the row as long as it is in progress. -/
  held : ∀ j c h s, w.calls j = some c → c.waits = some (h, s) →
    ∃ c', w.calls h = some c' ∧ (c'.active = true → ∃ m ∈ c'.inserted, m.scope = s)
  found : ∀ j c s, w.calls j = some c → c.found = some s → w.db.stored s = true
  locks : ∀ j j' c c' s, w.calls j = some c → w.calls j' = some c' →
    c.locks = some s → c'.locks = some s → j = j'

/-- At the start there are no calls, so nothing can be held or waited for. -/
theorem inv_initial (db : Database) : (initial db).Inv := by
  constructor
  · intro j
    simp [initial]
  · exact List.nodup_nil
  all_goals
    intro j
    intros
    contradiction

/-- A call of the world in which one call is replaced is the new one, or another one that
was there before. -/
theorem calls_update {calls : Nat → Option Call} {id j : Nat} {c d : Call}
    (h : Function.update calls id (some c) j = some d) :
    (j = id ∧ d = c) ∨ (j ≠ id ∧ calls j = some d) := by
  rw [Function.update_apply] at h
  split at h
  · next hj => exact Or.inl ⟨hj, (Option.some.inj h).symm⟩
  · next hj => exact Or.inr ⟨hj, h⟩

/-- Replacing a call that began leaves the list right, as the call keeps its number. -/
theorem listed_update {w : Sessions} (h : w.Listed) {id : Nat} (hid : id ∈ w.started) (c : Call) :
    Listed { w with calls := Function.update w.calls id (some c) } := by
  intro j
  simp only [Function.update_apply]
  split
  · next hj => simp [hj, hid]
  · exact h j

/-- A call may be put in place if it fits the others and keeps what the call before it
holds.  All steps of a single call are cases of this. -/
theorem Inv.put {w : Sessions} (hinv : w.Inv) {id : Nat} {c' : Call} {started : List Nat}
    (hlisted : Listed { w with calls := Function.update w.calls id (some c'), started })
    (hnodup : started.Nodup)
    (hgrows : ∀ c, w.calls id = some c → c'.active = true →
      c.active = true ∧ ∀ m ∈ c.inserted, m ∈ c'.inserted)
    (hfree : Policy.firstTaken w.db.stored c'.inserted = none)
    (hdisjoint : ∀ j d, j ≠ id → w.calls j = some d →
      ∀ m ∈ c'.inserted, ∀ m' ∈ d.inserted, m.scope ≠ m'.scope)
    (hheld : ∀ h s, c'.waits = some (h, s) →
      ∃ d, w.calls h = some d ∧ (d.active = true → ∃ m ∈ d.inserted, m.scope = s))
    (hfound : ∀ s, c'.found = some s → w.db.stored s = true)
    (hlocks : ∀ s j d, j ≠ id → w.calls j = some d → c'.locks = some s → d.locks ≠ some s) :
    Inv { w with calls := Function.update w.calls id (some c'), started } := by
  -- A call that is waited for goes on holding the row, also when it is the one replaced.
  have hstill : ∀ h s, (∃ d, w.calls h = some d ∧
        (d.active = true → ∃ m ∈ d.inserted, m.scope = s)) →
      ∃ d, Function.update w.calls id (some c') h = some d ∧
        (d.active = true → ∃ m ∈ d.inserted, m.scope = s) := by
    intro h s hholds
    obtain ⟨d, hd, hscope⟩ := hholds
    by_cases hh : h = id
    · subst hh
      refine ⟨c', Function.update_self _ _ _, fun hactive => ?_⟩
      obtain ⟨hbefore, hsub⟩ := hgrows d hd hactive
      obtain ⟨m, hm, hms⟩ := hscope hbefore
      exact ⟨m, hsub m hm, hms⟩
    · exact ⟨d, (Function.update_of_ne hh _ _).trans hd, hscope⟩
  constructor
  · exact hlisted
  · exact hnodup
  · intro j d hd
    rcases calls_update hd with ⟨-, rfl⟩ | ⟨-, hd⟩
    · exact hfree
    · exact hinv.free j d hd
  · intro j j' d d' hd hd' hne m hm m' hm'
    rcases calls_update hd with ⟨rfl, rfl⟩ | ⟨hj, hold⟩
    · rcases calls_update hd' with ⟨rfl, rfl⟩ | ⟨hj', hold'⟩
      · exact absurd rfl hne
      · exact hdisjoint j' d' hj' hold' m hm m' hm'
    · rcases calls_update hd' with ⟨rfl, rfl⟩ | ⟨hj', hold'⟩
      · exact (hdisjoint j d hj hold m' hm' m hm).symm
      · exact hinv.disjoint j j' d d' hold hold' hne m hm m' hm'
  · intro j d h s hd hwaits
    rcases calls_update hd with ⟨-, rfl⟩ | ⟨-, hd⟩
    · exact hstill h s (hheld h s hwaits)
    · exact hstill h s (hinv.held j d h s hd hwaits)
  · intro j d s hd hs
    rcases calls_update hd with ⟨-, rfl⟩ | ⟨-, hd⟩
    · exact hfound s hs
    · exact hinv.found j d s hd hs
  · intro j j' d d' s hd hd' hs hs'
    rcases calls_update hd with ⟨rfl, rfl⟩ | ⟨hj, hold⟩
    · rcases calls_update hd' with ⟨rfl, rfl⟩ | ⟨hj', hold'⟩
      · rfl
      · exact absurd hs' (hlocks s j' d' hj' hold' hs)
    · rcases calls_update hd' with ⟨rfl, rfl⟩ | ⟨hj', hold'⟩
      · exact absurd hs (hlocks s j d hj hold hs')
      · exact hinv.locks j j' d d' s hold hold' hs hs'

/-- A call may end at any time: it gives up what it holds, and nobody waits for less than
before.  The rows stay as they are. -/
theorem Inv.move_inactive {w : Sessions} (hinv : w.Inv) {id : Nat} {c c' : Call}
    (hc : w.calls id = some c) (hc' : c'.active = false) : (w.move id c').2.Inv := by
  obtain ⟨hinserted, hwaits, hfound, hlocks⟩ := Call.of_not_active hc'
  apply hinv.put (listed_update hinv.listed (hinv.listed.mem hc) c') hinv.nodup
  · simp [hc']
  · rw [hinserted]
    rfl
  · simp [hinserted]
  · simp [hwaits]
  · simp [hfound]
  · simp [hlocks]

/-- A call that moves on by itself keeps the invariant: what it takes hold of is free. -/
theorem Inv.moves {w : Sessions} (hinv : w.Inv) {id : Nat} {c c' : Call} (hc : w.calls id = some c)
    (hmoves : w.Moves c c') : (w.move id c').2.Inv := by
  have hfree := hinv.free id c hc
  have hdisjoint : ∀ j d, j ≠ id → w.calls j = some d →
      ∀ m ∈ c.inserted, ∀ m' ∈ d.inserted, m.scope ≠ m'.scope :=
    fun j d hj hd => hinv.disjoint id j c d hc hd hj.symm
  have hlisted := listed_update hinv.listed (hinv.listed.mem hc) c'
  have hkeeps : (∀ m ∈ c.inserted, m ∈ c'.inserted) → c.active = true →
      ∀ d, w.calls id = some d → c'.active = true →
        d.active = true ∧ ∀ m ∈ d.inserted, m ∈ c'.inserted := by
    intro hsub hactive d hd _
    rw [hc] at hd
    cases hd
    exact ⟨hactive, hsub⟩
  cases hmoves with
  | @waits inserted rest m waitsFor holder d hd hholds =>
      apply hinv.put hlisted hinv.nodup
      · exact hkeeps (fun m hm => hm) rfl
      · exact hfree
      · exact hdisjoint
      · intro h s hwaits
        cases hwaits
        exact ⟨d, hd, fun _ => hholds⟩
      · simp [Call.found]
      · simp [Call.locks]
  | @inserts inserted rest m waitsFor hfree' hunheld =>
      apply hinv.put hlisted hinv.nodup
      · exact hkeeps (fun m hm => List.mem_append_left _ hm) rfl
      · exact hfree'
      · intro j d hj hd m₁ hm₁ m₂ hm₂
        rcases List.mem_append.mp hm₁ with hm₁ | hm₁
        · exact hdisjoint j d hj hd m₁ hm₁ m₂ hm₂
        · rw [List.mem_singleton.mp hm₁]
          exact (hunheld j d hd m₂ hm₂).symm
      · intro h s hwaits
        cases rest <;> cases hwaits
      · simp [Call.found]
      · simp [Call.locks]
  | @finds change hrow =>
      apply hinv.put hlisted hinv.nodup
      · exact hkeeps (fun m hm => hm) rfl
      · exact hfree
      · exact hdisjoint
      · simp [Call.waits]
      · intro s hs
        cases hs
        exact hrow
      · simp [Call.locks]
  | @locks change hunlocked =>
      apply hinv.put hlisted hinv.nodup
      · exact hkeeps (fun m hm => hm) rfl
      · exact hfree
      · exact hdisjoint
      · simp [Call.waits]
      · intro s hs
        exact hinv.found id _ s hc hs
      · intro s j d _ hd hs
        cases hs
        exact hunlocked j d hd

/-- A new call holds nothing, and no call waits for it, for there was no call of its
number. -/
theorem Inv.invoke {w : Sessions} (hinv : w.Inv) {id : Nat} (hnew : w.calls id = none)
    (write : ScopeWrite) :
    Inv { w with
      calls := Function.update w.calls id (some (Call.start write))
      started := w.started ++ [id] } := by
  have hstart : (Call.start write).inserted = [] ∧ (Call.start write).waits = none ∧
      (Call.start write).found = none ∧ (Call.start write).locks = none := by
    cases write with
    | save mappings => cases mappings <;> exact ⟨rfl, rfl, rfl, rfl⟩
    | change change => exact ⟨rfl, rfl, rfl, rfl⟩
  obtain ⟨hinserted, hwaits, hfound, hlocks⟩ := hstart
  have hfresh : id ∉ w.started := by
    rw [hinv.listed, hnew]
    simp
  apply hinv.put
  · intro j
    simp only [List.mem_append, List.mem_singleton, Function.update_apply]
    split
    · next hj => simp [hj]
    · next hj => simpa [hj] using hinv.listed j
  · rw [List.nodup_append]
    refine ⟨hinv.nodup, by simp, fun j hj j' hj' heq => ?_⟩
    rw [List.mem_singleton.mp hj'] at heq
    exact hfresh (heq ▸ hj)
  · simp [hnew]
  · rw [hinserted]
    rfl
  · simp [hinserted]
  · simp [hwaits]
  · simp [hfound]
  · simp [hlocks]

section Settle

variable {w : Sessions} {id : Nat} {c : Call} {answer : Except ResourceError Unit} {db : Database}
  {decides : Call → Option (Except ResourceError Unit)}

/-- A call of the world after an outcome is one that was not decided, or is over. -/
theorem calls_settle (hc : w.calls id = some c) {j : Nat} {d' : Call}
    (h : (w.settle id c answer db decides).2.calls j = some d') :
    ∃ d, w.calls j = some d ∧
      ((j ≠ id ∧ decides d = none ∧ d' = d) ∨ d'.active = false) := by
  simp only [settle, Function.update_apply] at h
  split at h
  · next hj =>
    cases h
    exact ⟨c, hj ▸ hc, Or.inr rfl⟩
  · next hj =>
    obtain ⟨d, hd, rfl⟩ := Option.map_eq_some_iff.mp h
    refine ⟨d, hd, ?_⟩
    cases hdecides : decides d with
    | none => exact Or.inl ⟨hj, rfl, rfl⟩
    | some answer' => exact Or.inr rfl

/-- A call that is still in progress after an outcome was not decided, and is as it was
before. -/
theorem calls_settle_active (hc : w.calls id = some c) {j : Nat} {d : Call}
    (h : (w.settle id c answer db decides).2.calls j = some d) (hd : d.active = true) :
    j ≠ id ∧ w.calls j = some d ∧ decides d = none := by
  obtain ⟨d₀, hd₀, ⟨hj, hnone, rfl⟩ | hover⟩ := calls_settle hc h
  · exact ⟨hj, hd₀, hnone⟩
  · rw [hd] at hover
    cases hover

/-- An outcome keeps the invariant if the tables it commits suit the calls that it
does not decide. -/
theorem Inv.settle (hinv : w.Inv) (hc : w.calls id = some c)
    (hfree : ∀ j d, j ≠ id → w.calls j = some d → decides d = none →
      Policy.firstTaken db.stored d.inserted = none)
    (hfound : ∀ j d s, j ≠ id → w.calls j = some d → decides d = none →
      d.found = some s → db.stored s = true) :
    (w.settle id c answer db decides).2.Inv := by
  constructor
  · intro j
    refine (hinv.listed j).trans ?_
    simp only [Sessions.settle, Function.update_apply]
    split
    · next hj => simp [hj, hc]
    · rw [Option.isSome_map]
  · exact hinv.nodup
  · intro j d hd
    by_cases hactive : d.active = true
    · obtain ⟨hj, hold, hnone⟩ := calls_settle_active hc hd hactive
      exact hfree j d hj hold hnone
    · rw [(Call.of_not_active (Bool.not_eq_true _ ▸ hactive)).1]
      rfl
  · intro j j' d d' hd hd' hne m hm m' hm'
    have hactive := Call.active_of_holds (Or.inl (List.ne_nil_of_mem hm))
    have hactive' := Call.active_of_holds (Or.inl (List.ne_nil_of_mem hm'))
    obtain ⟨-, hold, -⟩ := calls_settle_active hc hd hactive
    obtain ⟨-, hold', -⟩ := calls_settle_active hc hd' hactive'
    exact hinv.disjoint j j' d d' hold hold' hne m hm m' hm'
  · intro j d h s hd hs
    have hwaiting : d.active = true := Call.active_of_holds (by simp [hs])
    obtain ⟨-, hold, -⟩ := calls_settle_active hc hd hwaiting
    obtain ⟨e, he, hscope⟩ := hinv.held j d h s hold hs
    have hsome : ((w.settle id c answer db decides).2.calls h).isSome = true := by
      simp only [Sessions.settle, Function.update_apply]
      split
      · rfl
      · rw [Option.isSome_map, he]
        rfl
    obtain ⟨e', he'⟩ := Option.isSome_iff_exists.mp hsome
    refine ⟨e', he', fun hactive => ?_⟩
    obtain ⟨-, he₀, -⟩ := calls_settle_active hc he' hactive
    rw [he] at he₀
    cases he₀
    exact hscope hactive
  · intro j d s hd hs
    have hactive : d.active = true := Call.active_of_holds (by simp [hs])
    obtain ⟨hj, hold, hnone⟩ := calls_settle_active hc hd hactive
    exact hfound j d s hj hold hnone hs
  · intro j j' d d' s hd hd' hs hs'
    have hactive : d.active = true := Call.active_of_holds (by simp [hs])
    have hactive' : d'.active = true := Call.active_of_holds (by simp [hs'])
    obtain ⟨-, hold, -⟩ := calls_settle_active hc hd hactive
    obtain ⟨-, hold', -⟩ := calls_settle_active hc hd' hactive'
    exact hinv.locks j j' d d' s hold hold' hs hs'

end Settle

/-- No other batch has inserted a row of one that commits, so the rows of every other
batch are still free afterwards. -/
theorem Inv.free_of_commit {w : Sessions} (hinv : w.Inv) {id : Nat} {c : Call}
    (hc : w.calls id = some c) {j : Nat} {d : Call} (hj : j ≠ id) (hd : w.calls j = some d) :
    Policy.firstTaken (PostgresResourceStore.saveScopeMappings w.db c.inserted).2.stored
      d.inserted = none := by
  obtain ⟨hunstored, hnodup⟩ := Policy.firstTaken_eq_none_iff.mp (hinv.free j d hd)
  refine Policy.firstTaken_eq_none_iff.mpr ⟨fun m hm => ?_, hnodup⟩
  rw [Bool.eq_false_iff, Ne, stored_saveScopeMappings (hinv.free id c hc), not_or]
  refine ⟨by rw [hunstored m hm]; simp, fun hshared => ?_⟩
  obtain ⟨m', hm', hscope⟩ := hshared
  exact hinv.disjoint id j c d hc hd hj.symm m' hm' m hm hscope

/-- An outcome keeps the invariant, with the tables that it commits and the calls that it
decides. -/
theorem Inv.settles {w : Sessions} (hinv : w.Inv) {id : Nat} {c : Call}
    {answer : Except ResourceError Unit} {db : Database}
    {decides : Call → Option (Except ResourceError Unit)} (hc : w.calls id = some c)
    (hsettles : w.Settles id c answer db decides) :
    (w.settle id c answer db decides).2.Inv := by
  cases hsettles with
  | refused htaken =>
      exact hinv.settle hc (fun j d _ hd _ => hinv.free j d hd)
        fun j d s _ hd _ hs => hinv.found j d s hd hs
  | absent hrow =>
      exact hinv.settle hc (fun j d _ hd _ => hinv.free j d hd)
        fun j d s _ hd _ hs => hinv.found j d s hd hs
  | @batch inserted waitsFor =>
      have hfree : Policy.firstTaken w.db.stored inserted = none := hinv.free id _ hc
      apply hinv.settle hc
      · intro j d hj hd _
        exact hinv.free_of_commit hc hj hd
      · intro j d s _ hd _ hs
        exact (stored_saveScopeMappings hfree s).mpr (Or.inl (hinv.found j d s hd hs))
  | @row change =>
      apply hinv.settle hc
      · intro j d _ hd _
        obtain ⟨hunstored, hnodup⟩ := Policy.firstTaken_eq_none_iff.mp (hinv.free j d hd)
        refine Policy.firstTaken_eq_none_iff.mpr ⟨fun m hm => ?_, hnodup⟩
        rw [Bool.eq_false_iff, Ne, change.stored_execute, hunstored m hm]
        simp
      · -- The removed row is locked by this call alone, and a call that only found it is
        -- decided.
        intro j d s hj hd hnone hs
        refine (change.stored_execute w.db s).mpr ⟨hinv.found j d s hd hs, fun hremove => ?_⟩
        subst hremove
        cases d with
        | batch inserted rest waitsFor => cases hs
        | answered write answer' => cases hs
        | returned write answer' => cases hs
        | row change' stage =>
            cases stage with
            | pending => cases hs
            | matched =>
                cases hs
                simp [decidesMatched] at hnone
            | locked =>
                exact hj (hinv.locks j id _ _ s hd hc hs rfl)

/-- Every step keeps the invariant, so it holds between the calls and the committed rows
at every time of a run. -/
theorem Inv.step (w : Sessions) (e : ScopeEvent) (hinv : w.Inv) : (w.step e).2.Inv := by
  have hdoes := does_step hinv.listed e
  generalize w.step e = next at hdoes
  cases hdoes with
  | idle => exact hinv
  | invoked hnew => exact hinv.invoke hnew _
  | moved hc hmoves => exact hinv.moves hc hmoves
  | settled hc hsettles => exact hinv.settles hc hsettles
  | failed hc hactive => exact hinv.move_inactive hc rfl
  | responded hc => exact hinv.move_inactive hc rfl

end Sessions

end Jwtlet

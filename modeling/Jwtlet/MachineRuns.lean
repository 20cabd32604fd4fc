import Mathlib

/-!
# Runs of a deterministic machine with answers

A machine is a function `step` that takes a state and an input to an answer and
a next state.  `after` is the state at the end of a list of inputs and
`history` the inputs paired with their answers.

The rules below are the ones that whole-run results are assembled from.

* `after_invariant`, `history_invariant` - what every step preserves or
  answers, every run preserves or answers.
* `Along`, `after_invariant_along` - the same for runs whose steps all meet a
  condition.
* `past_invariant` - the same for relations between the past of a run and its
  state.
* `linearization` - a concurrent machine whose steps are explained by writes of a
  sequential one is so explained over whole runs.
* `simulation` - two machines whose steps agree up to a relation have runs that
  agree up to it.
* `monitor` - an observer of the answers that stays in step with the state.
* `after_filter`, `history_filter`, `history_erased` - inputs that leave the state
  alone can be erased from a run, all of a kind or one here and one there.
* `after_wrapped`, `unrevoked_wrapped` - a machine that makes at most one step of
  an inner machine per input is the inner machine as far as the state goes.
* `after_view` - a part of the state that evolves by labels is the fold of the
  labels of the run.
* `Effect`, `Unrevoked` and `after_cell_eq_some_iff` - one cell of the state
  holds the last value put into it, unless it was cleared since.
-/

namespace Machine

variable {S I O : Type}

/-- The state after a list of inputs, which are taken one after the other, the first one
in the state `s`. -/
def after (step : S → I → O × S) (s : S) : List I → S
  | [] => s
  | i :: l => after step (step s i).2 l

/-- The inputs of a run in their order, each with the answer that it got in the state in
which it was taken. -/
def history (step : S → I → O × S) (s : S) : List I → List (I × O)
  | [] => []
  | i :: l => (i, (step s i).1) :: history step (step s i).2 l

variable {step : S → I → O × S}

@[simp] theorem after_nil (s : S) : after step s [] = s := rfl

@[simp] theorem after_cons (s : S) (i : I) (l : List I) :
    after step s (i :: l) = after step (step s i).2 l := rfl

@[simp] theorem history_nil (s : S) : history step s [] = [] := rfl

@[simp] theorem history_cons (s : S) (i : I) (l : List I) :
    history step s (i :: l) = (i, (step s i).1) :: history step (step s i).2 l := rfl

/-- A run over two lists of inputs is a run over the first, followed by a run over the
second from where that ended. -/
theorem after_append (s : S) (l r : List I) :
    after step s (l ++ r) = after step (after step s l) r := by
  induction l generalizing s with
  | nil => rfl
  | cons i l ih => exact ih _

/-- The history of two lists of inputs is that of the first, followed by that of the
second from where the first ended. -/
theorem history_append (s : S) (l r : List I) :
    history step s (l ++ r) = history step s l ++ history step (after step s l) r := by
  induction l generalizing s with
  | nil => rfl
  | cons i l ih => exact congrArg _ (ih _)

/-- A history is about the inputs that it was made from, each of them once and in their
order. -/
theorem history_inputs (step : S → I → O × S) (s : S) (l : List I) :
    (history step s l).map Prod.fst = l := by
  induction l generalizing s with
  | nil => rfl
  | cons i l ih => exact congrArg _ (ih _)

/-- The first part of a history is the history of its inputs, so whatever holds of all
histories holds of it. -/
theorem history_of_append {s : S} {l : List I} {pre post : List (I × O)}
    (h : history step s l = pre ++ post) : pre = history step s (pre.map Prod.fst) := by
  induction pre generalizing s l with
  | nil => rfl
  | cons first pre ih =>
      cases l with
      | nil => cases h
      | cons i l =>
          obtain ⟨rfl, hrest⟩ := List.cons.inj h
          exact congrArg _ (ih hrest)

/-- An entry of a history has the answer of the state that its past leads to.  What comes
later does not matter for it. -/
theorem answer_of_history {s : S} {l : List I} {pre post : List (I × O)} {e : I × O}
    (h : history step s l = pre ++ e :: post) :
    e.2 = (step (after step s (pre.map Prod.fst)) e.1).1 := by
  induction pre generalizing s l with
  | nil =>
      cases l with
      | nil => cases h
      | cons i l =>
          obtain ⟨rfl, -⟩ := List.cons.inj h
          rfl
  | cons first pre ih =>
      cases l with
      | nil => cases h
      | cons i l =>
          obtain ⟨rfl, hrest⟩ := List.cons.inj h
          exact ih hrest

/-- A property that every step preserves holds at the end of every run that starts with
it.  The induction over runs is made here once. -/
theorem after_invariant {P : S → Prop} (hstep : ∀ s i, P s → P (step s i).2)
    {s : S} (hs : P s) (l : List I) : P (after step s l) := by
  induction l generalizing s with
  | nil => exact hs
  | cons i l ih => exact ih (hstep s i hs)

/-- Under an invariant, what holds of each single answer holds of every answer
of a run. -/
theorem history_invariant {P : S → Prop} {Q : I → O → Prop}
    (hstep : ∀ s i, P s → P (step s i).2) (hanswer : ∀ s i, P s → Q i (step s i).1)
    {s : S} (hs : P s) (l : List I) : ∀ e ∈ history step s l, Q e.1 e.2 := by
  induction l generalizing s with
  | nil => simp
  | cons i l ih =>
      intro e he
      rcases List.mem_cons.mp he with rfl | he
      · exact hanswer s i hs
      · exact ih (hstep s i hs) e he

/-- A relation between the past of a run and its state, kept by every step, holds
at the end of every run. -/
theorem past_invariant {P : List (I × O) → S → Prop}
    (hstep : ∀ past s i, P past s → P (past ++ [(i, (step s i).1)]) (step s i).2)
    {s : S} (hs : P [] s) (l : List I) : P (history step s l) (after step s l) := by
  have hrun : ∀ past s, P past s → P (past ++ history step s l) (after step s l) := by
    induction l with
    | nil =>
        intro past s h
        rw [history_nil, List.append_nil]
        exact h
    | cons i l ih =>
        intro past s h
        have hrest := ih _ _ (hstep past s i h)
        rw [List.append_assoc] at hrest
        exact hrest
  exact hrun [] s hs

/-- **Linearization.**  Each step of a concurrent machine names some writes of a
sequential machine with their answers.  If from related states the sequential
machine gives these answers to these writes and ends in a related state, it does
so over the writes of a whole run. -/
theorem linearization {A W V : Type} {write : A → W → V × A} {points : O → List (W × V)}
    {R : A → S → Prop}
    (hstep : ∀ a s i, R a s →
      history write a ((points (step s i).1).map Prod.fst) = points (step s i).1 ∧
      R (after write a ((points (step s i).1).map Prod.fst)) (step s i).2)
    {a : A} {s : S} (hs : R a s) (l : List I) :
    history write a (((history step s l).flatMap fun e => points e.2).map Prod.fst) =
        (history step s l).flatMap (fun e => points e.2) ∧
      R (after write a (((history step s l).flatMap fun e => points e.2).map Prod.fst))
        (after step s l) := by
  induction l generalizing a s with
  | nil => exact ⟨rfl, hs⟩
  | cons i l ih =>
      obtain ⟨hanswers, hnext⟩ := hstep a s i hs
      obtain ⟨hrest, hend⟩ := ih hnext
      rw [history_cons, List.flatMap_cons, List.map_append, history_append, hanswers, hrest,
        after_append]
      exact ⟨rfl, hend⟩

/-- Writes that leave the state alone give their answers one after another. -/
theorem history_of_stationary {s : S} {l : List (I × O)} (h : ∀ e ∈ l, step s e.1 = (e.2, s)) :
    history step s (l.map Prod.fst) = l ∧ after step s (l.map Prod.fst) = s := by
  induction l with
  | nil => exact ⟨rfl, rfl⟩
  | cons e l ih =>
      rw [List.forall_mem_cons] at h
      obtain ⟨hanswers, hstate⟩ := ih h.2
      rw [List.map_cons, history_cons, after_cons, h.1]
      exact ⟨congrArg _ hanswers, hstate⟩

/-- A run with known answers, at one of its entries. -/
theorem history_split {s : S} {l r : List (I × O)} {e : I × O}
    (h : history step s ((l ++ e :: r).map Prod.fst) = l ++ e :: r) :
    (step (after step s (l.map Prod.fst)) e.1).1 = e.2 ∧
      history step (step (after step s (l.map Prod.fst)) e.1).2 (r.map Prod.fst) = r := by
  induction l generalizing s with
  | nil =>
      obtain ⟨hentry, hrest⟩ := List.cons.inj h
      exact ⟨congrArg Prod.snd hentry, hrest⟩
  | cons e' l ih => exact ih (List.cons.inj h).2

/-- Every step of a run meets the condition `G` on the state before it and its
input. -/
def Along (step : S → I → O × S) (G : S → I → Prop) (s : S) : List I → Prop
  | [] => True
  | i :: l => G s i ∧ Along step G (step s i).2 l

/-- A property that every step under `G` preserves holds at the end of every run
whose steps meet `G`. -/
theorem after_invariant_along {P : S → Prop} {G : S → I → Prop}
    (hstep : ∀ s i, G s i → P s → P (step s i).2) {s : S} (hs : P s) {l : List I}
    (hl : Along step G s l) : P (after step s l) := by
  induction l generalizing s with
  | nil => exact hs
  | cons i l ih => exact ih (hstep s i hl.1 hs) hl.2

/-- A condition that is met along a run is met along its first part. -/
theorem along_of_append {G : S → I → Prop} {s : S} {l r : List I}
    (h : Along step G s (l ++ r)) : Along step G s l := by
  induction l generalizing s with
  | nil => trivial
  | cons i l ih => exact ⟨h.1, ih h.2⟩

/-- A condition that an invariant implies is met along every run that starts with the
invariant. -/
theorem along_of_invariant {P : S → Prop} {G : S → I → Prop}
    (hstep : ∀ s i, P s → P (step s i).2) (hG : ∀ s i, P s → G s i) {s : S} (hs : P s)
    (l : List I) : Along step G s l := by
  induction l generalizing s with
  | nil => trivial
  | cons i l ih => exact ⟨hG s i hs, ih (hstep s i hs)⟩

/-- A condition on the inputs alone is met along every run over such inputs, from any
state. -/
theorem along_of_forall {G : I → Prop} {l : List I} (h : ∀ i ∈ l, G i) (s : S) :
    Along step (fun _ i => G i) s l := by
  induction l generalizing s with
  | nil => trivial
  | cons i l ih =>
      rw [List.forall_mem_cons] at h
      exact ⟨h.1, ih h.2 _⟩

/-- **Simulation.**  If related states give related answers and stay related,
two runs over the same inputs give pairwise related answers and end in related
states. -/
theorem simulation {S' O' : Type} {step' : S' → I → O' × S'}
    {R : S → S' → Prop} {A : I → O → O' → Prop}
    (hstep : ∀ s s' i, R s s' →
      A i (step s i).1 (step' s' i).1 ∧ R (step s i).2 (step' s' i).2)
    {s : S} {s' : S'} (hs : R s s') (l : List I) :
    List.Forall₂ (fun e e' => e.1 = e'.1 ∧ A e.1 e.2 e'.2)
      (history step s l) (history step' s' l) ∧
      R (after step s l) (after step' s' l) := by
  induction l generalizing s s' with
  | nil => exact ⟨List.Forall₂.nil, hs⟩
  | cons i l ih =>
      obtain ⟨hanswer, hnext⟩ := hstep s s' i hs
      obtain ⟨hrest, hend⟩ := ih hnext
      exact ⟨List.Forall₂.cons ⟨rfl, hanswer⟩ hrest, hend⟩

/-- **Monitors.**  A monitor that reads the answers and stays related to the state
at every step is related to it at the end of every run. -/
theorem monitor {M : Type} {observe : M → O → M} {R : M → S → Prop}
    (hstep : ∀ m s i, R m s → R (observe m (step s i).1) (step s i).2)
    {m : M} {s : S} (hs : R m s) (l : List I) :
    R ((history step s l).foldl (fun m e => observe m e.2) m) (after step s l) := by
  induction l generalizing m s with
  | nil => exact hs
  | cons i l ih => exact ih (hstep m s i hs)

/-- Erasing inputs that leave the state alone does not change where a run ends.  Here the
inputs to keep are given by a test on inputs. -/
theorem after_filter (keep : I → Bool)
    (hskip : ∀ s i, keep i = false → (step s i).2 = s) (s : S) (l : List I) :
    after step s (l.filter keep) = after step s l := by
  induction l generalizing s with
  | nil => rfl
  | cons i l ih =>
      cases hk : keep i with
      | true => rw [List.filter_cons_of_pos (by simpa using hk)]; exact ih _
      | false =>
          rw [List.filter_cons_of_neg (by simpa using hk), after_cons, hskip s i hk]
          exact ih s

/-- Erasing inputs that leave the state alone does not change the answer to any
input that remains. -/
theorem history_filter (keep : I → Bool)
    (hskip : ∀ s i, keep i = false → (step s i).2 = s) (s : S) (l : List I) :
    history step s (l.filter keep) =
      (history step s l).filter fun e => keep e.1 := by
  induction l generalizing s with
  | nil => rfl
  | cons i l ih =>
      cases hk : keep i with
      | true =>
          rw [List.filter_cons_of_pos (by simpa using hk), history_cons, history_cons,
            List.filter_cons_of_pos (by simpa using hk), ih]
      | false =>
          rw [List.filter_cons_of_neg (by simpa using hk), history_cons,
            List.filter_cons_of_neg (by simpa using hk), hskip s i hk]
          exact ih s

/-- `Erased silent h kept`: what is left of a history when some of its silent entries
are erased, each by its position. -/
inductive Erased (silent : I × O → Prop) : List (I × O) → List (I × O) → Prop
  | nil : Erased silent [] []
  | kept {h kept : List (I × O)} (e : I × O) (hrest : Erased silent h kept) :
      Erased silent (e :: h) (e :: kept)
  | erased {h kept : List (I × O)} {e : I × O} (hsilent : silent e)
      (hrest : Erased silent h kept) : Erased silent (e :: h) kept

/-- **Erasure.**  Where silent entries leave the state alone, any of them can be erased
from a run: what is left is a run that ends in the same state. -/
theorem history_erased {silent : I × O → Prop}
    (hskip : ∀ s i, silent (i, (step s i).1) → (step s i).2 = s) {s : S} {l : List I}
    {kept : List (I × O)} (h : Erased silent (history step s l) kept) :
    history step s (kept.map Prod.fst) = kept ∧
      after step s (kept.map Prod.fst) = after step s l := by
  induction l generalizing s kept with
  | nil =>
      cases h
      exact ⟨rfl, rfl⟩
  | cons i l ih =>
      cases h with
      | kept e hrest =>
          obtain ⟨hhistory, hafter⟩ := ih hrest
          refine ⟨?_, hafter⟩
          rw [List.map_cons, history_cons, hhistory]
      | erased hsilent hrest =>
          have hsame := hskip s i hsilent
          rw [hsame] at hrest
          rw [after_cons, hsame]
          exact ih hrest

/-- Outputs that are empty for erased inputs survive the erasure: what is collected from
the rest is what was collected from all. -/
theorem flatMap_filter_of_nil {A B : Type} (keep : A → Bool) (f : A → List B) (l : List A)
    (hnil : ∀ a ∈ l, keep a = false → f a = []) :
    (l.filter keep).flatMap f = l.flatMap f := by
  induction l with
  | nil => rfl
  | cons a l ih =>
      have hrest := ih fun b hb => hnil b (List.mem_cons_of_mem _ hb)
      cases hk : keep a with
      | true => rw [List.filter_cons_of_pos hk, List.flatMap_cons, List.flatMap_cons, hrest]
      | false =>
          rw [List.filter_cons_of_neg (by simpa using hk), List.flatMap_cons,
            hnil a List.mem_cons_self hk, hrest, List.nil_append]

/-- **A view that evolves by labels.**  If each step moves the view of the
state by a label read off the input and its answer, or leaves it alone when
there is no label, the view at the end is the fold of the labels of the run. -/
theorem after_view {W L : Type} (view : S → W) (label : I × O → Option L) (move : W → L → W)
    (hstep : ∀ s i, view (step s i).2 =
      (label (i, (step s i).1)).elim (view s) (move (view s)))
    (s : S) (l : List I) :
    view (after step s l) = ((history step s l).filterMap label).foldl move (view s) := by
  induction l generalizing s with
  | nil => rfl
  | cons i l ih =>
      rw [after_cons, ih, hstep, history_cons]
      cases hl : label (i, (step s i).1) with
      | none => rw [List.filterMap_cons_none hl]; rfl
      | some lab => rw [List.filterMap_cons_some hl]; rfl

/-- What one step does to one cell of the state: it leaves it, puts a value into it, or
clears it. -/
inductive Effect (V : Type) where
  | keep
  | put (v : V)
  | clear
  deriving DecidableEq, Repr

/-- A cell after an effect.  A value that is put replaces the one that was there. -/
def Effect.apply {V : Type} (o : Option V) : Effect V → Option V
  | .keep => o
  | .put v => some v
  | .clear => none

/-- The effect that puts `v` under a condition and otherwise leaves the cell as it is. -/
def Effect.putIf {V : Type} (p : Prop) [Decidable p] (v : V) : Effect V :=
  if p then .put v else .keep

/-- The effect that clears the cell under a condition and otherwise leaves it as it is. -/
def Effect.clearIf {V : Type} (p : Prop) [Decidable p] : Effect V := if p then .clear else .keep

namespace Effect

variable {V : Type} {p : Prop} [Decidable p] {v w : V}

@[simp] theorem putIf_eq_put_iff : putIf p v = .put w ↔ p ∧ v = w := by
  by_cases h : p <;> simp [putIf, h]

@[simp] theorem putIf_eq_keep_iff : putIf p v = .keep ↔ ¬ p := by
  by_cases h : p <;> simp [putIf, h]

@[simp] theorem putIf_ne_clear : putIf p v ≠ .clear := by
  by_cases h : p <;> simp [putIf, h]

@[simp] theorem clearIf_ne_put : (clearIf p : Effect V) ≠ .put w := by
  by_cases h : p <;> simp [clearIf, h]

@[simp] theorem clearIf_eq_keep_iff : (clearIf p : Effect V) = .keep ↔ ¬ p := by
  by_cases h : p <;> simp [clearIf, h]

@[simp] theorem clearIf_eq_clear_iff : (clearIf p : Effect V) = .clear ↔ p := by
  by_cases h : p <;> simp [clearIf, h]

/-- A cell after a value was put into it under a condition. -/
theorem apply_putIf (o : Option V) : (putIf p v).apply o = if p then some v else o := by
  by_cases h : p <;> simp [putIf, h, apply]

/-- A cell after it was cleared under a condition. -/
theorem apply_clearIf (o : Option V) : (clearIf p).apply o = if p then none else o := by
  by_cases h : p <;> simp [clearIf, h, apply]

end Effect

/-- Some entry meets `put` and no later entry meets `cut`: what it put is still there at
the end.  Entries before it do not matter. -/
def Unrevoked {A : Type} (put cut : A → Prop) (l : List A) : Prop :=
  ∃ pre a post, l = pre ++ a :: post ∧ put a ∧ ∀ b ∈ post, ¬ cut b

/-- Only what `put` and `cut` say of the entries of the list matters, so they can be
replaced by others that say the same of these. -/
theorem unrevoked_congr {A : Type} {put put' cut cut' : A → Prop} {l : List A}
    (hput : ∀ a ∈ l, put a ↔ put' a) (hcut : ∀ a ∈ l, cut a ↔ cut' a) :
    Unrevoked put cut l ↔ Unrevoked put' cut' l := by
  constructor
  · intro h
    obtain ⟨pre, a, post, rfl, ha, hpost⟩ := h
    refine ⟨pre, a, post, rfl, (hput a (by simp)).mp ha, fun b hb => ?_⟩
    rw [← hcut b (by simp [hb])]
    exact hpost b hb
  · intro h
    obtain ⟨pre, a, post, rfl, ha, hpost⟩ := h
    refine ⟨pre, a, post, rfl, (hput a (by simp)).mpr ha, fun b hb => ?_⟩
    rw [hcut b (by simp [hb])]
    exact hpost b hb

theorem not_unrevoked_nil {A : Type} {put cut : A → Prop} : ¬ Unrevoked put cut [] := by
  intro hun
  obtain ⟨pre, a, post, h, -⟩ := hun
  simp at h

/-- With one more entry at the end, that entry counts if it meets `put`, and
otherwise must not meet `cut`. -/
theorem unrevoked_concat {A : Type} {put cut : A → Prop} {l : List A} {a : A} :
    Unrevoked put cut (l ++ [a]) ↔ put a ∨ (¬ cut a ∧ Unrevoked put cut l) := by
  constructor
  · intro h
    obtain ⟨pre, b, post, heq, hb, hpost⟩ := h
    rcases List.eq_nil_or_concat post with rfl | ⟨post', last, rfl⟩
    · obtain ⟨rfl, hlast⟩ := List.append_inj' heq rfl
      cases hlast
      exact Or.inl hb
    · have hsplit : l ++ [a] = (pre ++ b :: post') ++ [last] := by simpa using heq
      obtain ⟨rfl, hlast⟩ := List.append_inj' hsplit rfl
      cases hlast
      exact Or.inr ⟨hpost a (by simp), pre, b, post', rfl, hb, fun e he => hpost e (by simp [he])⟩
  · intro h
    rcases h with ha | ⟨hcut, pre, b, post, rfl, hb, hpost⟩
    · exact ⟨l, a, [], rfl, ha, by simp⟩
    · refine ⟨pre, b, post ++ [a], by simp, hb, ?_⟩
      intro e he
      rcases List.mem_append.mp he with he | he
      · exact hpost e he
      · rwa [List.mem_singleton.mp he]

/-- What stands at the end although there was a cut in between was put after the cut.  The
cut itself puts nothing. -/
theorem unrevoked_after_cut {A : Type} {put cut : A → Prop} {l r : List A} {a : A}
    (hcut : cut a) (hput : ¬ put a) (h : Unrevoked put cut (l ++ a :: r)) :
    Unrevoked put cut r := by
  induction r using List.reverseRecOn with
  | nil =>
      rcases unrevoked_concat.mp h with ha | ⟨hclear, -⟩
      · exact absurd ha hput
      · exact absurd hcut hclear
  | append_singleton r b ih =>
      rw [← List.cons_append, ← List.append_assoc] at h
      rw [unrevoked_concat] at h ⊢
      exact h.imp_right (And.imp_right ih)

section Cells

variable {A V : Type} (eff : A → Effect V)

/-- A cell that starts empty holds `v` exactly when `v` was put and nothing
touched the cell later. -/
theorem foldl_apply_eq_some_iff (l : List A) (v : V) :
    (l.map eff).foldl Effect.apply none = some v ↔
      Unrevoked (fun a => eff a = .put v) (fun a => eff a ≠ .keep) l := by
  induction l using List.reverseRecOn with
  | nil => simp [not_unrevoked_nil]
  | append_singleton l a ih =>
      rw [List.map_append, List.map_singleton, List.foldl_concat, unrevoked_concat, ← ih]
      cases eff a <;> simp [Effect.apply]

/-- A cell that starts empty holds something exactly when something was put and
the cell was not cleared later. -/
theorem foldl_apply_isSome_iff (l : List A) :
    ((l.map eff).foldl Effect.apply none).isSome ↔
      Unrevoked (fun a => ∃ v, eff a = .put v) (fun a => eff a = .clear) l := by
  induction l using List.reverseRecOn with
  | nil => simp [not_unrevoked_nil]
  | append_singleton l a ih =>
      rw [List.map_append, List.map_singleton, List.foldl_concat, unrevoked_concat, ← ih]
      cases eff a <;> simp [Effect.apply]

end Cells

section RunCells

variable {V : Type} (cell : S → Option V) (eff : I × O → Effect V)
  (hstep : ∀ s i, cell (step s i).2 = (eff (i, (step s i).1)).apply (cell s))

include hstep

/-- A cell that every step changes by the effect of its input and answer is the
fold of the effects of the run. -/
theorem after_cell (s : S) (l : List I) :
    cell (after step s l) = ((history step s l).map eff).foldl Effect.apply (cell s) := by
  have hview := after_view cell (fun e => some (eff e)) Effect.apply hstep s l
  simpa using hview

/-- **The last write decides.**  A cell that starts empty holds `v` at the end
of a run exactly when the run has an entry that puts `v` and no later entry
touches the cell. -/
theorem after_cell_eq_some_iff {s : S} (hs : cell s = none) (l : List I) (v : V) :
    cell (after step s l) = some v ↔
      Unrevoked (fun e => eff e = .put v) (fun e => eff e ≠ .keep) (history step s l) := by
  rw [after_cell cell eff hstep, hs, foldl_apply_eq_some_iff]

/-- A cell that starts empty holds something at the end of a run exactly when
the run has an entry that puts something and no later entry clears it. -/
theorem after_cell_isSome_iff {s : S} (hs : cell s = none) (l : List I) :
    (cell (after step s l)).isSome ↔
      Unrevoked (fun e => ∃ v, eff e = .put v) (fun e => eff e = .clear)
        (history step s l) := by
  rw [after_cell cell eff hstep, hs, foldl_apply_isSome_iff]

end RunCells

section Wrapping

variable {J P : Type} {inner : S → J → P × S} {label : I → Option J}
  (hstate : ∀ s i, (step s i).2 = (label i).elim s fun j => (inner s j).2)

include hstate

/-- **A machine around a machine.**  If every input makes at most one step of an
inner machine on the same state, a run ends where the inner steps end. -/
theorem after_wrapped (s : S) (l : List I) :
    after step s l = after inner s (l.filterMap label) := by
  induction l generalizing s with
  | nil => rfl
  | cons i l ih =>
      rw [after_cons, ih, hstate]
      cases hi : label i with
      | none => rw [List.filterMap_cons_none hi]; rfl
      | some j => rw [List.filterMap_cons_some hi]; rfl

/-- What stands unrevoked in the history of the outer machine is what stands
unrevoked in that of the inner one. -/
theorem unrevoked_wrapped {put cut : I × O → Prop} {put' cut' : J × P → Prop}
    (hput : ∀ s i, put (i, (step s i).1) ↔ ∃ j, label i = some j ∧ put' (j, (inner s j).1))
    (hcut : ∀ s i, cut (i, (step s i).1) ↔ ∃ j, label i = some j ∧ cut' (j, (inner s j).1))
    (s : S) (l : List I) :
    Unrevoked put cut (history step s l) ↔
      Unrevoked put' cut' (history inner s (l.filterMap label)) := by
  induction l using List.reverseRecOn with
  | nil => exact iff_of_false not_unrevoked_nil not_unrevoked_nil
  | append_singleton l i ih =>
      rw [history_append, history_cons, history_nil, unrevoked_concat, ih, hput, hcut,
        List.filterMap_append]
      cases hi : label i with
      | none => simp [hi]
      | some j =>
          have hlast : [i].filterMap label = [j] := by simp [hi]
          rw [hlast, history_append, history_cons, history_nil, unrevoked_concat,
            after_wrapped hstate]
          simp

end Wrapping

end Machine

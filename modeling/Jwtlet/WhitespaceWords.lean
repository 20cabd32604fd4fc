import Jwtlet.RustText

/-!
# The words of a text

`split_whitespace` cuts a text into its words.  Everything here follows from one
equation: a text cut at a whitespace character has the words of both sides
(`charWords_append_cons`).

* `mem_splitWhitespace_iff` - the words are the maximal runs of characters that
  are not whitespace.
* `splitWhitespace_intercalate` - joining texts by single spaces joins their
  words.
* `splitWhitespace_intercalate_words` - splitting undoes joining words.
-/

namespace Rust

/-- A word: not empty, and without whitespace.  Scope names are words, so that a list of
them can be written into one parameter. -/
def IsWord (w : String) : Prop := w ≠ "" ∧ ∀ c ∈ w.toList, isWhitespace c = false

/-- `w` stands in `s` as a run of characters that are not whitespace and that
cannot be made longer at either end. -/
structure IsMaximalRun (s w : String) : Prop where
  word : IsWord w
  place : ∃ before after, s.toList = before ++ (w.toList ++ after) ∧
    (∀ c ∈ before.getLast?, isWhitespace c = true) ∧
    ∀ c ∈ after.head?, isWhitespace c = true

/-- The pieces between whitespace that are not empty, on lists of characters.  The
recursion of `splitOnP` is followed here, and texts are brought in at the end. -/
def charWords (l : List Char) : List (List Char) :=
  (l.splitOnP isWhitespace).filter fun w => !w.isEmpty

/-- **A text cut at a whitespace character has the words of both sides.** The character
itself belongs to no word, and no word reaches across it. -/
theorem charWords_append_cons (l r : List Char) {c : Char} (hc : isWhitespace c = true) :
    charWords (l ++ c :: r) = charWords l ++ charWords r := by
  rw [charWords, List.splitOnP_append_cons l r hc, List.filter_append]
  rfl

@[simp] theorem charWords_nil : charWords [] = [] := by
  simp [charWords, List.splitOnP_nil]

/-- A text without whitespace is one word, unless it is empty, and then it has none. -/
theorem charWords_of_run {w : List Char} (hne : w ≠ [])
    (hrun : ∀ c ∈ w, isWhitespace c = false) : charWords w = [w] := by
  rw [charWords, List.splitOnP_eq_singleton hrun]
  simp [hne]

/-- A text is a run without whitespace, followed by nothing or by a whitespace
character and more text. -/
theorem exists_leading_run (l : List Char) :
    ∃ run, (∀ c ∈ run, isWhitespace c = false) ∧
      (l = run ∨ ∃ c rest, isWhitespace c = true ∧ l = run ++ c :: rest) := by
  induction l with
  | nil => exact ⟨[], by simp, Or.inl rfl⟩
  | cons a l ih =>
      cases ha : isWhitespace a with
      | true => exact ⟨[], by simp, Or.inr ⟨a, l, ha, rfl⟩⟩
      | false =>
          obtain ⟨run, hrun, hl⟩ := ih
          refine ⟨a :: run, by simpa [ha] using hrun, ?_⟩
          rcases hl with rfl | ⟨c, rest, hc, rfl⟩
          · exact Or.inl rfl
          · exact Or.inr ⟨c, rest, hc, rfl⟩

/-- Every word of a text stands in it as a maximal run.  The induction is on the length of
the text, which is cut after its first run. -/
theorem charWords_place {l w : List Char} (h : w ∈ charWords l) :
    w ≠ [] ∧ (∀ c ∈ w, isWhitespace c = false) ∧
      ∃ before after, l = before ++ (w ++ after) ∧
        (∀ c ∈ before.getLast?, isWhitespace c = true) ∧
        ∀ c ∈ after.head?, isWhitespace c = true := by
  -- Induction on the length: the leading run is one word, the rest has the others.
  induction hn : l.length using Nat.strong_induction_on generalizing l with
  | _ n ih =>
      obtain ⟨run, hrun, hl⟩ := exists_leading_run l
      have hhead : w ∈ charWords run → w = run ∧ run ≠ [] := by
        intro hw
        by_cases hne : run = []
        · simp [hne] at hw
        · rw [charWords_of_run hne hrun, List.mem_singleton] at hw
          exact ⟨hw, hne⟩
      rcases hl with rfl | ⟨c, rest, hc, rfl⟩
      · obtain ⟨rfl, hne⟩ := hhead h
        exact ⟨hne, hrun, [], [], by simp, by simp, by simp⟩
      · rw [charWords_append_cons run rest hc, List.mem_append] at h
        rcases h with h | h
        · obtain ⟨rfl, hne⟩ := hhead h
          exact ⟨hne, hrun, [], c :: rest, by simp, by simp, by simpa using hc⟩
        · have hlt : rest.length < n := by
            rw [← hn, List.length_append, List.length_cons]
            omega
          obtain ⟨hne, hword, before, after, rfl, hbefore, hafter⟩ := ih _ hlt h rfl
          refine ⟨hne, hword, run ++ c :: before, after, by simp, ?_, hafter⟩
          intro d hd
          rw [List.getLast?_append, List.getLast?_cons] at hd
          cases hlast : before.getLast? with
          | none => simp [hlast] at hd; rw [← hd]; exact hc
          | some e =>
              simp only [hlast, Option.getD_some, Option.some_or, Option.mem_def,
                Option.some.injEq] at hd
              exact hbefore d (by rw [hlast, hd]; rfl)

/-- Every maximal run of a text is one of its words: the whitespace on either side of it,
where there is any, is a place to cut. -/
theorem mem_charWords_of_place {before w after : List Char} (hne : w ≠ [])
    (hword : ∀ c ∈ w, isWhitespace c = false)
    (hbefore : ∀ c ∈ before.getLast?, isWhitespace c = true)
    (hafter : ∀ c ∈ after.head?, isWhitespace c = true) :
    w ∈ charWords (before ++ (w ++ after)) := by
  have hright : w ∈ charWords (w ++ after) := by
    cases after with
    | nil => simp [charWords_of_run hne hword]
    | cons c rest =>
        rw [charWords_append_cons w rest (hafter c (by simp)), charWords_of_run hne hword]
        simp
  rcases List.eq_nil_or_concat before with rfl | ⟨init, c, rfl⟩
  · simpa using hright
  · have hc : isWhitespace c = true := hbefore c (by simp)
    rw [List.concat_eq_append, List.append_assoc, List.singleton_append,
      charWords_append_cons init _ hc]
    exact List.mem_append_right _ hright

/-- The words of a string are those of its list of characters. -/
theorem splitWhitespace_eq (s : String) :
    splitWhitespace s = (charWords s.toList).map String.ofList := rfl

/-- **The words of a text are its maximal runs** of characters that are not whitespace.
The way in which `split_whitespace` finds them is left behind here. -/
theorem mem_splitWhitespace_iff {s w : String} : w ∈ splitWhitespace s ↔ IsMaximalRun s w := by
  rw [splitWhitespace_eq, List.mem_map]
  constructor
  · intro h
    obtain ⟨l, hl, rfl⟩ := h
    obtain ⟨hne, hword, before, after, hplace⟩ := charWords_place hl
    refine ⟨⟨?_, by simpa using hword⟩, before, after, by simpa using hplace⟩
    intro hempty
    exact hne (by simpa using congrArg String.toList hempty)
  · intro h
    obtain ⟨⟨hne, hword⟩, before, after, hs, hbefore, hafter⟩ := h
    have hne' : w.toList ≠ [] := by simpa using hne
    refine ⟨w.toList, ?_, String.ofList_toList⟩
    rw [hs]
    exact mem_charWords_of_place hne' hword hbefore hafter

/-- What a text is split into are words, whatever the text: nothing empty and nothing with
whitespace in it. -/
theorem isWord_of_mem_splitWhitespace {s w : String} (h : w ∈ splitWhitespace s) : IsWord w :=
  (mem_splitWhitespace_iff.mp h).word

/-- A word is its own only word, so splitting it gives it back and nothing else. -/
theorem splitWhitespace_of_isWord {w : String} (h : IsWord w) : splitWhitespace w = [w] := by
  have hne : w.toList ≠ [] := by simpa using h.1
  rw [splitWhitespace_eq, charWords_of_run hne h.2]
  simp

/-- A text whose only word is the text itself is a word, and no other text is. -/
theorem isWord_iff_splitWhitespace {w : String} : IsWord w ↔ splitWhitespace w = [w] := by
  constructor
  · exact splitWhitespace_of_isWord
  · intro h
    apply isWord_of_mem_splitWhitespace (s := w)
    rw [h]
    exact List.mem_singleton.mpr rfl

/-- Two texts with a space between them have the words of the first, followed by those of
the second. -/
theorem splitWhitespace_append_space (s t : String) :
    splitWhitespace (s ++ " " ++ t) = splitWhitespace s ++ splitWhitespace t := by
  have hlist : (s ++ " " ++ t).toList = s.toList ++ ' ' :: t.toList := by simp
  rw [splitWhitespace_eq, hlist, charWords_append_cons _ _ (by decide), List.map_append]
  rfl

@[simp] theorem splitWhitespace_empty : splitWhitespace "" = [] := by
  simp [splitWhitespace_eq]

/-- **Joining texts by single spaces joins their words.** The texts need not be words
themselves; a blank one among them adds nothing. -/
theorem splitWhitespace_intercalate (l : List String) :
    splitWhitespace (" ".intercalate l) = l.flatMap splitWhitespace := by
  induction l with
  | nil => simp
  | cons s l ih =>
      cases l with
      | nil => simp
      | cons t l =>
          rw [String.intercalate_cons_cons, splitWhitespace_append_space, ih]
          exact List.flatMap_cons.symm

/-- **Splitting undoes joining words.** This is how a list of scopes gets through a
parameter that is one string. -/
theorem splitWhitespace_intercalate_words {l : List String} (h : ∀ w ∈ l, IsWord w) :
    splitWhitespace (" ".intercalate l) = l := by
  rw [splitWhitespace_intercalate]
  induction l with
  | nil => rfl
  | cons w l ih =>
      rw [List.flatMap_cons, splitWhitespace_of_isWord (h w List.mem_cons_self),
        ih fun v hv => h v (List.mem_cons_of_mem _ hv), List.singleton_append]

end Rust

import Mathlib.Data.List.Basic
import Mathlib.Data.List.TakeWhile
import Mathlib.Tactic.Lemma
import Sentential.Proofs.Text.Runs
import Sentential.Proofs.Text.Tidy
import Sentential.Text.WordChar

/-!
# The words of a text

A word is a run of word characters. Texts are understood word by word (`wordInduction`), a phrase is
a text that begins and ends with a word, and tidying keeps the words (`wordRuns_tidy`), for no blank
stands in a word.
-/

namespace Sentential.Text

/-- Whether a phrase begins and ends with a word character. -/
def IsPhrase (q : Text) : Prop :=
  q.head?.any isWordChar = true ∧ q.getLast?.any isWordChar = true

instance : DecidablePred IsPhrase := fun q =>
  inferInstanceAs (Decidable (q.head?.any isWordChar = true ∧ q.getLast?.any isWordChar = true))

/-- A phrase is not empty. -/
lemma IsPhrase.ne_nil {q : Text} (phrase : IsPhrase q) : q ≠ [] := by
  rintro rfl
  cases phrase.1

/-- A text of word characters is a phrase of one word. -/
lemma isPhrase_of_all {q : Text} (ne : q ≠ []) (h : ∀ c ∈ q, isWordChar c = true) : IsPhrase q := by
  obtain ⟨c, s, rfl⟩ := List.exists_cons_of_ne_nil ne
  refine ⟨h c List.mem_cons_self, ?_⟩
  rw [List.getLast?_eq_some_getLast ne]
  exact h _ (List.getLast_mem ne)

/-- Whether a text is a word. -/
def IsWord (r : Text) : Prop :=
  r ≠ [] ∧ ∀ c ∈ r, isWordChar c = true

instance : DecidablePred IsWord := fun r =>
  inferInstanceAs (Decidable (r ≠ [] ∧ ∀ c ∈ r, isWordChar c = true))

/-- A word has itself for its only word. -/
lemma IsWord.wordRuns {r : Text} (word : IsWord r) : wordRuns r = [r] :=
  runs_of_all word.1 word.2

/-- A word is a phrase. -/
lemma IsWord.isPhrase {r : Text} (word : IsWord r) : IsPhrase r :=
  isPhrase_of_all word.1 word.2

/-- The word at the front of a text and what follows it. -/
lemma first_word {c : Char} (s : Text) (h : isWordChar c = true) :
    ∃ r w, c :: s = r ++ w ∧ IsWord r ∧ w.head?.any isWordChar = false ∧
      Text.wordRuns (c :: s) = r :: Text.wordRuns w := by
  refine ⟨c :: s.takeWhile isWordChar, s.dropWhile isWordChar, ?_, ⟨List.cons_ne_nil _ _, ?_⟩,
    head?_any_dropWhile s, runs_cons s h⟩
  · rw [List.cons_append, List.takeWhile_append_dropWhile]
  · intro d mem
    rcases List.mem_cons.1 mem with rfl | mem
    · exact h
    · exact List.mem_takeWhile_imp mem

/-- Induction over the words of a text and the characters between them. -/
lemma wordInduction {motive : Text → Prop} (nil : motive [])
    (other : ∀ c s, isWordChar c = false → motive s → motive (c :: s))
    (word : ∀ r s, IsWord r → s.head?.any isWordChar = false → motive s → motive (r ++ s))
    (s : Text) : motive s := by
  induction hn : s.length using Nat.strongRecOn generalizing s with
  | ind n ih =>
    rcases s with _ | ⟨c, s⟩
    · exact nil
    · by_cases h : isWordChar c = true
      · obtain ⟨r, w, e, isWord, stop, _⟩ := first_word s h
        rw [e]
        refine word r w isWord stop (ih w.length ?_ w rfl)
        have shorter := congrArg List.length e
        have pos := List.length_pos_of_ne_nil isWord.1
        simp only [List.length_append, List.length_cons] at shorter hn
        omega
      · exact other c s (by simpa using h) (ih s.length (by simp at hn; omega) s rfl)

/-- A text that ends with a word character has a word. -/
lemma wordRuns_ne_nil_of_last {s : Text} (h : s.getLast?.any isWordChar = true) :
    wordRuns s ≠ [] := by
  rcases s.eq_nil_or_concat' with rfl | ⟨s, c, rfl⟩
  · cases h
  · rw [List.getLast?_concat] at h
    exact runs_ne_nil (List.mem_append_right s List.mem_cons_self) h

/-- Another character in front is in no word. -/
lemma wordRuns_cons {c : Char} (s : Text) (h : isWordChar c = false) :
    wordRuns (c :: s) = wordRuns s :=
  runs_cons_of_not s h

/-- Where no word reaches across, the words of two texts are put together. -/
lemma wordRuns_append {s t : Text} (parted : Parted isWordChar s t) :
    wordRuns (s ++ t) = wordRuns s ++ wordRuns t :=
  runs_append parted

/-- The first word of a phrase and what follows it. -/
lemma IsPhrase.first {q : Text} (phrase : IsPhrase q) :
    ∃ r w, q = r ++ w ∧ IsWord r ∧ w.head?.any isWordChar = false ∧
      wordRuns q = r :: wordRuns w := by
  obtain ⟨c, s, rfl⟩ := List.exists_cons_of_ne_nil phrase.ne_nil
  exact first_word s phrase.1

/-- Whether a word stands in a text between two word boundaries. -/
def StandsIn (r s : Text) : Prop :=
  ∃ u v, s = u ++ (r ++ v) ∧ boundary u.getLast? r.head? = true ∧
    boundary r.getLast? v.head? = true

/-- The words of a text are those that stand in it. -/
lemma standsIn_iff {r s : Text} (word : IsWord r) : StandsIn r s ↔ r ∈ wordRuns s := by
  have phrase : IsPhrase r := word.isPhrase
  constructor
  · rintro ⟨u, v, rfl, start, stop⟩
    rw [boundary, phrase.1] at start
    rw [boundary, phrase.2] at stop
    have left : Parted isWordChar u (r ++ v) := .inl (by simpa using start)
    have right : Parted isWordChar r v := .inr (by simpa using stop)
    rw [wordRuns_append left, wordRuns_append right, word.wordRuns]
    simp
  · intro mem
    obtain ⟨u, v, e, left, right⟩ := exists_of_mem_runs mem
    refine ⟨u, v, e, ?_, ?_⟩
    · rw [boundary, left, phrase.1]
      rfl
    · rw [boundary, right, phrase.2]
      rfl

/-! ## Blanks between words -/

/-- A code point in a table lies in one of its ranges. -/
lemma mem_of_inRanges {code : Nat} {table : List (Nat × Nat)} (h : inRanges code table = true) :
    ∃ range ∈ table, range.1 ≤ code ∧ code ≤ range.2 := by
  induction table with
  | nil => cases h
  | cons range more ih =>
    rw [inRanges] at h
    split at h
    · cases h
    · rename_i low
      split at h
      · rename_i high
        exact ⟨range, List.mem_cons_self, by omega, high⟩
      · obtain ⟨range', mem, h'⟩ := ih h
        exact ⟨range', List.mem_cons_of_mem range mem, h'⟩

set_option maxRecDepth 4000 in
/-- A blank is no word character. -/
lemma isWordChar_of_isBlank {c : Char} (blank : isBlank c = true) : isWordChar c = false := by
  have table : ∀ range ∈ blankRanges, ∀ k < range.2 - range.1 + 1,
      inRanges (range.1 + k) wordRanges = false := by
    decide
  obtain ⟨range, mem, low, high⟩ := mem_of_inRanges blank
  have h := table range mem (c.toNat - range.1) (by omega)
  rwa [Nat.add_sub_cancel' low] at h

/-- A word has no blanks. -/
lemma IsWord.isBlank {r : Text} (word : IsWord r) : ∀ c ∈ r, isBlank c = false := by
  intro c mem
  have isWord := word.2 c mem
  rw [Bool.eq_false_iff]
  intro blank
  rw [isWordChar_of_isBlank blank] at isWord
  cases isWord

/-- Tidying keeps the words. -/
lemma wordRuns_tidy (s : Text) : wordRuns (tidy s) = wordRuns s := by
  have space : isWordChar ' ' = false := isWordChar_of_isBlank isBlank_space
  -- the gap has no word of its own
  have behind : ∀ s, wordRuns (gap s ++ tidy s) = wordRuns (tidy s) := by
    intro s
    rw [gap]
    split
    · exact wordRuns_cons (tidy s) space
    · rfl
  induction s using wordInduction with
  | nil => rfl
  | other c s h ih =>
    rw [wordRuns_cons s h]
    by_cases blank : isBlank c = true
    · rw [tidy, words_cons_blank s blank]
      exact ih
    · rw [tidy_cons s (by simpa using blank), wordRuns_cons _ h, behind, ih]
  | word r s word stop ih =>
    rw [tidy_append s word.1 word.isBlank, wordRuns_append (.inr (head?_gap_tidy space stop)),
      behind, ih, wordRuns_append (.inr stop)]

end Sentential.Text

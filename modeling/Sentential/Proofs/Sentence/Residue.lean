import Mathlib.Tactic.Lemma
import Sentential.Proofs.Sentence.Taken
import Sentential.Sentence.Translation

/-!
# What translation leaves of the connectives

The last two rules write a sign between spaces for words that they take as a whole
(`Pattern.WritesSign`). So where the word of a conjunction stands behind a blank in what one of them
has written, it stood there before, and the rule took nothing there (`WritesSign.exists_place`). The
rule for conjunctions takes every such word, the rule for disjunctions brings none back, and neither
does tidying (`behindBlank_of_tidy`); and no word of a disjunction is left behind the last rule.
Hence a translation has no connective between operands as words any more, but for an `e` with no
blank before it (`translate_settled`).
-/

namespace Sentential

open Text

/-! ## A word behind a blank -/

namespace Sentence

/-- Whether a word stands between two word boundaries right behind a blank. -/
def BehindBlank (r s : Text) : Prop :=
  ∃ u b v, s = u ++ b :: (r ++ v) ∧ isBlank b = true ∧ boundary (some b) r.head? = true ∧
    boundary r.getLast? v.head? = true

/-- Whether a text begins with the word of a conjunction. -/
def AndFirst (s : Text) : Prop :=
  ∃ v, s = 'e' :: v ∧ v.head?.any isWordChar = false

section
variable {c : Char} {s : Text}

/-- A text begins with the word of a conjunction if no word character follows an `e`. -/
lemma andFirst_cons : AndFirst (c :: s) ↔ c = 'e' ∧ s.head?.any isWordChar = false := by
  constructor
  · rintro ⟨v, e, stop⟩
    obtain ⟨rfl, rfl⟩ := List.cons.inj e
    exact ⟨rfl, stop⟩
  · rintro ⟨rfl, stop⟩
    exact ⟨s, rfl, stop⟩

/-- The word of a conjunction stands behind the first blank or behind a later one. -/
lemma behindBlank_cons :
    BehindBlank andWord (c :: s) ↔ isBlank c = true ∧ AndFirst s ∨ BehindBlank andWord s := by
  constructor
  · rintro ⟨u, b, v, e, blank, start, stop⟩
    cases u with
    | nil =>
      obtain ⟨rfl, rfl⟩ := List.cons.inj e
      refine .inl ⟨blank, v, rfl, ?_⟩
      simpa [boundary, andWord, isWordChar_e] using stop
    | cons d u => exact .inr ⟨u, b, v, (List.cons.inj e).2, blank, start, stop⟩
  · rintro (⟨blank, v, rfl, stop⟩ | ⟨u, b, v, rfl, rest⟩)
    · refine ⟨[], c, v, rfl, blank, ?_, ?_⟩
      · simp [boundary, andWord, isWordChar_e, isWordChar_of_isBlank blank]
      · simp [boundary, andWord, isWordChar_e, stop]
    · exact ⟨c :: u, b, v, rfl, rest⟩

/-- A word behind a blank is so with a text more in front. -/
lemma BehindBlank.append {r s : Text} (stands : BehindBlank r s) (x : Text) :
    BehindBlank r (x ++ s) := by
  obtain ⟨u, b, v, rfl, rest⟩ := stands
  exact ⟨x ++ u, b, v, by rw [List.append_assoc], rest⟩

/-- There is no word in the empty text. -/
lemma not_behindBlank_nil : ¬ BehindBlank andWord [] := by
  rintro ⟨u, b, v, e, -⟩
  simp at e

end

end Sentence

/-! ## Signs for words -/

namespace Text.Pattern

open Sentence

/-- Whether a pattern takes stretches with a word at their ends and writes a sign between spaces. -/
def WritesSign (p : Pattern) : Prop :=
  p.TakesWords fun x w => x.getLast?.any isWordChar = true ∧
    ∃ g, w = [' ', g, ' '] ∧ isBlank g = false ∧ isWordChar g = false

section
variable {p : Pattern} {before : Option Char} {s : Text}

/-- Where the pattern is found, a sign is written between spaces. -/
lemma WritesSign.rewriteFrom_hit (writes : p.WritesSign) {hit : Hit}
    (found : p before s = some hit) :
    ∃ x v g before', s = x ++ v ∧ x ≠ [] ∧
      (before.any isWordChar = true → s.head?.any isWordChar = false) ∧
      v.head?.any isWordChar = false ∧ isBlank g = false ∧ isWordChar g = false ∧
      rewriteFrom p 0 before s = ' ' :: g :: ' ' :: rewriteFrom p 0 before' v := by
  obtain ⟨x, v, w, before', rfl, ne, start, stop, ⟨last, g, rfl, solid, other⟩, out⟩ :=
    TakesWords.rewriteFrom_hit writes found
  rw [Parted, last] at stop
  refine ⟨x, v, g, before', rfl, ne, ?_, by simpa using stop, solid, other, out⟩
  rwa [List.head?_append_of_ne_nil x ne]

/-- What a text begins with behind a word is the same in what is written for it. -/
lemma WritesSign.head_rewriteFrom (writes : p.WritesSign) (word : before.any isWordChar = true) :
    (rewriteFrom p 0 before s).head?.any isWordChar = s.head?.any isWordChar := by
  cases s with
  | nil => rw [rewriteFrom_nil]
  | cons c s =>
    cases found : p before (c :: s) with
    | none =>
      rw [rewriteFrom_miss found]
      rfl
    | some hit =>
      obtain ⟨_, _, _, _, -, -, start, -, -, -, e⟩ := writes.rewriteFrom_hit found
      rw [e, start word]
      exact isWordChar_ends ' ' (by decide)

/-- A text that begins with the word of a conjunction did so before. -/
lemma WritesSign.andFirst (writes : p.WritesSign)
    (first : AndFirst (rewriteFrom p 0 before s)) : AndFirst s := by
  cases s with
  | nil =>
    rw [rewriteFrom_nil] at first
    exact first
  | cons c s =>
    cases found : p before (c :: s) with
    | none =>
      rw [rewriteFrom_miss found, andFirst_cons] at first
      obtain ⟨rfl, stop⟩ := first
      have letter : (some 'e').any isWordChar = true := isWordChar_e
      rw [writes.head_rewriteFrom letter] at stop
      exact andFirst_cons.2 ⟨rfl, stop⟩
    | some hit =>
      obtain ⟨_, _, _, _, -, -, -, -, -, -, e⟩ := writes.rewriteFrom_hit found
      rw [e, andFirst_cons] at first
      exact absurd first.1 (by decide)

/-- The word of a conjunction that stands behind a blank in a rewritten text stood there before, and
nothing was taken at the blank. -/
lemma WritesSign.exists_place (writes : p.WritesSign)
    (stands : BehindBlank andWord (rewriteFrom p 0 before s)) :
    BehindBlank andWord s ∧
      ∃ before c t, isBlank c = true ∧ AndFirst t ∧ p before (c :: t) = none := by
  -- the text behind what is taken is shorter, so the induction is on the length
  induction hn : s.length using Nat.strongRecOn generalizing before s with
  | ind n ih =>
    cases s with
    | nil =>
      rw [rewriteFrom_nil] at stands
      exact absurd stands not_behindBlank_nil
    | cons c s =>
      cases found : p before (c :: s) with
      | none =>
        rw [rewriteFrom_miss found, behindBlank_cons] at stands
        rcases stands with ⟨blank, first⟩ | stands
        · have first' := writes.andFirst first
          exact ⟨behindBlank_cons.2 (.inl ⟨blank, first'⟩), before, c, s, blank, first', found⟩
        · obtain ⟨old, place⟩ := ih s.length (by simp at hn; omega) stands rfl
          exact ⟨behindBlank_cons.2 (.inr old), place⟩
      | some hit =>
        obtain ⟨x, v, g, before', e, ne, -, stop, solid, other, out⟩ := writes.rewriteFrom_hit found
        rw [out, behindBlank_cons, behindBlank_cons, behindBlank_cons, andFirst_cons] at stands
        rcases stands with ⟨-, rfl, -⟩ | ⟨blank, -⟩ | ⟨-, first⟩ | stands
        · rw [isWordChar_e] at other
          cases other
        · rw [solid] at blank
          cases blank
        · -- no word stands at the front of what is behind a word
          obtain ⟨w, rfl, -⟩ := writes.andFirst first
          rw [List.head?_cons, Option.any_some, isWordChar_e] at stop
          cases stop
        · have shorter := congrArg List.length e
          have pos := List.length_pos_of_ne_nil ne
          rw [List.length_append] at shorter
          obtain ⟨old, place⟩ := ih v.length (by omega) stands rfl
          exact ⟨e ▸ old.append x, place⟩

end

end Text.Pattern

/-! ## The last two rules -/

namespace Sentence

open Pattern Symbolic

section
variable {s : Text}

/-- The rule for conjunctions writes its sign. -/
lemma conjunctionRule_writesSign : conjunctionRule.pattern.WritesSign := by
  refine conjunctionRule_takesWords.mono ?_
  rintro x w ⟨⟨c, -, rfl⟩, rfl⟩
  exact ⟨isWordChar_e, '∧', rfl, isBlank_of_sign _ (by decide), isWordChar_of_sign _ (by decide)⟩

/-- The rule for conjunctions takes every blank with the word behind it. -/
lemma conjunctionRule_takes {before : Option Char} {c : Char} {t : Text} (blank : isBlank c = true)
    (first : AndFirst t) : conjunctionRule.pattern before (c :: t) ≠ none := by
  obtain ⟨v, rfl, stop⟩ := first
  have found : findConjunction before (c :: 'e' :: v) = some ⟨1, []⟩ := by
    simp [findConjunction, blank, boundary, isWordChar_e, stop]
  change (findConjunction before (c :: 'e' :: v)).map _ ≠ none
  rw [found]
  exact Option.some_ne_none _

/-- The rule for disjunctions writes its sign. -/
lemma disjunctionRule_writesSign : disjunctionRule.pattern.WritesSign := by
  refine disjunctionRule_takesWords.mono ?_
  rintro x w ⟨rfl, rfl⟩
  exact ⟨by decide, '∨', rfl, isBlank_of_sign _ (by decide), isWordChar_of_sign _ (by decide)⟩

/-- The rule for conjunctions leaves none of their words behind a blank. -/
lemma not_behindBlank_conjunction : ¬ BehindBlank andWord (conjunctionRule.apply s) := by
  intro stands
  obtain ⟨-, before, c, t, blank, first, miss⟩ := conjunctionRule_writesSign.exists_place stands
  exact conjunctionRule_takes blank first miss

/-- The rule for disjunctions leaves none of their words. -/
lemma not_mem_disjunction : orWord ∉ wordRuns (disjunctionRule.apply s) := by
  have word : IsWord orWord := by decide
  have other : orWord ∉ wordRuns " ∨ ".toList := by decide +kernel
  rw [Rule.apply, disjunctionRule_pattern, wordRuns_rewrite_whole word (by decide),
    List.mem_flatMap]
  rintro ⟨r, -, mem⟩
  split at mem
  · exact other mem
  · rename_i ne
    exact ne (List.mem_singleton.1 mem).symm

/-! ## Translations -/

/-- If no word goes on in what tidying leaves, none went on before. -/
lemma head?_of_gap_tidy (stop : (gap s ++ tidy s).head?.any isWordChar = false) :
    s.head?.any isWordChar = false := by
  cases s with
  | nil => rfl
  | cons c s =>
    by_cases blank : isBlank c = true
    · exact isWordChar_of_isBlank blank
    · have solid : isBlank c = false := by simpa using blank
      rwa [gap_cons_of_not s solid, tidy_cons s solid] at stop

/-- A word at the front of what tidying leaves stands at the front, or behind a blank. -/
lemma behindBlank_of_andFirst {c : Char} (blank : isBlank c = true) (first : AndFirst (tidy s)) :
    BehindBlank andWord (c :: s) := by
  induction s generalizing c with
  | nil =>
    obtain ⟨v, e, -⟩ := first
    cases e
  | cons d s ih =>
    by_cases blank' : isBlank d = true
    · rw [tidy_cons_blank s blank'] at first
      exact (ih blank' first).append [c]
    · rw [tidy_cons s (by simpa using blank'), andFirst_cons] at first
      obtain ⟨rfl, stop⟩ := first
      exact behindBlank_cons.2 (.inl ⟨blank, andFirst_cons.2 ⟨rfl, head?_of_gap_tidy stop⟩⟩)

/-- Tidying brings up no word behind a blank. -/
lemma behindBlank_of_tidy (stands : BehindBlank andWord (tidy s)) : BehindBlank andWord s := by
  induction s with
  | nil => exact absurd stands not_behindBlank_nil
  | cons c s ih =>
    by_cases blank : isBlank c = true
    · rw [tidy_cons_blank s blank] at stands
      exact (ih stands).append [c]
    · rw [tidy_cons s (by simpa using blank), behindBlank_cons, gap] at stands
      rcases stands with ⟨blank', -⟩ | stands
      · exact absurd blank' blank
      · refine BehindBlank.append ?_ [c]
        split at stands
        · rename_i start
          rw [List.singleton_append, behindBlank_cons] at stands
          rcases stands with ⟨-, first⟩ | stands
          · -- the space is left of the blanks behind which the word stands
            have ne : s ≠ [] := by
              rintro rfl
              exact start.2 rfl
            obtain ⟨d, s, rfl⟩ := List.exists_cons_of_ne_nil ne
            have blank' : isBlank d = true := start.1
            exact behindBlank_of_andFirst blank' (tidy_cons_blank s blank' ▸ first)
          · exact ih stands
        · exact ih stands

/-- The words of an equivalence have one of a conjunction behind a blank. -/
lemma behindBlank_of_iff (stands : StandsIn (linkWord .iff) s) : BehindBlank andWord s := by
  obtain ⟨u, v, rfl, -, -⟩ := stands
  refine ⟨u ++ "se".toList, ' ', " somente se".toList ++ v, ?_, isBlank_space, by decide, ?_⟩
  · rw [List.append_assoc]
    rfl
  · exact (by decide : boundary andWord.getLast? (some ' ') = true)

/-- In a translation the word of a disjunction does not stand, nor does the word of a conjunction
behind a blank, nor do the words of an equivalence, and its blanks are single spaces inside. -/
theorem translate_settled [Engine] (d : Dictionary) (s : Text) :
    ¬ StandsIn orWord (translate d s) ∧ ¬ BehindBlank andWord (translate d s) ∧
      ¬ StandsIn (linkWord .iff) (translate d s) ∧ tidy (translate d s) = translate d s := by
  have word : IsWord orWord := by decide
  have last : ∃ t, translate d s = tidy (disjunctionRule.apply (conjunctionRule.apply t)) :=
    ⟨_, rfl⟩
  obtain ⟨t, e⟩ := last
  have noAnd : ¬ BehindBlank andWord (translate d s) := by
    rw [e]
    intro stands
    obtain ⟨old, -⟩ := disjunctionRule_writesSign.exists_place (behindBlank_of_tidy stands)
    exact not_behindBlank_conjunction old
  refine ⟨?_, noAnd, fun stands => noAnd (behindBlank_of_iff stands), ?_⟩
  · rw [e, standsIn_iff word, wordRuns_tidy]
    exact not_mem_disjunction
  · rw [e]
    exact (neat_tidy _).tidy_eq

end

end Sentence

end Sentential

import Mathlib.Tactic.Lemma
import Sentential.Proofs.Sentence.Links

/-!
# What the rules find

Where a rule finds something, its words stand there with blanks between them and the stretches that
it keeps (`findNegation_inv`, `findExclusiveOr_inv`, `findConjunction_inv`, `findConditional_inv`).
Most stretches are words. Those of a conditional may be any text, and no blank has to stand before
its second word.
-/

namespace Sentential.Sentence

open Text

/-- Whether a text is a stretch of blanks. -/
def IsBlanks (b : Text) : Prop :=
  b ≠ [] ∧ ∀ c ∈ b, isBlank c = true

/-! ## Words -/

section
variable {s t r : Text}

/-- A text whose first character passes has some in front that pass. -/
lemma takeWhile_ne_nil {p : Char → Bool} (first : s.head?.any p = true) : s.takeWhile p ≠ [] := by
  cases s with
  | nil => cases first
  | cons c s =>
    have here : p c = true := first
    rw [List.takeWhile_cons_of_pos here]
    exact List.cons_ne_nil _ _

/-- What is behind blanks has some before it. -/
lemma behindBlanks?_inv (h : behindBlanks? s = some t) :
    ∃ b, s = b ++ t ∧ IsBlanks b := by
  refine ⟨s.takeWhile isBlank, ?_, takeWhile_ne_nil (head_of_behindBlanks? h),
    fun c mem => List.mem_takeWhile_imp mem⟩
  rw [behindBlanks?_eq_some h, List.takeWhile_append_dropWhile]

/-- A word that is taken stands in front, and no more word character follows it. -/
lemma word?_inv (h : word? s = some (r, t)) :
    s = r ++ t ∧ IsWord r ∧ t.head?.any isWordChar = false := by
  rw [word?] at h
  split at h
  · rename_i first
    obtain ⟨rfl, rfl⟩ := Prod.mk.inj (Option.some.inj h)
    exact ⟨List.takeWhile_append_dropWhile.symm,
      ⟨takeWhile_ne_nil first, fun c mem => List.mem_takeWhile_imp mem⟩, head?_any_dropWhile s⟩
  · cases h

end

/-! ## Negations and exclusive disjunctions -/

section
variable {before : Option Char} {s : Text} {found : Found}

/-- A negation is found as its words, blanks and a word. -/
lemma findNegation_inv (h : findNegation before s = some found) :
    boundary before s.head? = true ∧ ∃ b r v, s = negationWords ++ (b ++ r) ++ v ∧
      found = foundUpTo s v [r] ∧ IsBlanks b ∧ IsWord r ∧
      v.head?.any isWordChar = false := by
  rw [findNegation_eq] at h
  split at h
  · cases h
  · rename_i start
    obtain ⟨rest, front, h⟩ := Option.bind_eq_some_iff.1 h
    obtain ⟨rest', blanks, h⟩ := Option.bind_eq_some_iff.1 h
    obtain ⟨⟨r, v⟩, operand, all⟩ := Option.bind_eq_some_iff.1 h
    obtain ⟨b, rfl, isBlanks⟩ := behindBlanks?_inv blanks
    obtain ⟨rfl, word, stop⟩ := word?_inv operand
    refine ⟨by simpa using start, b, r, v, ?_, (Option.some.inj all).symm, isBlanks, word, stop⟩
    rw [behind?_eq_some.1 front, List.append_assoc, List.append_assoc]

/-- An exclusive disjunction is found as its word, blanks and a word, and all of these again. -/
lemma findExclusiveOr_inv (h : findExclusiveOr before s = some found) :
    boundary before s.head? = true ∧ ∃ b₁ l b₂ b₃ r v,
      s = orWord ++ (b₁ ++ (l ++ (b₂ ++ (orWord ++ (b₃ ++ r))))) ++ v ∧
      found = foundUpTo s v [l, r] ∧ IsBlanks b₁ ∧ IsBlanks b₂ ∧ IsBlanks b₃ ∧ IsWord l ∧ IsWord r ∧
      v.head?.any isWordChar = false := by
  rw [findExclusiveOr_eq] at h
  split at h
  · cases h
  · rename_i start
    obtain ⟨s₁, h₁, h⟩ := Option.bind_eq_some_iff.1 h
    obtain ⟨s₂, h₂, h⟩ := Option.bind_eq_some_iff.1 h
    obtain ⟨⟨l, s₃⟩, h₃, h⟩ := Option.bind_eq_some_iff.1 h
    obtain ⟨s₄, h₄, h⟩ := Option.bind_eq_some_iff.1 h
    obtain ⟨s₅, h₅, h⟩ := Option.bind_eq_some_iff.1 h
    obtain ⟨s₆, h₆, h⟩ := Option.bind_eq_some_iff.1 h
    obtain ⟨⟨r, v⟩, h₇, all⟩ := Option.bind_eq_some_iff.1 h
    obtain ⟨b₁, rfl, blanks₁⟩ := behindBlanks?_inv h₂
    obtain ⟨rfl, left, -⟩ := word?_inv h₃
    obtain ⟨b₂, rfl, blanks₂⟩ := behindBlanks?_inv h₄
    obtain rfl := behind?_eq_some.1 h₅
    obtain ⟨b₃, rfl, blanks₃⟩ := behindBlanks?_inv h₆
    obtain ⟨rfl, right, stop⟩ := word?_inv h₇
    refine ⟨by simpa using start, b₁, l, b₂, b₃, r, v, ?_, (Option.some.inj all).symm, blanks₁,
      blanks₂, blanks₃, left, right, stop⟩
    rw [behind?_eq_some.1 h₁]
    simp only [List.append_assoc]

/-- A conjunction is found as a blank and its word. -/
lemma findConjunction_inv (h : findConjunction before s = some found) :
    ∃ c v, s = [c, 'e'] ++ v ∧ found = ⟨1, []⟩ ∧ isBlank c = true ∧
      v.head?.any isWordChar = false := by
  unfold findConjunction at h
  split at h
  · rename_i c v
    split at h
    · rename_i stands
      obtain ⟨blank, stop⟩ := Bool.and_eq_true_iff.1 stands
      refine ⟨c, v, rfl, (Option.some.inj h).symm, blank, ?_⟩
      simpa [boundary, isWordChar_e] using stop
    · cases h
  · cases h

end

/-! ## Conditionals -/

section
variable {s t a y : Text}

/-- A conclusion stands behind its word and blanks. -/
lemma conclusion?_inv (h : conclusion? s = some y) :
    ∃ b b', s = b ++ (thenWord ++ (b' ++ y)) ∧ (∀ c ∈ b, isBlank c = true) ∧ IsBlanks b' := by
  rw [conclusion?] at h
  obtain ⟨rest, front, h⟩ := Option.bind_eq_some_iff.1 h
  obtain ⟨tail, blanks, h⟩ := Option.bind_eq_some_iff.1 h
  obtain ⟨b', rfl, isBlanks⟩ := behindBlanks?_inv blanks
  have e : s = s.takeWhile isBlank ++ (thenWord ++ (b' ++ tail)) := by
    rw [thenWord, ← behind?_eq_some.1 front, List.takeWhile_append_dropWhile]
  refine ⟨s.takeWhile isBlank, ?_⟩
  split at h
  · -- the conclusion is a blank then, the last one behind the word
    split at h
    · rename_i two
      obtain ⟨c, last, rfl⟩ := Option.map_eq_some_iff.1 h
      rw [List.append_nil] at two last e
      obtain ⟨b, rfl⟩ := List.getLast?_eq_some_iff.1 last
      refine ⟨b, e, fun d mem => List.mem_takeWhile_imp mem, ?_, fun d mem => ?_⟩
      · rintro rfl
        simp at two
      · exact isBlanks.2 d (List.mem_append_left _ mem)
    · cases h
  · obtain rfl := Option.some.inj h
    exact ⟨b', e, fun d mem => List.mem_takeWhile_imp mem, isBlanks⟩

/-- The word for the conclusion and blanks stand before the conclusion. -/
lemma conclusion?_behind {x conclusion : Text} (found : conclusion? s = some conclusion)
    (h : some (x, conclusion) = some (a, y)) :
    ∃ b b', x ++ s = a ++ (b ++ (thenWord ++ (b' ++ y))) ∧ (∀ c ∈ b, isBlank c = true) ∧
      IsBlanks b' := by
  obtain ⟨rfl, rfl⟩ := Prod.mk.inj (Option.some.inj h)
  obtain ⟨b, b', e, blanks⟩ := conclusion?_inv found
  exact ⟨b, b', by rw [e], blanks⟩

/-- A condition and its conclusion stand around the word for the conclusion. -/
lemma conditionFrom_inv {passed : Text} (h : conditionFrom passed s = some (a, y)) :
    ∃ b b', passed.reverse ++ s = a ++ (b ++ (thenWord ++ (b' ++ y))) ∧
      (∀ c ∈ b, isBlank c = true) ∧ IsBlanks b' := by
  induction s generalizing passed with
  | nil =>
    rw [conditionFrom] at h
    split at h
    · rename_i found
      exact conclusion?_behind found h
    · cases h
  | cons c s ih =>
    rw [conditionFrom] at h
    split at h
    · rename_i found
      exact conclusion?_behind found h
    · obtain ⟨b, b', e, rest⟩ := ih h
      refine ⟨b, b', ?_, rest⟩
      rwa [List.reverse_cons, List.append_assoc] at e

/-- A condition stands before a conclusion. -/
lemma condition?_inv (h : condition? s = some (a, y)) :
    ∃ b b', s = a ++ (b ++ (thenWord ++ (b' ++ y))) ∧ (∀ c ∈ b, isBlank c = true) ∧
      IsBlanks b' := by
  cases s with
  | nil => cases h
  | cons c s => exact conditionFrom_inv h

/-- A conditional is found as its two words with the two stretches, in all of the text that is
left. -/
lemma findConditional_inv {before : Option Char} {found : Found}
    (h : findConditional before s = some found) :
    boundary before s.head? = true ∧ ∃ b₁ a b b' y,
      s = ifWord ++ (b₁ ++ (a ++ (b ++ (thenWord ++ (b' ++ y))))) ∧ found = foundUpTo s [] [a, y] ∧
      IsBlanks b₁ ∧ (∀ c ∈ b, isBlank c = true) ∧ IsBlanks b' := by
  rw [findConditional_eq] at h
  split at h
  · cases h
  · rename_i start
    obtain ⟨rest, front, h⟩ := Option.bind_eq_some_iff.1 h
    obtain ⟨more, blanks, h⟩ := Option.bind_eq_some_iff.1 h
    obtain ⟨⟨a, y⟩, finds, all⟩ := Option.bind_eq_some_iff.1 h
    obtain ⟨b₁, rfl, ne, blank⟩ := behindBlanks?_inv blanks
    refine ⟨by simpa using start, ?_⟩
    rcases Option.or_eq_some_iff.1 finds with finds | ⟨-, finds⟩
    · obtain ⟨b, b', rfl, rest⟩ := condition?_inv finds
      exact ⟨b₁, a, b, b', y, behind?_eq_some.1 front, (Option.some.inj all).symm, ⟨ne, blank⟩,
        rest⟩
    · -- the last of the blanks belongs to the condition
      split at finds
      · rename_i two
        obtain ⟨b₁, d, rfl⟩ := b₁.eq_nil_or_concat'.resolve_left ne
        have cut : (b₁ ++ [d] ++ more).length - more.length - 1 = b₁.length := by
          simp only [List.length_append, List.length_singleton]
          omega
        rw [cut, List.append_assoc, List.drop_left] at finds
        obtain ⟨b, b', e, rest⟩ := condition?_inv finds
        refine ⟨b₁, a, b, b', y, ?_, (Option.some.inj all).symm, ⟨?_, fun c mem => ?_⟩, rest⟩
        · rw [behind?_eq_some.1 front, List.append_assoc, e]
        · rintro rfl
          simp at two
        · exact blank c (List.mem_append_left _ mem)
      · cases finds

end

/-! ## Whole words -/

/-- The rule for equivalences looks for their words. -/
lemma biconditionalRule_pattern :
    biconditionalRule.pattern = Pattern.whole (linkWord .iff) " ↔ ".toList :=
  Rule.pattern_eq_whole rfl

/-- The rule for disjunctions looks for their word. -/
lemma disjunctionRule_pattern : disjunctionRule.pattern = Pattern.whole orWord " ∨ ".toList :=
  Rule.pattern_eq_whole rfl

end Sentential.Sentence

import Mathlib.Tactic.Lemma
import Sentential.Proofs.Sentence.Found
import Sentential.Proofs.Text.Elements

/-!
# What the rules take

A rule takes words of its phrase and blanks, writes signs and spaces, and leaves all other elements
of a text in their order. Five of the six rules take nothing that a word reaches out of
(`Pattern.TakesWords`). The rule for conditionals looks for `então` at the end of a word too and
then leaves the word without it (`clipped_conditional`), once at most, as it takes the rest of the
text. So all rules together take whole words out of a text of which at most one word has lost this
ending (`edited_applyRules`).
-/

namespace Sentential.Sentence

open Text Pattern

/-! ## Elements of rules -/

/-- The words that the rules take. -/
def ruleWords : List Text :=
  ["não".toList, "é".toList, "verdade".toList, "que".toList, "se".toList, "e".toList,
    "somente".toList, "então".toList, "ou".toList]

/-- The elements that the rules write. -/
def ruleSigns : List Text :=
  " ¬↔()→⊕∧∨".toList.map ([·])

/-- Whether the rules take an element, which is one of their words or a blank. -/
def IsTaken (e : Text) : Prop :=
  e ∈ ruleWords ∨ ∃ c, e = [c] ∧ isBlank c = true

/-- Whether a rule turns a text into another one by what it takes and writes. -/
def Rewords (s t : Text) : Prop :=
  Edited IsTaken (· ∈ ruleSigns) (elements s) (elements t)

/-! ## Rules that take whole words -/

/-- A rule takes whole words if it finds a stretch that begins and ends with its words. -/
lemma Rule.takesWords {rule : Rule} {writes : Text → Text → Prop}
    (finds : ∀ before s found, rule.find before s = some found → boundary before s.head? = true ∧
      ∃ x v ys, s = x ++ v ∧ x ≠ [] ∧ found = foundUpTo s v ys ∧ Parted isWordChar x v ∧
        writes x (fill rule.template ys)) :
    rule.pattern.TakesWords writes := by
  intro before s hit taken
  obtain ⟨found, finding, rfl⟩ := Option.map_eq_some_iff.1 taken
  obtain ⟨start, x, v, ys, rfl, ne, rfl, stop, related⟩ := finds _ _ _ finding
  have pos := List.length_pos_of_ne_nil ne
  refine ⟨x, v, rfl, ?_, fun word => ?_, stop, related⟩
  · simp only [foundUpTo, List.length_append]
    omega
  · rw [List.head?_append_of_ne_nil x ne] at start
    simpa [boundary, word] using start

/-- Whether a piece of a template has signs and spaces between words. -/
def IsSigns (w : Text) : Prop :=
  Separates w ∧ ∀ e ∈ elements w, e ∈ ruleSigns

instance : DecidablePred IsSigns := fun w =>
  inferInstanceAs (Decidable (Separates w ∧ ∀ e ∈ elements w, e ∈ ruleSigns))

section
variable {b r s t x : Text}

/-- Blanks separate words. -/
lemma IsBlanks.separates (blanks : IsBlanks b) : Separates b := by
  obtain ⟨ne, blank⟩ := blanks
  refine ⟨ne, ?_, ?_⟩
  · rw [List.head?_eq_some_head ne]
    exact isWordChar_of_isBlank (blank _ (List.head_mem ne))
  · rw [List.getLast?_eq_some_getLast ne]
    exact isWordChar_of_isBlank (blank _ (List.getLast_mem ne))

/-- The elements of words and of the spaces between them are taken. -/
lemma isTaken_of_words (words : ∀ e ∈ elements x, e ∈ ruleWords ∨ e = [' ']) :
    ∀ e ∈ elements x, IsTaken e := by
  intro e mem
  rcases words e mem with word | rfl
  · exact .inl word
  · exact .inr ⟨' ', rfl, isBlank_space⟩

/-- The elements of blanks are taken. -/
lemma isTaken_blanks (blanks : IsBlanks b) : ∀ e ∈ elements b, IsTaken e :=
  fun e mem => .inr (elements_of_blank blanks.2 e mem)

/-- A sign is written for the words of a negation, and the word behind them stays. -/
lemma rewords_negation (blanks : IsBlanks b) (word : IsWord r) :
    Rewords (negationWords ++ (b ++ r)) (fill negationRule.template [r]) := by
  have words : ∀ e ∈ elements negationWords, e ∈ ruleWords ∨ e = [' '] := by decide
  have sign : IsSigns " ¬".toList := by decide
  have space : IsSigns " ".toList := by decide
  have out : elements (fill negationRule.template [r])
      = elements " ¬".toList ++ (r :: (elements " ".toList ++ [])) := by
    show elements (" ¬".toList ++ (r ++ (" ".toList ++ []))) = _
    rw [sign.1.elements_append, space.1.elements, word.elements, List.singleton_append,
      elements_nil]
  rw [Rewords, blanks.separates.elements, word.elements, out]
  refine .takes (isTaken_of_words words) (.takes (isTaken_blanks blanks) (.puts sign.2 ?_))
  exact .keep (.puts space.2 .nil)

/-- Signs are written for the words of an exclusive disjunction, and the words behind them stay. -/
lemma rewords_exclusiveOr {b₁ b₂ b₃ l : Text} (blanks₁ : IsBlanks b₁) (blanks₂ : IsBlanks b₂)
    (blanks₃ : IsBlanks b₃) (left : IsWord l) (right : IsWord r) :
    Rewords (orWord ++ (b₁ ++ (l ++ (b₂ ++ (orWord ++ (b₃ ++ r))))))
      (fill exclusiveOrRule.template [l, r]) := by
  have word : ∀ e ∈ elements orWord, IsTaken e := isTaken_of_words (by decide)
  have opening : IsSigns " (".toList := by decide
  have middle : IsSigns ") ⊕ (".toList := by decide +kernel
  have closing : IsSigns ") ".toList := by decide
  have out : elements (fill exclusiveOrRule.template [l, r])
      = elements " (".toList ++ (l :: (elements ") ⊕ (".toList ++ (r ::
        (elements ") ".toList ++ [])))) := by
    show elements (" (".toList ++ (l ++ (") ⊕ (".toList ++ (r ++ (") ".toList ++ []))))) = _
    rw [opening.1.elements_append, middle.1.elements, closing.1.elements, left.elements,
      right.elements]
    simp only [List.singleton_append, elements_nil]
  rw [Rewords, blanks₁.separates.elements, blanks₂.separates.elements, blanks₃.separates.elements,
    left.elements, right.elements, out, List.singleton_append]
  refine .takes word (.takes (isTaken_blanks blanks₁) (.puts opening.2 (.keep ?_)))
  refine .takes (isTaken_blanks blanks₂) (.takes word (.takes (isTaken_blanks blanks₃) ?_))
  exact .puts middle.2 (.keep (.puts closing.2 .nil))

/-- A phrase of words that the rules take is replaced by signs. -/
lemma rewords_words {q w : Text} (words : ∀ e ∈ elements q, e ∈ ruleWords ∨ e = [' '])
    (signs : IsSigns w) : Rewords q w :=
  .replaces (isTaken_of_words words) signs.2

end

/-- The rule for negations takes words and writes signs. -/
lemma negationRule_takesWords :
    negationRule.pattern.TakesWords fun x w => Separates w ∧ Rewords x w := by
  refine Rule.takesWords fun before s found h => ?_
  obtain ⟨start, b, r, v, rfl, rfl, blanks, word, stop⟩ := findNegation_inv h
  have around : Separates (" ¬".toList ++ (r ++ (" ".toList ++ []))) :=
    Separates.around (by decide) (by decide) r
  exact ⟨start, _, v, [r], rfl, by simp [negationWords_phrase.ne_nil], rfl, .inr stop, around,
    rewords_negation blanks word⟩

/-- The rule for equivalences takes their words and writes their sign. -/
lemma biconditionalRule_takesWords :
    biconditionalRule.pattern.TakesWords fun x w => x = linkWord .iff ∧ w = " ↔ ".toList := by
  rw [biconditionalRule_pattern]
  exact takesWords_whole (by decide)

/-- The rule for exclusive disjunctions takes words and writes signs. -/
lemma exclusiveOrRule_takesWords :
    exclusiveOrRule.pattern.TakesWords fun x w => Separates w ∧ Rewords x w := by
  refine Rule.takesWords fun before s found h => ?_
  obtain ⟨start, b₁, l, b₂, b₃, r, v, rfl, rfl, blanks₁, blanks₂, blanks₃, left, right, stop⟩ :=
    findExclusiveOr_inv h
  refine ⟨start, _, v, [l, r], rfl, by simp [orWord], rfl, .inr stop, ?_,
    rewords_exclusiveOr blanks₁ blanks₂ blanks₃ left right⟩
  have around : Separates (" (".toList ++ (l ++ (") ⊕ (".toList ++ r) ++ ") ".toList)) :=
    Separates.around (by decide) (by decide) _
  have e : fill exclusiveOrRule.template [l, r]
      = " (".toList ++ (l ++ (") ⊕ (".toList ++ r) ++ ") ".toList) := by
    show " (".toList ++ (l ++ (") ⊕ (".toList ++ (r ++ (") ".toList ++ [])))) = _
    simp only [List.append_assoc, List.append_nil]
  rw [e]
  exact around

/-- The word of a conjunction is taken with one blank. -/
lemma conjunctionRule_takesWords :
    conjunctionRule.pattern.TakesWords fun x w =>
      (∃ c, isBlank c = true ∧ x = [c, 'e']) ∧ w = " ∧ ".toList := by
  intro before s hit taken
  obtain ⟨place, finds, rfl⟩ := Option.map_eq_some_iff.1 taken
  replace finds : findConjunction before s = some place := finds
  obtain ⟨c, v, rfl, rfl, blank, stop⟩ := findConjunction_inv finds
  refine ⟨[c, 'e'], v, rfl, rfl, fun _ => ?_, .inr stop, ⟨c, blank, rfl⟩, rfl⟩
  exact isWordChar_of_isBlank blank

/-- The rule for disjunctions takes their word and writes their sign. -/
lemma disjunctionRule_takesWords :
    disjunctionRule.pattern.TakesWords fun x w => x = orWord ∧ w = " ∨ ".toList := by
  rw [disjunctionRule_pattern]
  exact takesWords_whole (by decide)

/-- The rule for equivalences rewords a text. -/
lemma rewords_biconditional (s : Text) : Rewords s (biconditionalRule.apply s) := by
  have signs : IsSigns " ↔ ".toList := by decide +kernel
  refine TakesWords.edited (biconditionalRule_takesWords.mono ?_) s
  rintro x w ⟨rfl, rfl⟩
  exact ⟨signs.1, rewords_words (by decide) signs⟩

/-- The rule for conjunctions rewords a text. -/
lemma rewords_conjunction (s : Text) : Rewords s (conjunctionRule.apply s) := by
  have signs : IsSigns " ∧ ".toList := by decide +kernel
  refine TakesWords.edited (conjunctionRule_takesWords.mono ?_) s
  rintro x w ⟨⟨c, blank, rfl⟩, rfl⟩
  refine ⟨signs.1, .replaces ?_ signs.2⟩
  have blanks : IsBlanks [c] := ⟨List.cons_ne_nil c [], by simpa using blank⟩
  have cut : elements [c, 'e'] = elements [c] ++ elements ['e'] :=
    blanks.separates.elements_append _
  rw [cut]
  intro e mem
  rcases List.mem_append.1 mem with mem | mem
  · exact isTaken_blanks blanks e mem
  · exact .inl ((by decide : ∀ e ∈ elements ['e'], e ∈ ruleWords) e mem)

/-- The rule for disjunctions rewords a text. -/
lemma rewords_disjunction (s : Text) : Rewords s (disjunctionRule.apply s) := by
  have signs : IsSigns " ∨ ".toList := by decide +kernel
  refine TakesWords.edited (disjunctionRule_takesWords.mono ?_) s
  rintro x w ⟨rfl, rfl⟩
  exact ⟨signs.1, rewords_words (by decide) signs⟩

/-! ## The rule for conditionals -/

/-- Whether a list is another one in which at most one word has lost an ending. -/
def Clipped (ending : Text) (es es' : List Text) : Prop :=
  es' = es ∨ ∃ us r vs, es = us ++ (r ++ ending) :: vs ∧ IsWord r ∧ es' = us ++ r :: vs

section
variable {q s t a b : Text} {es es' fs fs' us vs : List Text}

/-- A clipped list is clipped between others. -/
lemma Clipped.append (clipped : Clipped q es es') (us vs : List Text) :
    Clipped q (us ++ (es ++ vs)) (us ++ (es' ++ vs)) := by
  rcases clipped with rfl | ⟨us', r, vs', rfl, word, rfl⟩
  · exact .inl rfl
  · refine .inr ⟨us ++ us', r, vs' ++ vs, ?_, word, ?_⟩ <;> simp

/-- An ending is lost by the words of a list too. -/
lemma Clipped.filter {p : Text → Bool} (clipped : Clipped q es es')
    (keeps : ∀ r, IsWord r → p r = true ∧ p (r ++ q) = true) :
    Clipped q (es.filter p) (es'.filter p) := by
  rcases clipped with rfl | ⟨us, r, vs, rfl, word, rfl⟩
  · exact .inl rfl
  · refine .inr ⟨us.filter p, r, vs.filter p, ?_, word, ?_⟩
    · rw [List.filter_append, List.filter_cons_of_pos (keeps r word).2]
    · rw [List.filter_append, List.filter_cons_of_pos (keeps r word).1]

/-- An ending that is lost behind edits can be lost before them, if no such word is put in. -/
lemma Clipped.before_edits {gone new : Text → Prop} (clipped : Clipped q fs fs')
    (edited : Edited gone new es fs) (old : ∀ r, IsWord r → ¬ new (r ++ q)) :
    ∃ es', Clipped q es es' ∧ Edited gone new es' fs' := by
  rcases clipped with rfl | ⟨us, r, vs, rfl, word, rfl⟩
  · exact ⟨es, .inl rfl, edited⟩
  · obtain ⟨us', vs', rfl, front, back⟩ := edited.kept_inv (old r word)
    exact ⟨us' ++ r :: vs', .inr ⟨us', r, vs', rfl, word, rfl⟩, front.append (.keep back)⟩

/-- A condition loses the word behind it and the blanks before that, and a word that goes on into it
loses it as its ending. -/
lemma clipped_condition (a : Text) (blank : ∀ c ∈ b, isBlank c = true) :
    ∃ es, Clipped thenWord (elements (a ++ (b ++ thenWord))) es ∧
      Edited IsTaken (· ∈ ruleSigns) es (elements a) := by
  have word : IsWord thenWord := by decide
  have taken : ∀ e ∈ elements thenWord, IsTaken e := isTaken_of_words (by decide)
  by_cases ne : b = []
  · subst ne
    rw [List.nil_append]
    by_cases last : a.getLast?.any isWordChar = true
    · obtain ⟨a, r, rfl, word', stop⟩ := last_word last
      have long : IsWord (r ++ thenWord) := by
        refine ⟨by simp [word'.1], fun c mem => ?_⟩
        exact (List.mem_append.1 mem).elim (word'.2 c) (word.2 c)
      rw [List.append_assoc, elements_append (.inl stop), elements_append (.inl stop),
        long.elements, word'.elements]
      exact ⟨_, .inr ⟨elements a, r, [], rfl, word', rfl⟩, .refl _⟩
    · have parted : Parted isWordChar a thenWord := .inl (by simpa using last)
      rw [elements_append parted]
      exact ⟨_, .inl rfl, .takes_behind taken (.refl _)⟩
  · have blanks : IsBlanks b := ⟨ne, blank⟩
    rw [blanks.separates.elements]
    refine ⟨_, .inl rfl, .takes_behind (fun e mem => ?_) (.refl _)⟩
    exact (List.mem_append.1 mem).elim (isTaken_blanks blanks e) (taken e)

/-- The two words of a conditional and the blanks behind them are taken with such a condition. -/
lemma clipped_stretches {b₁ b' : Text} (a y : Text) (blanks₁ : IsBlanks b₁)
    (blank : ∀ c ∈ b, isBlank c = true) (blanks : IsBlanks b') :
    ∃ es, Clipped thenWord (elements (ifWord ++ (b₁ ++ (a ++ (b ++ (thenWord ++ (b' ++ y))))))) es ∧
      Edited IsTaken (· ∈ ruleSigns) es (elements (fill conditionalRule.template [a, y])) := by
  have word : ∀ e ∈ elements ifWord, IsTaken e := isTaken_of_words (by decide)
  have opening : IsSigns " ( ".toList := by decide
  have middle : IsSigns " ) → ( ".toList := by decide +kernel
  have closing : IsSigns " ) ".toList := by decide
  have regroup : a ++ (b ++ (thenWord ++ (b' ++ y))) = a ++ (b ++ thenWord) ++ (b' ++ y) := by
    simp only [List.append_assoc]
  have out : elements (fill conditionalRule.template [a, y])
      = elements " ( ".toList ++ (elements a ++ (elements " ) → ( ".toList ++ (elements y ++
        (elements " ) ".toList ++ [])))) := by
    show elements (" ( ".toList ++ (a ++ (" ) → ( ".toList ++ (y ++ (" ) ".toList ++ []))))) = _
    rw [opening.1.elements_append, middle.1.elements, closing.1.elements, elements_nil]
  obtain ⟨es, clipped, edited⟩ := clipped_condition a blank
  rw [regroup, blanks₁.separates.elements, blanks.separates.elements, out, ← List.append_assoc]
  refine ⟨_, clipped.append _ _, ?_⟩
  rw [List.append_assoc, List.append_nil]
  refine .takes word (.takes (isTaken_blanks blanks₁) (.puts opening.2 (edited.append ?_)))
  exact .takes (isTaken_blanks blanks) (.puts middle.2 (.puts_behind closing.2 (.refl _)))

end

/-- The rule for conditionals takes whole words when one word has lost an ending at most. -/
lemma clipped_conditional (s : Text) :
    ∃ es, Clipped thenWord (elements s) es ∧
      Edited IsTaken (· ∈ ruleSigns) es (elements (conditionalRule.apply s)) := by
  rw [Rule.apply, rewrite]
  rcases rewriteFrom_cases conditionalRule.pattern none s with same | ⟨u, t, hit, rfl, taken, out⟩
  · rw [same]
    exact ⟨_, .inl rfl, .refl _⟩
  · obtain ⟨found, finds, -⟩ := Option.map_eq_some_iff.1 taken
    obtain ⟨start, b₁, a, b, b', y, e, rfl, blanks₁, blank, blanks⟩ := findConditional_inv finds
    have phrase : IsPhrase ifWord := by decide
    have ne : t ≠ [] := by simp [e, phrase.ne_nil]
    have written : rewriteFrom conditionalRule.pattern 0 (behind none u) t
        = fill conditionalRule.template [a, y] := Rule.rewriteFrom_all ne finds
    have before : Parted isWordChar u t := by
      rw [e, List.head?_append_of_ne_nil _ phrase.ne_nil, boundary, phrase.1, behind,
        Option.or_none] at start
      exact .inl (by simpa using start)
    have before' : Parted isWordChar u (fill conditionalRule.template [a, y]) :=
      .inr (isWordChar_ends ' ' (by decide))
    obtain ⟨es, clipped, edited⟩ := clipped_stretches a y blanks₁ blank blanks
    have clipped' := clipped.append (elements u) []
    rw [List.append_nil, List.append_nil, ← e, ← elements_append before] at clipped'
    rw [out, written, elements_append before']
    exact ⟨_, clipped', (Edited.refl _).append edited⟩

/-! ## All rules -/

/-- The first two rules reword a text. -/
lemma rewords_negation_biconditional (s : Text) :
    Rewords s (biconditionalRule.apply (negationRule.apply s)) :=
  Edited.trans (negationRule_takesWords.edited s) (rewords_biconditional _)

/-- The last three rules reword a text. -/
lemma rewords_last_three (s : Text) :
    Rewords s (disjunctionRule.apply (conjunctionRule.apply (exclusiveOrRule.apply s))) :=
  Edited.trans (exclusiveOrRule_takesWords.edited s)
    (Edited.trans (rewords_conjunction _) (rewords_disjunction _))

/-- The rules write no words. -/
lemma not_word_of_mem_ruleSigns : ∀ e ∈ ruleSigns, e.head?.any isWordChar = false := by
  decide +kernel

/-- All rules together take whole words and blanks out of a text of which one word at most has lost
the ending `então`, they write signs and spaces, and every other element stays in its place. So they
take nothing from the words but some of their own. -/
theorem edited_applyRules (s : Text) :
    (∃ es, Clipped thenWord (elements s) es ∧
      Edited IsTaken (· ∈ ruleSigns) es (elements (applyRules s))) ∧
    ∃ ws, Clipped thenWord (wordRuns s) ws ∧
      Edited (· ∈ ruleWords) (fun _ => False) ws (wordRuns (applyRules s)) := by
  obtain ⟨fs, clipped, back⟩ :=
    clipped_conditional (biconditionalRule.apply (negationRule.apply s))
  have single : ∀ e ∈ ruleSigns, e.length = 1 := by decide
  have old : ∀ r, IsWord r → r ++ thenWord ∉ ruleSigns := by
    intro r word mem
    have long := single _ mem
    simp [thenWord] at long
  obtain ⟨es, clipped', front⟩ :=
    clipped.before_edits (rewords_negation_biconditional s) old
  have edited : Edited IsTaken (· ∈ ruleSigns) es (elements (applyRules s)) :=
    (front.trans back).trans (rewords_last_three _)
  refine ⟨⟨es, clipped', edited⟩, es.filter fun e => e.head?.any isWordChar, ?_, ?_⟩
  · rw [wordRuns_eq_filter]
    refine clipped'.filter fun r word => ⟨word.isPhrase.1, ?_⟩
    rw [List.head?_append_of_ne_nil r word.1]
    exact word.isPhrase.1
  · rw [wordRuns_eq_filter]
    refine (edited.filter not_word_of_mem_ruleSigns).mono ?_
    rintro e ⟨word | ⟨c, rfl, blank⟩, first⟩
    · exact word
    · have other : isWordChar c = true := first
      rw [isWordChar_of_isBlank blank] at other
      cases other

/-- A word that ends like the word of a conclusion is taken for it, and the right one stays. -/
example :
    let s := "se ele está contentão então canta".toList
    "contentão".toList ∈ wordRuns s ∧
      wordRuns (applyRules s)
        = ["ele".toList, "está".toList, "cont".toList, "então".toList, "canta".toList] := by
  decide +kernel

end Sentential.Sentence

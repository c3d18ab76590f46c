import Mathlib.Data.List.Induction
import Mathlib.Tactic.Lemma
import Sentential.Proofs.Sentence.Items
import Sentential.Proofs.Symbolic.Label
import Sentential.Proofs.Text.Parts
import Sentential.Sentence.Rule

/-!
# Rules on the items of a sentence

A rule acts at the word with which its phrase begins (`Rule.atWord`) and writes its template where
it finds something (`Rule.rewriteFrom_found`). The first two rules write signs for the words of
negations and equivalences (`tells_negation`, `tells_biconditional`); the order of the items stays.
-/

namespace Sentential.Sentence

open Text Pattern Symbolic

/-! ## Finding places -/

section
variable {q s t r : Text}

/-- Behind a text is what follows it. -/
lemma behind?_eq_some : behind? q s = some t ↔ s = q ++ t := by
  rw [behind?]
  split
  · rename_i front
    obtain ⟨rest, rfl⟩ := List.isPrefixOf_iff_prefix.1 front
    rw [List.drop_left, Option.some.injEq, List.append_cancel_left_eq]
  · rename_i other
    refine ⟨fun h => (Option.some_ne_none t h.symm).elim, ?_⟩
    rintro rfl
    exact absurd (List.isPrefixOf_iff_prefix.2 (List.prefix_append q t)) other

/-- Spaces are passed up to the first other character. -/
lemma dropWhile_spaces (k : Nat) (solid : t.head?.any isBlank = false) :
    (List.replicate k ' ' ++ t).dropWhile isBlank = t := by
  induction k with
  | zero => exact dropWhile_of_head? solid
  | succ k ih => exact ih

/-- Spaces alone are passed. -/
lemma dropWhile_replicate (k : Nat) : (List.replicate k ' ').dropWhile isBlank = [] := by
  rw [← List.append_nil (List.replicate k ' ')]
  exact dropWhile_spaces k rfl

/-- Behind spaces is what follows them. -/
lemma behindBlanks?_spaces (k : Nat) (solid : t.head?.any isBlank = false) :
    behindBlanks? (List.replicate (k + 1) ' ' ++ t) = some t := by
  rw [behindBlanks?, dropWhile_spaces (k + 1) solid]
  exact if_pos isBlank_space

/-- What has something behind blanks begins with one. -/
lemma head_of_behindBlanks? (h : behindBlanks? s = some t) : s.head?.any isBlank = true := by
  rw [behindBlanks?] at h
  split at h
  · assumption
  · cases h

/-- A word is taken up to the first other character. -/
lemma word?_append (word : IsWord r) (stop : t.head?.any isWordChar = false) :
    word? (r ++ t) = some (r, t) := by
  have first : (r ++ t).head?.any isWordChar = true := by
    rw [List.head?_append_of_ne_nil _ word.1]
    exact word.isPhrase.1
  rw [word?, if_pos first, List.takeWhile_append_of_pos word.2, List.dropWhile_append_of_pos word.2,
    takeWhile_of_head? stop, dropWhile_of_head? stop, List.append_nil]

/-- A text that goes on with a blank goes on with no word. -/
lemma not_isWordChar_of_head (h : s.head?.any isBlank = true) : s.head?.any isWordChar = false := by
  cases s with
  | nil => cases h
  | cons c s => exact isWordChar_of_isBlank h

end

/-! ## Where rules act -/

/-- A rule acts at the first word of a phrase if it looks for the phrase and blanks behind it. -/
lemma Rule.atWord {rule : Rule} {q r w : Text} {next : Text → Text → Text → Option Found}
    (cut : q = r ++ w) (word : IsWord r) (stop : w.head?.any isWordChar = false)
    (looks : ∀ before s, rule.find before s = if !boundary before s.head? then none else
      (behind? q s).bind fun rest => (behindBlanks? rest).bind (next s rest)) :
    AtWord rule.pattern r := by
  refine ⟨word, fun before s hit h => ?_⟩
  obtain ⟨found, h, -⟩ := Option.map_eq_some_iff.1 h
  rw [looks] at h
  split at h
  · cases h
  · rename_i start
    obtain ⟨rest, front, h⟩ := Option.bind_eq_some_iff.1 h
    obtain ⟨_, blanks, -⟩ := Option.bind_eq_some_iff.1 h
    have e := behind?_eq_some.1 front
    refine ⟨by simpa using start, w ++ rest, by rw [e, cut, List.append_assoc], ?_⟩
    -- what follows the first word is a part of the phrase, or the blanks behind it
    have stop' : (w ++ rest).head?.any isWordChar = false := by
      cases w with
      | nil => exact not_isWordChar_of_head (head_of_behindBlanks? blanks)
      | cons c w => exact stop
    rw [boundary, word.isPhrase.2, stop']
    rfl

/-- The rule for negations takes nothing but from its word on. -/
lemma negationRule_atWord : AtWord negationRule.pattern "não".toList :=
  Rule.atWord (q := "não é verdade que".toList) (w := " é verdade que".toList) (by decide)
    (by decide) (by decide) fun _ _ => rfl

/-- The rule for conditionals takes nothing but from its word on. -/
lemma conditionalRule_atWord : AtWord conditionalRule.pattern "se".toList :=
  Rule.atWord (List.append_nil _).symm (by decide) rfl fun _ _ => rfl

/-- The rule for exclusive disjunctions takes nothing but from its word on. -/
lemma exclusiveOrRule_atWord : AtWord exclusiveOrRule.pattern "ou".toList :=
  Rule.atWord (List.append_nil _).symm (by decide) rfl fun _ _ => rfl

/-- Where a rule finds something, it writes its template. -/
lemma Rule.rewriteFrom_found {rule : Rule} {before : Option Char} {s t : Text}
    {stretches : List Text} (ne : s ≠ [])
    (found : rule.find before (s ++ t) = some (foundUpTo (s ++ t) t stretches)) :
    rewriteFrom rule.pattern 0 before (s ++ t)
      = fill rule.template stretches ++ rewriteFrom rule.pattern 0 (behind before s) t := by
  have more : (s ++ t).length - t.length - 1 = s.length - 1 := by
    rw [List.length_append]
    omega
  apply rewriteFrom_hit ne
  rw [Rule.pattern, found, foundUpTo, more]
  rfl

/-- So it is where it takes all the text that is left. -/
lemma Rule.rewriteFrom_all {rule : Rule} {before : Option Char} {s : Text} {stretches : List Text}
    (ne : s ≠ []) (found : rule.find before s = some (foundUpTo s [] stretches)) :
    rewriteFrom rule.pattern 0 before s = fill rule.template stretches := by
  have out : rewriteFrom rule.pattern 0 before (s ++ []) = fill rule.template stretches ++ _ :=
    Rule.rewriteFrom_found ne (by rwa [List.append_nil])
  rwa [List.append_nil, rewriteFrom_nil, List.append_nil] at out

/-! ## Labels among items -/

/-- Whether an item is a label or one of some others. -/
def Known (fixed : List Item) (i : Item) : Prop :=
  (∃ l, i = .atom l ∧ IsLabel l) ∨ i ∈ fixed

/-- Whether the atoms among items are labels, and which items there are besides. -/
def Labelled (fixed is : List Item) : Prop :=
  ∀ i ∈ is, Known fixed i

/-- How items are worded whose atoms are labels, when negations have signs and some connectives have
them too. -/
def signed (ops : List Connective) : Wording where
  atom := id
  negation := ['¬']
  link op := if op ∈ ops then [op.glyph] else linkWord op
  condition := "se".toList
  conclusion := "então".toList
  contrast := "e".toList

section
variable {fixed is : List Item} {i : Item} {l : Text}

/-- A known item that is no atom is a fixed one. -/
lemma Known.mem (known : Known fixed i) (ne : ∀ l, i ≠ .atom l) : i ∈ fixed :=
  known.resolve_left fun ⟨l, e, _⟩ => ne l e

/-- The items behind the first are labels and fixed ones. -/
lemma Labelled.tail (labelled : Labelled fixed (i :: is)) : Labelled fixed is :=
  fun j mem => labelled j (List.mem_cons_of_mem i mem)

/-- The atoms among them are labels. -/
lemma Labelled.isLabel (labelled : Labelled fixed is) (other : ∀ l, .atom l ∉ fixed)
    (mem : .atom l ∈ is) : IsLabel l := by
  rcases labelled (.atom l) mem with ⟨l', e, label⟩ | mem
  · cases e
    exact label
  · exact absurd mem (other l)

/-- Labels are firm. -/
lemma firm_label (label : IsLabel l) : Firm l :=
  label.isWord.isPhrase.firm

/-- The words of labels are no words of the language. -/
lemma Labelled.absent {w : Wording} (atom : w.atom = id) (labelled : Labelled fixed is)
    (mem : i ∈ is) {r : Text} (other : ∃ c ∈ r, c ∉ labelChars)
    (absent : i ∈ fixed → r ∉ wordRuns (w.text i)) : r ∉ wordRuns (w.text i) := by
  rcases labelled i mem with ⟨l, rfl, label⟩ | mem
  · have e : w.text (.atom l) = l := congrFun atom l
    rw [e]
    exact label.not_mem_wordRuns other
  · exact absent mem

end

/-! ## Negations -/

/-- The words for a negation. -/
def negationWords : Text :=
  "não é verdade que".toList

/-- The words for a negation are a phrase. -/
lemma negationWords_phrase : IsPhrase negationWords := by decide

/-- A negation is found step by step: its words, blanks and its operand. -/
lemma findNegation_eq (before : Option Char) (s : Text) :
    findNegation before s = if !boundary before s.head? then none else
      (behind? negationWords s).bind fun rest => (behindBlanks? rest).bind fun rest =>
        (word? rest).bind fun found => some (foundUpTo s found.2 [found.1]) := by
  rfl

/-- A negation is found before a word. -/
lemma findNegation_word {before : Option Char} {w t : Text} (k : Nat)
    (start : before.any isWordChar = false) (word : IsWord w)
    (stop : t.head?.any isWordChar = false) :
    let s := negationWords ++ (List.replicate (k + 1) ' ' ++ w)
    findNegation before (s ++ t) = some (foundUpTo (s ++ t) t [w]) := by
  intro s
  have first : boundary before (s ++ t).head? = true := by
    rw [List.append_assoc, List.head?_append_of_ne_nil _ negationWords_phrase.ne_nil, boundary,
      start, negationWords_phrase.1]
    rfl
  -- the words, the spaces behind them and the next word are found one after the other
  have solid := (word.isPhrase.firm.append t).solid
  have front : behind? negationWords (s ++ t) = some (List.replicate (k + 1) ' ' ++ (w ++ t)) := by
    rw [behind?_eq_some, List.append_assoc, List.append_assoc]
  rw [findNegation_eq, first, front, Option.bind_some, behindBlanks?_spaces k solid,
    Option.bind_some, word?_append word stop]
  rfl

/-- A sign is written for the words, and the next word is taken along. -/
lemma rewriteFrom_negation_word {before : Option Char} {w t : Text} (k : Nat)
    (start : before.any isWordChar = false) (word : IsWord w)
    (stop : t.head?.any isWordChar = false) :
    rewriteFrom negationRule.pattern 0 before
        (negationWords ++ (List.replicate (k + 1) ' ' ++ (w ++ t)))
      = ' ' :: '¬' :: (w ++ ' ' :: rewriteFrom negationRule.pattern 0 (behind none w) t) := by
  have found := findNegation_word k start word stop
  have ne : negationWords ++ (List.replicate (k + 1) ' ' ++ w) ≠ [] := by
    simp [negationWords_phrase.ne_nil]
  rw [← List.append_assoc, ← List.append_assoc, List.append_assoc negationWords,
    Rule.rewriteFrom_found ne found, behind_append _ _ (by simp [word.1]),
    behind_append _ _ word.1]
  show (" ¬".toList ++ (w ++ (" ".toList ++ []))) ++ _ = _
  simp

/-- So it is with a label. -/
lemma rewriteFrom_negation {before : Option Char} {l t : Text} {cs : List Text} (label : IsLabel l)
    (opens : Opens before (negationWords ++ t)) (joint : Joint negationWords t)
    (tells : Tells (l :: cs) t) :
    ∃ u, Joint l u ∧ Tells cs u ∧
      rewriteFrom negationRule.pattern 0 before (negationWords ++ t)
        = ' ' :: '¬' :: (l ++ ' ' :: rewriteFrom negationRule.pattern 0 (behind none l) u) := by
  obtain ⟨k, u, rfl, joint', tells'⟩ :=
    tells.firm_inv (firm_label label) (joint.ends (by decide) (by decide))
  have stop := joint'.stop label.isWord.isPhrase.2
  exact ⟨u, joint', tells',
    rewriteFrom_negation_word k (opens.start negationWords_phrase) label.isWord stop⟩

/-- A part without the word at which a pattern acts is kept. -/
lemma turns_keep {p : Pattern} {r c : Text} {cs ds : List Text} (acts : AtWord p r)
    (absent : r ∉ wordRuns c) (turns : Turns p cs ds) : Turns p (c :: cs) (c :: ds) :=
  .keep (fun _ _ joint _ => acts.rewriteFrom_append joint.parted absent) turns

/-- No other item has the first word of a negation. -/
lemma no_negation_word : ∀ i ∈ fixedItems, i ≠ .negation → i ≠ .denial →
    "não".toList ∉ wordRuns ((spoken id).text i) := by
  decide

/-- The last words of an exclusive disjunction begin like a negation. -/
lemma negationRule_denial (before : Option Char) (t : Text) :
    negationRule.pattern before ("não ambos".toList ++ t) = none := by
  have other : behind? negationWords ("não ambos".toList ++ t) = none := rfl
  have miss : findNegation before ("não ambos".toList ++ t) = none := by
    rw [findNegation_eq, other, Option.bind_none, ite_self]
  exact congrArg (Option.map _) miss

/-- An item that is no negation is kept. -/
lemma rewriteFrom_negation_keep {i : Item} (ne : i ≠ .negation) (known : Known fixedItems i)
    {before : Option Char} {t : Text} (joint : Joint ((spoken id).text i) t) :
    rewriteFrom negationRule.pattern 0 before ((spoken id).text i ++ t) = (spoken id).text i
      ++ rewriteFrom negationRule.pattern 0 (behind before ((spoken id).text i)) t := by
  by_cases e : i = .denial
  · subst e
    exact negationRule_atWord.rewriteFrom_front (by decide) (by decide)
      (negationRule_denial before t)
  · apply negationRule_atWord.rewriteFrom_append joint.parted
    rcases known with ⟨l, rfl, label⟩ | fixed
    · exact label.not_mem_wordRuns ⟨'n', by decide⟩
    · exact no_negation_word i fixed ne e

/-- Other items are worded as before when negations get their sign. -/
lemma negation_text {i : Item} (ne : i ≠ .negation) (known : Known fixedItems i) :
    (spoken id).text i = (signed [.imp]).text i := by
  have table : ∀ i ∈ fixedItems, i ≠ .negation →
      (spoken id).text i = (signed [.imp]).text i := by
    decide
  rcases known with ⟨l, rfl, label⟩ | fixed
  · rfl
  · exact table i fixed ne

/-- The rule for negations leaves an item in front that is none. -/
lemma turns_negation_cons {i : Item} {cs ds : List Text} (ne : i ≠ .negation)
    (known : Known fixedItems i)
    (turns : Turns negationRule.pattern cs ds) :
    Turns negationRule.pattern ((spoken id).text i :: cs) ((signed [.imp]).text i :: ds) := by
  rw [← negation_text ne known]
  exact .keep (fun _ _ joint _ => rewriteFrom_negation_keep ne known joint) turns

section
variable {is : List Item} {s : Text}

/-- The rule for negations turns each negation of an atom into its sign. -/
lemma turns_negation (chain : is.IsChain Negates) (labelled : Labelled fixedItems is)
    (last : is.getLast?.any Item.finishes = true) :
    Turns negationRule.pattern (is.map (spoken id).text) (is.map (signed [.imp]).text) := by
  -- a negation takes the label behind it along, so two items can be dealt with at once
  induction is using List.twoStepInduction with
  | nil => exact .nil
  | singleton i =>
    refine turns_negation_cons ?_ (labelled i List.mem_cons_self) .nil
    rintro rfl
    cases last
  | cons_cons i j is ih ih' =>
    obtain ⟨negates, rest⟩ := List.isChain_cons_cons.1 chain
    rw [List.getLast?_cons_cons] at last
    by_cases e : i = .negation
    · obtain ⟨l, rfl⟩ := negates e
      subst e
      have label := labelled.isLabel atom_not_mem_fixedItems (l := l) (by simp)
      refine .carry (fun _ _ opens joint tells => rewriteFrom_negation label opens joint tells) ?_
      cases is with
      | nil => exact .nil
      | cons k is =>
        rw [List.getLast?_cons_cons] at last
        exact ih rest.tail labelled.tail.tail last
    · exact turns_negation_cons e (labelled i List.mem_cons_self) (ih' j rest labelled.tail last)

/-- The first rule gives signs to negations of atoms. -/
lemma tells_negation (chain : is.IsChain Negates) (labelled : Labelled fixedItems is)
    (last : is.getLast?.any Item.finishes = true) (tells : Tells (is.map (spoken id).text) s) :
    Tells (is.map (signed [.imp]).text) (negationRule.apply s) :=
  (turns_negation chain labelled last).rewriteFrom negationRule_atWord tells (.inl rfl)

end

/-! ## Equivalences -/

/-- A rule that finds whole words writes its template for them. -/
lemma Rule.pattern_eq_whole {rule : Rule} {q : Text} (find : rule.find = findWhole q) :
    rule.pattern = whole q (fill rule.template []) := by
  funext before s
  rw [Rule.pattern, find, findWhole, whole, wholeBy, whole, wholeBy]
  split <;> rfl

/-- A label is no word of an equivalence. -/
lemma no_label_in_iff :
    ¬ IsLabel (linkWord .iff) ∧ ∀ w ∈ wordRuns (linkWord .iff), ¬ IsLabel w := by
  decide

/-- The words of an equivalence are turned into its sign. -/
lemma iff_texts : ∀ i ∈ fixedItems,
    (if (signed [.imp]).text i = linkWord .iff then ['↔'] else (signed [.imp]).text i)
      = (signed [.iff, .imp]).text i := by
  decide

/-- But for conditions and equivalences, no item has the word that both begin with. -/
lemma iff_words : ∀ i ∈ fixedItems, i = .condition ∨ (signed [.imp]).text i = linkWord .iff ∨
    "se".toList ∉ wordRuns ((signed [.imp]).text i) := by
  decide

section
variable {is : List Item} {s : Text}

/-- The words of an equivalence do not begin with the word of a conditional, for what comes behind
it is no word of theirs. -/
lemma fenced_condition (chain : (.condition :: is).IsChain Adjoins)
    (labelled : Labelled fixedItems is) :
    Fenced (linkWord .iff) (is.map (signed [.imp]).text) := by
  cases is with
  | nil => exact trivial
  | cons i is =>
    have meets : i.begins = true := (List.isChain_cons_cons.1 chain).1
    cases i with
    | atom l =>
      have label := labelled.isLabel atom_not_mem_fixedItems List.mem_cons_self
      refine .inl ⟨l, ?_, fun mem => no_label_in_iff.2 l mem label⟩
      exact congrArg List.head? label.isWord.wordRuns
    | negation => exact .inr ⟨'¬', [], rfl, by decide⟩
    | leftParen => exact .inr ⟨'(', [], rfl, by decide⟩
    | _ => cases meets

/-- The words of an equivalence stand among items only as one of them. -/
lemma apart_iff {us : List Item} {i : Item} (chain : (us ++ i :: is).IsChain Adjoins)
    (labelled : Labelled fixedItems (us ++ i :: is)) :
    Apart (linkWord .iff) ((signed [.imp]).text i) (is.map (signed [.imp]).text) := by
  have first : (wordRuns (linkWord .iff)).head? = some "se".toList := by decide
  rcases labelled i (by simp) with ⟨l, rfl, label⟩ | fixed
  · exact .inr (.inl ⟨_, first, label.not_mem_wordRuns ⟨'s', by decide⟩⟩)
  · rcases iff_words i fixed with rfl | same | absent
    -- the word of a conditional is the first word of the phrase too
    · refine .inr (.inr ⟨by decide, fenced_condition (List.isChain_append.1 chain).2.1 ?_⟩)
      exact fun j mem => labelled j (by simp [mem])
    · exact .inl same
    · exact .inr (.inl ⟨_, first, absent⟩)

/-- The second rule gives signs to equivalences. -/
lemma tells_biconditional (chain : is.IsChain Adjoins) (labelled : Labelled fixedItems is)
    (tells : Tells (is.map (signed [.imp]).text) s) :
    Tells (is.map (signed [.iff, .imp]).text) (biconditionalRule.apply s) := by
  have phrase : IsPhrase (linkWord .iff) := by decide
  have pattern : biconditionalRule.pattern = whole (linkWord .iff) (' ' :: (['↔'] ++ [' '])) :=
    Rule.pattern_eq_whole rfl
  rw [Rule.apply, pattern]
  refine tells_rewrite_whole phrase ?_ (fun i mem => ?_) tells
  · rintro us i vs rfl
    exact apart_iff chain labelled
  · rcases labelled i mem with ⟨l, rfl, label⟩ | fixed
    · have other : l ≠ linkWord .iff := fun e => no_label_in_iff.1 (e ▸ label)
      exact if_neg other
    · exact iff_texts i fixed

end

end Sentential.Sentence

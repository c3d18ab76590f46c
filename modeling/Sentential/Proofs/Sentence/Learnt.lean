import Mathlib.Data.List.Basic
import Mathlib.Data.List.Infix
import Mathlib.Data.List.Nodup
import Mathlib.Tactic.Lemma
import Sentential.Proofs.Dictionary.Json
import Sentential.Proofs.Sentence.Learning
import Sentential.Proofs.Sentence.Regular
import Sentential.Proofs.Symbolic.Rendering

/-!
# The dictionary of a sentence

The words of a clause follow one another in the sentence (`words_infix_of_mem_clauses`), so a clause
is a regular sentence itself (`regular_of_mem_clauses`). No label is given to two clauses
(`labelAt_injective`), so none takes the place of another, and the entries of the dictionary that is
learnt from a sentence are its clauses in order, each under the label of its place
(`entries_learn`). A label reads as the atom that it names (`read_label`).
-/

namespace Sentential

open Text Symbolic

/-! ## Labels -/

namespace Text

/-- Numbers with the same digits are the same. -/
lemma ofNat_injective : Function.Injective ofNat := by
  intro m n e
  have same := congrArg (fun digits => Nat.ofDigitChars 10 digits 0) e
  simpa only [ofNat, Nat.ofDigitChars_toDigits (by decide : 1 < 10) (by decide : 10 ≤ 10)]
    using same

end Text

namespace Dictionary

/-- A place with a letter has this letter for its label. -/
lemma labelWith_letter {index : Nat} {letter : Char} (found : letters[index]? = some letter)
    (number : Nat) : labelWith index number = [letter] := by
  rw [labelWith, found]

/-- A place behind the letters has a label with a number. -/
lemma labelWith_number {index : Nat} (none : letters[index]? = none) (number : Nat) :
    labelWith index number = 'P' :: ofNat number := by
  rw [labelWith, none]

/-- A label tells the place or the number. -/
lemma labelWith_inj {i j m n : Nat} (e : labelWith i m = labelWith j n) : i = j ∨ m = n := by
  -- a label of one letter is never a letter with a number behind it
  have mixed : ∀ {i j m n letter}, letters[i]? = some letter → letters[j]? = none →
      labelWith i m ≠ labelWith j n := by
    intro i j m n letter found none e
    rw [labelWith_letter found, labelWith_number none] at e
    exact Nat.toDigits_ne_nil (List.cons.inj e).2.symm
  cases hi : letters[i]? with
  | some a =>
    cases hj : letters[j]? with
    | some b =>
      have same : a = b := by
        rw [labelWith_letter hi, labelWith_letter hj] at e
        exact (List.cons.inj e).1
      have distinct : letters.Nodup := by decide
      have inside : i < letters.length := (List.getElem?_eq_some_iff.1 hi).1
      exact .inl ((List.getElem?_inj inside distinct).1 (by rw [hi, hj, same]))
    | none => exact absurd e (mixed hi hj)
  | none =>
    cases hj : letters[j]? with
    | some b => exact absurd e.symm (mixed hj hi)
    | none =>
      rw [labelWith_number hi, labelWith_number hj] at e
      exact .inr (ofNat_injective (List.cons.inj e).2)

/-- Different places have different labels. -/
lemma labelAt_injective : Function.Injective labelAt := by
  intro i j e
  exact (labelWith_inj e).elim id Nat.succ.inj

/-- Different words have different labels, although the number of the last one is 0. -/
lemma wordLabel_injective : Function.Injective wordLabel := by
  intro i j e
  rcases labelWith_inj e with same | next
  · exact UInt64.toNat.inj same
  · exact (UInt64.add_left_inj 1).1 (UInt64.toNat.inj next)

/-- Words that are not the last one have the labels of their places. -/
lemma wordLabel_ofNat {place : Nat} (inside : place + 1 < UInt64.size) :
    wordLabel (.ofNat place) = labelAt place := by
  have word : (UInt64.ofNat place).toNat = place :=
    UInt64.toNat_ofNat_of_lt (Nat.lt_of_succ_lt inside)
  have next : (UInt64.ofNat place + 1).toNat = place + 1 := by
    rw [UInt64.toNat_add, word, UInt64.toNat_one, Nat.mod_eq_of_lt inside]
  rw [wordLabel, word, next, labelAt]

/-- The labels of places name atoms. -/
lemma isAtomName_labelAt (index : Nat) : IsAtomName (labelAt index) := by
  refine ⟨isLabel_labelAt index, ?_⟩
  rw [labelAt, labelWith]
  split
  · rename_i letter found
    have table : ∀ c ∈ letters, [c] ∉ aliasWords := by decide
    exact table letter (List.mem_of_getElem? found)
  · have table : ∀ word ∈ aliasWords, word.head? ≠ some 'P' := by decide
    exact fun mem => table _ mem rfl

end Dictionary

namespace Symbolic

/-- The name of an atom reads as the atom. -/
lemma read_label {name : Text} (isName : IsAtomName name) : read name = .ok (.atom name) := by
  have renders : Renders .equivalence 0 name (.atom name) :=
    (renders_label isName.1).loosen (Level.rank_pos _)
  have flat : 1 ≤ maxDepth := by decide
  refine renders.read_eq_ok (fun other mem => ?_) ⟨Nat.zero_le _, flat⟩
  rw [List.mem_singleton.1 mem]
  exact isName.2

end Symbolic

/-! ## Words in a row -/

namespace Text

/-- The words of a text are those of its stretches without blanks. -/
lemma wordRuns_unwords (ws : List Text) : wordRuns (unwords ws) = ws.flatMap wordRuns := by
  induction ws with
  | nil => rfl
  | cons w ws ih =>
    by_cases ne : ws = []
    · subst ne
      rw [unwords, List.intercalate_singleton, List.flatMap_singleton]
    · have space : isWordChar ' ' = false := isWordChar_of_isBlank isBlank_space
      rw [unwords_cons w ne, wordRuns, runs_append_cons w _ space, ← wordRuns, ← wordRuns, ih,
        List.flatMap_cons]

/-- The words of a text lie in its stretches without blanks. -/
lemma wordRuns_eq_flatMap (s : Text) : wordRuns s = (words s).flatMap wordRuns := by
  rw [← wordRuns_tidy, tidy, wordRuns_unwords]

end Text

namespace Sentence

section
variable {s f clause : Text} {fs ws : List Text}

/-- The words of a fragment follow one another in the text. -/
lemma Joined.words_within (h : Joined fs ws) (mem : f ∈ fs) : words f <:+: ws := by
  induction h with
  | last fragment =>
    rw [List.mem_singleton.1 mem]
  | @next connective fs ws fragment _ _ ih =>
    rcases List.mem_cons.1 mem with rfl | mem
    · rw [List.append_assoc]
      exact (List.prefix_append _ _).isInfix
    · exact (ih mem).trans (List.suffix_append _ ws).isInfix

/-- What is left of a text has its last words. -/
lemma Leaves.words_suffix (h : Leaves s clause) : words clause <:+ words s := by
  have behind : ∀ front : Text, front.getLast? = some ' ' →
      words clause <:+ words (front ++ clause) := by
    intro front space
    obtain ⟨front, rfl⟩ := List.getLast?_eq_some_iff.1 space
    rw [List.append_assoc, List.singleton_append, words_append_cons front clause isBlank_space]
    exact List.suffix_append _ _
  cases h with
  | denial => exact behind _ (by decide)
  | negation => exact behind _ (by decide)
  | plain => exact List.suffix_refl _

/-- The words of a clause follow one another in the sentence. -/
lemma words_infix_of_mem_clauses (mem : clause ∈ clauses s) :
    words clause <:+: words (normal s) := by
  obtain ⟨-, fragment, memF, rfl⟩ := exists_fragment_of_mem_clauses mem
  have last := (leaves_dropNegation (tidy fragment)).words_suffix
  rw [words_tidy, ← clauseOf_eq] at last
  exact last.isInfix.trans ((joined_fragments (normal s)).words_within memF)

/-- A clause is a regular sentence. -/
lemma regular_of_mem_clauses (mem : clause ∈ clauses s) : Regular clause where
  lowered := lower_eq_self (isLearnt_of_mem_clauses mem).steady
  unmarked := by
    intro c memC
    rcases mem_of_mem_clauses mem memC with inside | rfl
    · exact (regular_normal s).unmarked c inside
    · decide
  neat := (isLearnt_of_mem_clauses mem).neat
  formal := by
    intro r informal
    have word : IsWord r := informalTexts_word r informal
    have formal := (regular_normal s).formal r informal
    rw [standsIn_iff word, wordRuns_eq_flatMap] at formal ⊢
    obtain ⟨us, vs, e⟩ := words_infix_of_mem_clauses mem
    rw [← e, List.flatMap_append, List.flatMap_append] at formal
    exact fun inside => formal (List.mem_append_left _ (List.mem_append_right _ inside))

/-- No clause is blank. -/
lemma isBlankText_of_mem_clauses (mem : clause ∈ clauses s) : isBlankText clause = false := by
  obtain ⟨ne, neat, -⟩ := isLearnt_of_mem_clauses mem
  obtain ⟨c, rest, rfl⟩ := List.exists_cons_of_ne_nil ne
  have first : isBlank c = false := neat.first
  rw [isBlankText, List.all_cons, first, Bool.false_and]

/-! ## The entries of a learnt dictionary -/

/-- A phrase is labelled by its place. -/
lemma getElem?_labelled (index place : Nat) (phrases : List Text) :
    (labelled index phrases)[place]?
      = phrases[place]?.map fun phrase => (Dictionary.labelAt (index + place), phrase) := by
  induction phrases generalizing index place with
  | nil => rfl
  | cons phrase phrases ih =>
    cases place with
    | zero => rfl
    | succ place =>
      rw [labelled, List.getElem?_cons_succ, List.getElem?_cons_succ, ih, Nat.add_right_comm]
      rfl

/-- Phrases are labelled in their order. -/
lemma map_snd_labelled (index : Nat) (phrases : List Text) :
    (labelled index phrases).map Prod.snd = phrases := by
  induction phrases generalizing index with
  | nil => rfl
  | cons phrase phrases ih => rw [labelled, List.map_cons, ih]

/-- Labels from a place on are those of later places. -/
lemma exists_place_of_mem_labelled {label : Text} {index : Nat} {phrases : List Text}
    (mem : label ∈ Entries.keys (labelled index phrases)) :
    ∃ place, index ≤ place ∧ label = Dictionary.labelAt place := by
  induction phrases generalizing index with
  | nil => cases mem
  | cons phrase phrases ih =>
    rcases List.mem_cons.1 mem with rfl | mem
    · exact ⟨index, Nat.le_refl _, rfl⟩
    · obtain ⟨place, le, e⟩ := ih mem
      exact ⟨place, Nat.le_of_succ_le le, e⟩

/-- No two phrases have one label. -/
lemma nodup_labels_labelled (index : Nat) (phrases : List Text) :
    (Entries.keys (labelled index phrases)).Nodup := by
  induction phrases generalizing index with
  | nil => exact List.nodup_nil
  | cons phrase phrases ih =>
    refine List.nodup_cons.2 ⟨fun mem => ?_, ih (index + 1)⟩
    obtain ⟨place, le, e⟩ := exists_place_of_mem_labelled mem
    have same := Dictionary.labelAt_injective e
    omega

/-- The clauses of a sentence are learnt in order, and none takes the place of another. -/
lemma entries_learn (s : Text) : (learn s).entries = labelled 0 (clauses s) :=
  Dictionary.entries_ofList (nodup_labels_labelled 0 (clauses s))

/-- No two entries of the dictionary of a sentence have the same phrase. -/
lemma nodup_phrases_learn (s : Text) : ((learn s).entries.map Prod.snd).Nodup := by
  rw [entries_learn, map_snd_labelled]
  exact nodup_eraseDups _

/-- The dictionary of a sentence has one entry for each clause, in order, under the label of its
place. Its labels are different and so are its phrases, no phrase is blank, each is its own normal
form, and each label reads as the atom that it names. No two places have one label, also where
places are machine words, and the words up to the last one have the labels of their places. -/
theorem learn_clauses (s : Text) :
    (learn s).size = (clauses s).length ∧
    (∀ place, (learn s).entries[place]?
      = (clauses s)[place]?.map fun clause => (Dictionary.labelAt place, clause)) ∧
    (learn s).labels.Nodup ∧ ((learn s).entries.map Prod.snd).Nodup ∧
    (∀ entry ∈ (learn s).entries, isBlankText entry.2 = false ∧ normal entry.2 = entry.2 ∧
      read entry.1 = .ok (.atom entry.1)) ∧
    Function.Injective Dictionary.labelAt ∧ Function.Injective Dictionary.wordLabel ∧
    ∀ place, place + 1 < UInt64.size →
      Dictionary.wordLabel (.ofNat place) = Dictionary.labelAt place := by
  have phrases : (learn s).entries.map Prod.snd = clauses s := by
    rw [entries_learn, map_snd_labelled]
  refine ⟨?_, fun place => ?_, (learn s).distinct, nodup_phrases_learn s, fun entry mem => ?_,
    Dictionary.labelAt_injective, Dictionary.wordLabel_injective,
    fun place => Dictionary.wordLabel_ofNat⟩
  · rw [Dictionary.size, ← phrases, List.length_map]
  · rw [entries_learn, getElem?_labelled, Nat.zero_add]
  · rw [entries_learn] at mem
    obtain ⟨⟨place, label⟩, clause⟩ := mem_labelled mem
    refine ⟨isBlankText_of_mem_clauses clause, (regular_of_mem_clauses clause).normal_eq, ?_⟩
    rw [label]
    exact read_label (Dictionary.isAtomName_labelAt place)

end

end Sentence

end Sentential

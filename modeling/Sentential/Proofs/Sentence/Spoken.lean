import Mathlib.Tactic.Lemma
import Mathlib.Tactic.MkIffOfInductiveProp
import Sentential.Proofs.Sentence.Items
import Sentential.Proofs.Sentence.Normal
import Sentential.Proofs.Sentence.Reading
import Sentential.Proofs.Text.Parts

/-!
# The items of a reading

A phrase is spoken (`IsSpoken`) if it is its own normal form and has none of the words that stand
for items. With such phrases the normal form of a reading tells the items of the formula in the
words of the language (`tells_normal_reading`).
-/

namespace Sentential.Sentence

open Text
open Formula (operandText isLiteral)

/-- The words of a normal form that stand for items. -/
def fixedWords : List Text :=
  ["e".toList, "ou".toList, "se".toList, "então".toList, "somente".toList, "ambos".toList,
    "não".toList, "é".toList, "verdade".toList, "que".toList]

/-- A phrase that every stage of a translation can tell from what stands around it. -/
@[mk_iff]
structure IsSpoken (p : Text) : Prop where
  normal : IsNormal p
  phrase : IsPhrase p
  parens : '(' ∉ p ∧ ')' ∉ p
  words : ∀ w ∈ wordRuns p, w ∉ fixedWords

instance : DecidablePred IsSpoken := fun p =>
  decidable_of_iff' _ (isSpoken_iff p)

/-- Between operands stand the words of the connective and spaces around them. -/
lemma link_eq (op : Connective) : Formula.link op = ' ' :: (linkWord op ++ [' ']) := by
  cases op <;> rfl

/-- A spoken phrase is in lower case. -/
lemma IsSpoken.lower_eq {p : Text} (h : IsSpoken p) : lower p = p :=
  lower_eq_self fun _ mem => (h.normal.steady mem).1

/-- A spoken phrase is clear. -/
lemma IsSpoken.isClear {p : Text} (h : IsSpoken p) : Formula.IsClear p := by
  obtain ⟨c, s, rfl⟩ := List.exists_cons_of_ne_nil h.phrase.ne_nil
  refine ⟨?_, fun d mem => ⟨?_, ?_, ?_⟩, fun w mem key => ?_⟩
  · have solid : isBlank c = false := by
      rw [Bool.eq_false_iff]
      intro blank
      have head : isWordChar c = true := h.phrase.1
      rw [isWordChar_of_isBlank blank] at head
      cases head
    rw [isBlankText, List.all_cons, solid, Bool.false_and]
  · rintro rfl
    exact h.parens.1 mem
  · rintro rfl
    exact h.parens.2 mem
  · rintro rfl
    exact (h.normal.steady mem).2 (by decide)
  · rw [h.lower_eq] at mem
    have fixed : ∀ w ∈ Formula.keyWords, w ∈ fixedWords := by decide
    exact h.words w mem (fixed w key)

/-- Parentheses are no marks to be removed. -/
lemma plain_wrap (s : Text) : plain (Text.wrap s) = '(' :: plain s ++ [')'] := by
  rw [plain, Text.wrap, List.cons_append, lower_cons (by decide), lower_append_cons (by decide),
    plain, dropPunctuation, dropPunctuation, List.map_cons, List.map_append]
  rfl

section
variable {phrase? : Text → Option Text} {f : Formula}

/-- What an operand is read as tells its items if its own reading does. -/
lemma tells_operandText (w : Wording)
    (clear : ∀ l ∈ f.leaves, IsSpoken ((phrase? l).getD l))
    (tells : Tells ((items f).map w.text) (plain (f.reading phrase?))) :
    Tells ((operandItems f).map w.text) (plain (operandText (f.reading phrase?))) := by
  rw [operandText, Formula.connects_reading fun l mem => (clear l mem).isClear, operandItems,
    wrapItems, Text.wrapIf]
  cases f.isLiteral with
  | true => exact tells
  | false =>
    have e : (Item.leftParen :: items f ++ [Item.rightParen]).map w.text
        = ['('] :: (items f).map w.text ++ [[')']] := by
      rw [List.cons_append, List.map_cons, List.map_append]
      rfl
    simp only [Bool.not_false, if_true]
    rw [plain_wrap, e]
    exact tells.wrap

/-- The wording of a normal form with the phrases of the atoms. -/
def phrased (phrase? : Text → Option Text) : Wording :=
  spoken fun label => (phrase? label).getD label

/-- The reading of an atom tells its phrase. -/
lemma tells_phrase (label : Text) (clear : IsSpoken ((phrase? label).getD label)) :
    Tells [(phrase? label).getD label] (plain (Formula.reading phrase? (.atom label))) := by
  rw [Formula.reading_atom, clear.normal.plain_eq]
  have tells : Tells [(phrase? label).getD label] ((phrase? label).getD label ++ []) :=
    .part (.inr (.inr ends_nil)) .nil
  rwa [List.append_nil] at tells

/-- The words of connectives are in lower case and without marks. -/
lemma plain_linkWord (op : Connective) : plain (linkWord op) = linkWord op := by
  cases op <;> decide

/-- How the sentence itself words them: it does not yet have the formal word for the contrast. -/
def told (phrase? : Text → Option Text) : Wording :=
  { phrased phrase? with contrast := "mas".toList }

/-- A comma becomes a space. -/
lemma plain_append_comma (s t : Text) : plain (s ++ ',' :: t) = plain s ++ ' ' :: plain t := by
  rw [plain, lower_append_cons (by decide), dropPunctuation, List.map_append]
  rfl

/-- The last words of an exclusive disjunction tell their items. -/
lemma tells_aside (phrase? : Text → Option Text) :
    Tells (asideItems.map (told phrase?).text) "(mas não ambos)".toList := by
  have texts : asideItems.map (told phrase?).text
      = [['('], "mas".toList, "não ambos".toList, [')']] := rfl
  have cut : "(mas não ambos)".toList
      = ['('] ++ ("mas".toList ++ ' ' :: ("não ambos".toList ++ [')'])) := by
    decide
  have close : Tells [[')']] [')'] := .part (.inr (.inr ends_nil)) .nil
  have denial : Tells ["não ambos".toList, [')']] ("não ambos".toList ++ [')']) :=
    .part (.inr (.inr (ends_close []))) close
  rw [texts, cut]
  exact .part (.inl rfl) (denial.word "mas".toList)

/-- The reading of a formula, in lower case and without marks, tells its items. -/
lemma tells_reading (clear : ∀ l ∈ f.leaves, IsSpoken ((phrase? l).getD l)) :
    Tells ((items f).map (told phrase?).text) (plain (f.reading phrase?)) := by
  induction f with
  | atom label => exact tells_phrase label (clear label List.mem_cons_self)
  | not operand ih =>
    have opening : plain "Não é verdade que".toList = "não é verdade que".toList := by decide
    rw [Formula.reading_not_space, plain_append_space, opening]
    have tells : Tells ((operandItems operand).map (told phrase?).text)
        (plain (operandText (operand.reading phrase?))) := tells_operandText _ clear (ih clear)
    exact tells.word "não é verdade que".toList
  | binary op left right ihl ihr =>
    have clearL : ∀ l ∈ left.leaves, IsSpoken ((phrase? l).getD l) :=
      fun l mem => clear l (List.mem_append_left _ mem)
    have clearR : ∀ l ∈ right.leaves, IsSpoken ((phrase? l).getD l) :=
      fun l mem => clear l (List.mem_append_right _ mem)
    have tellsL := tells_operandText _ clearL (ihl clearL)
    have tellsR := tells_operandText _ clearR (ihr clearR)
    by_cases imp : op = .imp
    · subst imp
      have opening : plain Formula.ifWord = "se".toList := by decide
      have middle : plain " então".toList = ' ' :: "então".toList := by decide
      have mark : Formula.thenText = ',' :: (" então".toList ++ [' ']) := by decide
      have cut : (items (.binary .imp left right)).map (told phrase?).text
          = "se".toList :: ((operandItems left).map (told phrase?).text
              ++ "então".toList :: (operandItems right).map (told phrase?).text) := by
        rw [items_imp, List.cons_append, List.map_cons, List.map_append, List.map_cons]
        rfl
      have conclusion := tellsL.append (.space (.space (tellsR.word "então".toList))) (ends_space _)
      rw [Formula.reading_imp, plain_append_space, opening, mark, List.cons_append,
        List.append_assoc, List.singleton_append, plain_append_comma, plain_append_space, middle,
        cut, List.cons_append]
      exact conclusion.word "se".toList
    · rw [Formula.reading_binary imp, link_eq, List.cons_append, List.append_assoc,
        List.singleton_append, plain_append_space, plain_append_space, plain_linkWord]
      by_cases xor : op = .xor
      · subst xor
        have aside : plain "(mas não ambos)".toList = "(mas não ambos)".toList := by decide
        have e : Formula.tail .xor = ' ' :: "(mas não ambos)".toList := rfl
        have tellsA := tellsR.append (.space (tells_aside phrase?)) (ends_space _)
        rw [e, plain_append_space, aside, items_xor, List.map_append, List.map_cons,
          List.map_append]
        exact Tells.between (linkWord .xor) tellsL tellsA
      · have kind : [Connective.and, .or, .iff].contains op = true := by
          cases op <;> first | rfl | exact absurd rfl imp | exact absurd rfl xor
        have tail : Formula.tail op = [] := by
          cases op <;> first | rfl | exact absurd rfl xor
        rw [tail, List.append_nil, items_binary kind, List.map_append, List.map_cons]
        exact Tells.between (linkWord op) tellsL tellsR

/-! ## The normal form -/

/-- What is tidied already has no blanks at its ends and single spaces between its words. -/
lemma neat_of_tidy_eq {s : Text} (h : tidy s = s) : Neat s :=
  h ▸ neat_tidy s

/-- The items besides atoms have the same texts whatever the atoms are. -/
lemma spoken_text {atom : Text → Text} {i : Item} (ne : ∀ label, i ≠ .atom label) :
    (spoken atom).text i = (spoken id).text i := by
  cases i with
  | atom label => exact absurd rfl (ne label)
  | _ => rfl

/-- Items that are no atoms are worded the same whatever the phrases are. -/
lemma told_text {i : Item} (ne : ∀ label, i ≠ .atom label) :
    (told phrase?).text i = (told fun _ => none).text i := by
  cases i with
  | atom label => exact absurd rfl (ne label)
  | _ => rfl

/-- Fixed items are worded formally once the word for the contrast is. -/
lemma fixed_text_told : ∀ i ∈ fixedItems, ((told fun _ => none).text i = "mas".toList ∨
    "mas".toList ∉ wordRuns ((told fun _ => none).text i)) ∧
      (if (told fun _ => none).text i = "mas".toList then "e".toList
        else (told fun _ => none).text i) = (spoken id).text i := by
  decide

/-- The words of a fixed item are tidy. -/
lemma fixed_text_neat : ∀ i ∈ fixedItems, (spoken id).text i ≠ [] ∧
    tidy ((spoken id).text i) = (spoken id).text i := by
  decide

/-- The words of a fixed item are formal. -/
lemma fixed_text_formal :
    ∀ i ∈ fixedItems, ∀ r ∈ wordRuns ((spoken id).text i), formal r = [r] := by
  decide

/-- A phrase without fixed words has no informal words either, for they would not be normal. -/
lemma IsSpoken.formal_eq {p r : Text} (h : IsSpoken p) (mem : r ∈ wordRuns p) : formal r = [r] := by
  have absent : ∀ w ∈ formal r, w ∉ fixedWords :=
    fun w memW => h.words w (h.normal.formal_subset mem memW)
  -- a word that is not formal makes a fixed word of the phrase, for the phrase is normal
  by_contra informal
  have known : r ∈ ["mas".toList, "ssi".toList, "nao".toList] := by
    by_contra other
    simp only [List.mem_cons, List.not_mem_nil, or_false, not_or] at other
    rw [formal, if_neg other.1, if_neg other.2.1, if_neg other.2.2] at informal
    exact informal rfl
  have fixed : ∀ r ∈ ["mas".toList, "ssi".toList, "nao".toList],
      ∃ w ∈ formal r, w ∈ fixedWords := by
    decide
  obtain ⟨w, memW, key⟩ := fixed r known
  exact absent w memW key

/-- The formal word is written for the contrast. -/
lemma tells_contrasted (clear : ∀ l ∈ f.leaves, IsSpoken ((phrase? l).getD l)) :
    Tells ((items f).map (phrased phrase?).text) (contrasted (f.reading phrase?)) := by
  have phrase : IsPhrase "mas".toList := by decide
  have first : (wordRuns "mas".toList).head? = some "mas".toList := by decide
  have other : ∀ l ∈ f.leaves, "mas".toList ∉ wordRuns ((phrase? l).getD l) := by
    intro l leaf mem
    exact absurd ((clear l leaf).formal_eq mem) (by decide)
  have fixed : ∀ i ∈ fixedItems, ((told phrase?).text i = "mas".toList ∨
      "mas".toList ∉ wordRuns ((told phrase?).text i)) ∧
        (if (told phrase?).text i = "mas".toList then "e".toList else (told phrase?).text i)
          = (phrased phrase?).text i := by
    intro i mem
    have ne := ne_atom_of_mem_fixedItems mem
    rw [told_text ne, phrased, spoken_text ne]
    exact fixed_text_told i mem
  have spaced : " e ".toList = ' ' :: ("e".toList ++ [' ']) := rfl
  rw [contrasted, spaced]
  refine tells_rewrite_whole (w := told phrase?) phrase ?_ (fun i mem => ?_) (tells_reading clear)
  · intro us i vs e
    have mem : i ∈ items f := by
      rw [e]
      simp
    rcases mem_items mem with ⟨l, leaf, rfl⟩ | mem
    · exact .inr (.inl ⟨_, first, other l leaf⟩)
    · exact (fixed i mem).1.imp id fun absent => .inl ⟨_, first, absent⟩
  · rcases mem_items mem with ⟨l, leaf, rfl⟩ | mem
    · refine if_neg fun e => other l leaf ?_
      have same : (phrase? l).getD l = "mas".toList := e
      rw [same]
      decide
    · exact (fixed i mem).2

/-- The normal form of a reading tells the items of the formula. -/
lemma tells_normal_reading (clear : ∀ l ∈ f.leaves, IsSpoken ((phrase? l).getD l)) :
    Tells ((items f).map (phrased phrase?).text) (normal (f.reading phrase?)) := by
  have tells := tells_contrasted clear
  rw [normal_eq_tidy]
  · apply tells.tidy
    intro c memC
    obtain ⟨i, mem, rfl⟩ := List.mem_map.1 memC
    rcases mem_items mem with ⟨l, leaf, rfl⟩ | fixed
    · exact ⟨(clear l leaf).phrase.ne_nil, (clear l leaf).normal.neat⟩
    · rw [phrased, spoken_text (ne_atom_of_mem_fixedItems fixed)]
      exact (fixed_text_neat i fixed).imp_right neat_of_tidy_eq
  · intro r mem
    rw [tells.wordRuns, List.mem_flatMap] at mem
    obtain ⟨c, memC, mem⟩ := mem
    obtain ⟨i, memI, rfl⟩ := List.mem_map.1 memC
    rcases mem_items memI with ⟨l, leaf, rfl⟩ | fixed
    · exact (clear l leaf).formal_eq mem
    · rw [phrased, spoken_text (ne_atom_of_mem_fixedItems fixed)] at mem
      exact fixed_text_formal i fixed r mem

end

end Sentential.Sentence

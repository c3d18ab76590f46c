import Mathlib.Data.List.Basic
import Mathlib.Tactic.Lemma
import Sentential.Dictionary.Basic
import Sentential.Proofs.Text.Lower
import Sentential.Proofs.Text.Rewrite
import Sentential.Sentence.Reading

/-!
# A reading tells its formula

Two formulas with the same reading are the same, if the phrases of their labels can be told from the
words with which a reading is built (`reading_injective`). Parentheses are set by looking at a text,
and they stand just around the operands that hold a connective between two formulas
(`connects_reading`); a negated atom stays bare. The proof compares two readings from the left, each
with more text behind it: an operand is followed by a word or mark that cannot be part of a phrase
(`Follows`), a whole reading by the end of the text or of a group (`Closes`).
-/

namespace Sentential.Formula

open Text

/-- The words that a reading is built with. -/
def keyWords : List Text :=
  ["e".toList, "ou".toList, "então".toList, "somente".toList, "ambos".toList, "não".toList,
    "se".toList]

/-- A phrase that can be told from what a reading is built with. -/
structure IsClear (phrase : Text) : Prop where
  solid : isBlankText phrase = false
  marks : ∀ c ∈ phrase, c ≠ '(' ∧ c ≠ ')' ∧ c ≠ ','
  words : ∀ w ∈ wordRuns (lower phrase), w ∉ keyWords

/-! ## Words in phrases -/

/-- Whether a text begins with a space, if it is not empty. -/
def Spaced (s : Text) : Prop :=
  s = [] ∨ ∃ t, s = ' ' :: t

/-- The words around a space are those on either side of it. -/
lemma wordRuns_lower_append_space (s t : Text) :
    wordRuns (lower (s ++ ' ' :: t)) = wordRuns (lower s) ++ wordRuns (lower t) := by
  rw [lower_append_cons breaks_space, wordRuns, runs_append_cons _ _ (by decide)]
  rfl

/-- A word in front of a space, or of nothing, is among the words. -/
lemma mem_wordRuns_lower {w v : Text} (word : wordRuns (lower w) = [lower w]) (spaced : Spaced v) :
    lower w ∈ wordRuns (lower (w ++ v)) := by
  rcases spaced with rfl | ⟨v, rfl⟩
  · rw [List.append_nil, word]
    exact List.mem_singleton_self _
  · rw [wordRuns_lower_append_space, word]
    exact List.mem_append_left _ (List.mem_singleton_self _)

/-- A clear phrase has no key word behind a space. -/
lemma IsClear.no_word_behind {p w v : Text} (clear : IsClear (p ++ ' ' :: (w ++ v)))
    (word : wordRuns (lower w) = [lower w]) (key : lower w ∈ keyWords) (spaced : Spaced v) :
    False := by
  refine clear.words (lower w) ?_ key
  rw [wordRuns_lower_append_space]
  exact List.mem_append_right _ (mem_wordRuns_lower word spaced)

/-- A clear phrase has no key word at its front. -/
lemma IsClear.no_word_front {w v : Text} (clear : IsClear (w ++ v))
    (word : wordRuns (lower w) = [lower w]) (key : lower w ∈ keyWords) (spaced : Spaced v) :
    False :=
  clear.words (lower w) (mem_wordRuns_lower word spaced) key

/-! ## What stands behind an operand -/

/-- The words that can begin what stands behind an operand. -/
def linkWords : List Text :=
  ["e".toList, "ou".toList, "se".toList]

/-- What can stand behind an operand. -/
inductive Follows : Text → Prop where
  | nil : Follows []
  | close (t : Text) : Follows (')' :: t)
  | comma (t : Text) : Follows (',' :: t)
  | aside (t : Text) : Follows (' ' :: '(' :: t)
  | link {w : Text} (mem : w ∈ linkWords) (t : Text) : Follows (' ' :: (w ++ ' ' :: t))

/-- What can stand behind a reading. -/
def Closes (s : Text) : Prop :=
  s = [] ∨ ∃ t, s = ')' :: t

/-- What can stand behind a reading can stand behind an operand. -/
lemma Closes.follows {s : Text} (closes : Closes s) : Follows s := by
  rcases closes with rfl | ⟨t, rfl⟩
  · exact .nil
  · exact .close t

/-- What stands behind a reading does not begin with a space. -/
lemma Closes.ne_space {s t : Text} (closes : Closes s) : s ≠ ' ' :: t := by
  rcases closes with rfl | ⟨u, rfl⟩
  · exact fun e => by cases e
  · exact fun e => absurd (List.cons.inj e).1 (by decide)

/-- What stands behind an operand begins with a parenthesis, a comma or a space. -/
lemma Follows.head {c : Char} {t : Text} (follows : Follows (c :: t)) :
    c = ')' ∨ c = ',' ∨ c = ' ' := by
  cases follows with
  | close => exact .inl rfl
  | comma => exact .inr (.inl rfl)
  | aside => exact .inr (.inr rfl)
  | link => exact .inr (.inr rfl)

/-- The words behind operands have no parentheses, commas or spaces. -/
lemma linkWords_letters : ∀ w ∈ linkWords, ∀ c ∈ w, ¬ (c = ')' ∨ c = ',' ∨ c = ' ') := by
  decide

set_option maxRecDepth 2000 in
/-- The words behind operands are words of readings in lower case. -/
lemma linkWords_words : ∀ w ∈ linkWords, lower w = w ∧ wordRuns w = [w] ∧ w ∈ keyWords := by
  decide

/-- The text behind a phrase does not begin with a part of a longer one. -/
lemma IsClear.not_follows {p u t : Text} (clear : IsClear (p ++ u)) (longer : Follows (u ++ t))
    (behind : Follows t) : u = [] := by
  cases u with
  | nil => rfl
  | cons c u =>
    exfalso
    -- a longer phrase would have a mark or a connecting word in it
    have mark := clear.marks
    rw [List.cons_append] at longer
    generalize whole : u ++ t = v at longer
    cases longer with
    | close => exact (mark ')' (by simp)).2.1 rfl
    | comma => exact (mark ',' (by simp)).2.2 rfl
    | aside v =>
      cases u with
      | nil =>
        rw [List.nil_append] at whole
        subst whole
        exact absurd behind.head (by decide)
      | cons d u =>
        cases whole
        exact (mark '(' (by simp)).1 rfl
    | @link w mem v =>
      obtain ⟨same, word, key⟩ := linkWords_words w mem
      rcases List.append_eq_append_iff.1 whole with ⟨b, e, rfl⟩ | ⟨b, rfl, e⟩
      · rcases b with _ | ⟨d, b⟩
        · rw [List.append_nil] at e
          subst e
          rw [← List.append_nil w] at clear
          exact clear.no_word_behind (by rw [same, word]) (by rwa [same]) (.inl rfl)
        · exact linkWords_letters w mem d (by simp [e]) behind.head
      · refine clear.no_word_behind (by rw [same, word]) (by rwa [same]) ?_
        rcases b with _ | ⟨d, b⟩
        · exact .inl rfl
        · exact .inr ⟨b, by rw [(List.cons.inj e).1]⟩

/-- A phrase ends where what follows it begins. -/
lemma IsClear.append_inj {p q s t : Text} (clearP : IsClear p) (clearQ : IsClear q)
    (hs : Follows s) (ht : Follows t) (e : p ++ s = q ++ t) : p = q ∧ s = t := by
  rcases List.append_eq_append_iff.1 e with ⟨u, rfl, rfl⟩ | ⟨u, rfl, rfl⟩
  · have none := clearQ.not_follows hs ht
    subst none
    exact ⟨(List.append_nil p).symm, rfl⟩
  · have none := clearP.not_follows ht hs
    subst none
    exact ⟨List.append_nil q, rfl⟩

/-- The word with which a negation begins. -/
def notWord : Text :=
  "Não".toList

/-- The word with which a conditional begins. -/
def ifWord : Text :=
  "Se".toList

/-- The words with which a negation or a conditional begins. -/
def openers : List Text :=
  [notWord, ifWord]

/-- A negation begins with one of the openers. -/
lemma notWord_mem : notWord ∈ openers := List.mem_cons_self

/-- A conditional begins with one of the openers. -/
lemma ifWord_mem : ifWord ∈ openers := List.mem_cons_of_mem notWord List.mem_cons_self

set_option maxRecDepth 2000 in
/-- In lower case the openers are words of readings. -/
lemma openers_words :
    ∀ w ∈ openers, wordRuns (lower w) = [lower w] ∧ lower w ∈ keyWords ∧
      ∀ c ∈ w, ¬ (c = ')' ∨ c = ',' ∨ c = ' ') := by
  decide

/-- No phrase begins as a negation or a conditional does. -/
lemma IsClear.ne_opener {p s w r : Text} (clear : IsClear p) (hs : Follows s)
    (opener : w ∈ openers) : p ++ s ≠ w ++ ' ' :: r := by
  intro e
  obtain ⟨word, key, letters⟩ := openers_words w opener
  rcases List.append_eq_append_iff.1 e with ⟨u, eu, rfl⟩ | ⟨u, rfl, eu⟩
  · rcases u with _ | ⟨c, u⟩
    · rw [List.append_nil] at eu
      subst eu
      rw [← List.append_nil w] at clear
      exact clear.no_word_front word key (.inl rfl)
    · exact letters c (by simp [eu]) hs.head
  · refine clear.no_word_front word key ?_
    rcases u with _ | ⟨c, u⟩
    · exact .inl rfl
    · exact .inr ⟨u, by rw [(List.cons.inj eu).1]⟩

/-! ## Which operands are wrapped -/

/-- Whether a formula is an atom under any number of negations. -/
def isLiteral : Formula → Bool
  | .atom _ => true
  | .not operand => operand.isLiteral
  | .binary _ _ _ => false

/-- A text connects if the part on either side of a mark does, or if the mark is a comma. -/
lemma connects_append_cons {c : Char} (mark : c ∈ [' ', '(', ')', ',']) (s t : Text) :
    connects (lower (s ++ c :: t))
      = (c == ',' || connects (lower s) || connects (lower t)) := by
  have other : ∀ c ∈ [' ', '(', ')', ','], isWordChar c = false := by decide
  rw [lower_append_cons (breaks_mark c mark), connects, connects, connects, wordRuns,
    runs_append_cons _ _ (other c mark)]
  simp only [List.contains_append, List.contains_cons, List.any_append, wordRuns]
  have comma : (',' == c) = (c == ',') := Bool.beq_comm
  rw [comma]
  ac_rfl

/-- A text behind a mark connects as it does alone, or if the mark is a comma. -/
lemma connects_cons {c : Char} (mark : c ∈ [' ', '(', ')', ',']) (t : Text) :
    connects (lower (c :: t)) = (c == ',' || connects (lower t)) := by
  have none : connects (lower []) = false := rfl
  have e := connects_append_cons mark [] t
  rw [none, Bool.or_false] at e
  exact e

/-- Parentheses do not count for what they hold. -/
lemma connects_operandText (s : Text) :
    connects (lower (operandText s)) = connects (lower s) := by
  rw [operandText]
  cases h : connects (lower s) with
  | false => exact h
  | true =>
    rw [wrapIf, if_pos rfl, wrap, List.cons_append, connects_cons (by simp),
      connects_append_cons (by simp), h]
    rfl

section
variable {phrase? : Text → Option Text}

/-- The text that stands between the operands of a connective other than the conditional. -/
def link : Connective → Text
  | .and => " e ".toList
  | .iff => " se e somente se ".toList
  | _ => " ou ".toList

/-- The text that stands between the first word of a negation and its operand. -/
def notRest : Text :=
  "é verdade que ".toList

/-- The text that stands between the operands of a conditional. -/
def thenText : Text :=
  ", então ".toList

/-- The text that stands behind the operands of a connective. -/
def tail : Connective → Text
  | .xor => " (mas não ambos)".toList
  | _ => []

/-- An atom is read as its phrase, or as its name if it has none. -/
lemma reading_atom (l : Text) : reading phrase? (.atom l) = (phrase? l).getD l := by
  rfl

/-- A negation is read as its words and its operand. -/
lemma reading_not (x : Formula) :
    reading phrase? (.not x)
      = notWord ++ ' ' :: (notRest ++ operandText (x.reading phrase?)) := by
  rfl

/-- A negation stands in front of its operand, with a space between them. -/
lemma reading_not_space (x : Formula) :
    reading phrase? (.not x)
      = "Não é verdade que".toList ++ ' ' :: operandText (x.reading phrase?) := by
  rfl

/-- A conditional is read as its two words, each before an operand. -/
lemma reading_imp (x y : Formula) :
    reading phrase? (.binary .imp x y)
      = ifWord ++ ' ' :: (operandText (x.reading phrase?)
          ++ (thenText ++ operandText (y.reading phrase?))) := by
  rw [← List.append_assoc]
  rfl

/-- Other connectives are read as what stands between and behind their operands. -/
lemma reading_binary {op : Connective} (ne : op ≠ .imp) (x y : Formula) :
    reading phrase? (.binary op x y)
      = operandText (x.reading phrase?)
          ++ (link op ++ (operandText (y.reading phrase?) ++ tail op)) := by
  have whole : reading phrase? (.binary op x y)
      = operandText (x.reading phrase?) ++ link op ++ operandText (y.reading phrase?)
          ++ tail op := by
    cases op with
    | imp => exact absurd rfl ne
    | xor => rfl
    | _ => exact (List.append_nil _).symm
  rw [whole, List.append_assoc, List.append_assoc]

/-- A clear phrase does not connect. -/
lemma IsClear.connects_eq {p : Text} (clear : IsClear p) : connects (lower p) = false := by
  have comma : ',' ∉ lower p := by
    intro mem
    rcases mem_lower mem with mem | late
    · exact (clear.marks ',' mem).2.2 rfl
    · exact absurd late (by decide)
  have keys : ∀ w ∈ connectingWords, w ∈ keyWords := by decide
  have words : ∀ w ∈ wordRuns (lower p), connectingWords.contains w = false := by
    intro w mem
    rw [Bool.eq_false_iff]
    exact fun found => clear.words w mem (keys w (List.contains_iff_mem.1 found))
  rw [connects, Bool.or_eq_false_iff, List.any_eq_false]
  exact ⟨Bool.eq_false_iff.2 fun found => comma (List.contains_iff_mem.1 found),
    fun w mem => by rw [words w mem]; exact Bool.false_ne_true⟩

/-- What stands between two operands connects. -/
lemma connects_link {op : Connective} (ne : op ≠ .imp) (s t : Text) :
    connects (lower (s ++ (link op ++ t))) = true := by
  have word : ∃ u w v, link op = u ++ ' ' :: (w ++ ' ' :: v) ∧ connects (lower w) = true := by
    cases op with
    | imp => exact absurd rfl ne
    | and => exact ⟨[], "e".toList, [], rfl, by decide⟩
    | iff => exact ⟨" se".toList, "e".toList, "somente se ".toList, rfl, by decide⟩
    | or => exact ⟨[], "ou".toList, [], rfl, by decide⟩
    | xor => exact ⟨[], "ou".toList, [], rfl, by decide⟩
  obtain ⟨u, w, v, e, found⟩ := word
  have e' : s ++ (link op ++ t) = (s ++ u) ++ ' ' :: (w ++ ' ' :: (v ++ t)) := by simp [e]
  rw [e', connects_append_cons (by simp), connects_append_cons (by simp), found]
  simp

/-- A reading holds a connecting word or a comma iff its formula has a connective. -/
lemma connects_reading {f : Formula}
    (clear : ∀ l ∈ f.leaves, IsClear ((phrase? l).getD l)) :
    connects (lower (f.reading phrase?)) = !f.isLiteral := by
  induction f with
  | atom l => exact (clear l List.mem_cons_self).connects_eq
  | not x ih =>
    have opening : connects (lower "Não é verdade que".toList) = false := by decide
    rw [reading_not_space, connects_append_cons (by simp), opening, connects_operandText, ih clear]
    rfl
  | binary op x y =>
    by_cases imp : op = .imp
    · have e : reading phrase? (.binary .imp x y)
          = (ifWord ++ ' ' :: operandText (x.reading phrase?))
              ++ ',' :: (thenText.tail ++ operandText (y.reading phrase?)) := by
        rw [reading_imp, List.append_assoc]
        rfl
      rw [imp, e, connects_append_cons (by simp)]
      rfl
    · rw [reading_binary imp, connects_link imp]
      rfl

end

/-! ## Comparing readings -/

/-- Whether labels have clear phrases, no two of them the same. -/
structure Distinct (phrase? : Text → Option Text) (labels : List Text) : Prop where
  clear : ∀ l ∈ labels, IsClear ((phrase? l).getD l)
  inj : ∀ l ∈ labels, ∀ m ∈ labels, (phrase? l).getD l = (phrase? m).getD m → l = m

/-- Whether a formula is an atom or a negation. -/
def isUnit : Formula → Bool
  | .binary _ _ _ => false
  | _ => true

/-- Whether the readings of two formulas differ wherever what stands behind them can stand there,
unless both are the same formula. -/
def Apart (phrase? : Text → Option Text) (Behind : Text → Prop) (f g : Formula) : Prop :=
  ∀ s t, Behind s → Behind t → f.reading phrase? ++ s = g.reading phrase? ++ t → f = g ∧ s = t

section
variable {phrase? : Text → Option Text} {labels : List Text} {f g x y : Formula}

/-- It does not matter which of two formulas is told from the other. -/
lemma Apart.symm {Behind : Text → Prop} (h : Apart phrase? Behind f g) :
    Apart phrase? Behind g f := by
  intro s t hs ht e
  obtain ⟨rfl, rfl⟩ := h t s ht hs e.symm
  exact ⟨rfl, rfl⟩

/-- An operand is a group unless it is a literal. -/
lemma operandText_reading (phrases : Distinct phrase? labels) (known : f.leaves ⊆ labels) :
    operandText (f.reading phrase?)
      = if f.isLiteral then f.reading phrase? else Text.wrap (f.reading phrase?) := by
  rw [operandText, connects_reading fun l mem => phrases.clear l (known mem)]
  cases f.isLiteral <;> rfl

/-- A literal is an atom or a negation. -/
lemma isUnit_of_isLiteral (h : f.isLiteral = true) : f.isUnit = true := by
  cases f with
  | binary => cases h
  | _ => rfl

/-- The reading of an atom or a negation does not begin with a parenthesis. -/
lemma reading_head (phrases : Distinct phrase? labels) (known : f.leaves ⊆ labels)
    (unit : f.isUnit = true) (s t : Text) : f.reading phrase? ++ s ≠ '(' :: t := by
  intro e
  cases f with
  | atom l =>
    have clear := phrases.clear l (known List.mem_cons_self)
    rw [reading_atom] at e
    generalize (phrase? l).getD l = p at e clear
    cases p with
    | nil => exact absurd clear.solid (by decide)
    | cons c p =>
      rw [(List.cons.inj e).1] at clear
      exact (clear.marks '(' List.mem_cons_self).1 rfl
  | not x => exact absurd (List.cons.inj e).1 (by decide)
  | binary => cases unit

/-- The reading of an atom or a negation does not begin as a conditional does. -/
lemma reading_ne_ifWord (phrases : Distinct phrase? labels) (known : f.leaves ⊆ labels)
    (unit : f.isUnit = true) {s : Text} (hs : Follows s) (r : Text) :
    f.reading phrase? ++ s ≠ ifWord ++ ' ' :: r := by
  cases f with
  | atom l => exact (phrases.clear l (known List.mem_cons_self)).ne_opener hs ifWord_mem
  | not x => exact fun e => absurd (List.cons.inj e).1 (by decide)
  | binary => cases unit

/-- An operand does not begin with the word of a conditional. -/
lemma operandText_ne_ifWord (phrases : Distinct phrase? labels) (known : f.leaves ⊆ labels)
    {s : Text} (hs : Follows s) (r : Text) :
    operandText (f.reading phrase?) ++ s ≠ ifWord ++ ' ' :: r := by
  rw [operandText_reading phrases known]
  split
  · rename_i literal
    exact reading_ne_ifWord phrases known (isUnit_of_isLiteral literal) hs r
  · exact fun e => absurd (List.cons.inj e).1 (by decide)

/-- Operands are told apart if their readings are, in a group and, for literals, bare. -/
lemma operandText_inj (phrases : Distinct phrase? labels) (knownF : f.leaves ⊆ labels)
    (knownG : g.leaves ⊆ labels) (whole : Apart phrase? Closes f g)
    (bare : f.isUnit = true → g.isUnit = true → Apart phrase? Follows f g) {s t : Text}
    (hs : Follows s) (ht : Follows t)
    (e : operandText (f.reading phrase?) ++ s = operandText (g.reading phrase?) ++ t) :
    f = g ∧ s = t := by
  rw [operandText_reading phrases knownF, operandText_reading phrases knownG] at e
  cases hf : f.isLiteral with
  | true =>
    have unitF := isUnit_of_isLiteral hf
    cases hg : g.isLiteral with
    | true =>
      rw [hf, hg] at e
      exact bare unitF (isUnit_of_isLiteral hg) s t hs ht e
    | false =>
      rw [hf, hg] at e
      exact absurd e (reading_head phrases knownF unitF s _)
  | false =>
    cases hg : g.isLiteral with
    | true =>
      rw [hf, hg] at e
      exact absurd e.symm (reading_head phrases knownG (isUnit_of_isLiteral hg) t _)
    | false =>
      rw [hf, hg] at e
      have inner : f.reading phrase? ++ ')' :: s = g.reading phrase? ++ ')' :: t := by
        simpa [Text.wrap] using e
      obtain ⟨same, rest⟩ := whole _ _ (.inr ⟨s, rfl⟩) (.inr ⟨t, rfl⟩) inner
      exact ⟨same, (List.cons.inj rest).2⟩

/-- What stands between operands can stand behind one. -/
lemma follows_link {op : Connective} (ne : op ≠ .imp) (t : Text) : Follows (link op ++ t) := by
  cases op with
  | imp => exact absurd rfl ne
  | and => exact .link (w := "e".toList) (by decide) t
  | iff => exact .link (w := "se".toList) (by decide) ("e somente se ".toList ++ t)
  | or => exact .link (w := "ou".toList) (by decide) t
  | xor => exact .link (w := "ou".toList) (by decide) t

/-- The words of a conclusion can stand behind an operand. -/
lemma follows_thenText (t : Text) : Follows (thenText ++ t) :=
  .comma (thenText.tail ++ t)

/-- The last words of a connective can stand behind an operand. -/
lemma follows_tail {op : Connective} {s : Text} (hs : Closes s) : Follows (tail op ++ s) := by
  cases op with
  | xor => exact .aside ("mas não ambos)".toList ++ s)
  | _ => exact hs.follows

/-- The second character behind a left operand tells what stands there. -/
lemma link_inj {op op' : Connective} (ne : op ≠ .imp) (ne' : op' ≠ .imp) {s t : Text}
    (e : link op ++ s = link op' ++ t) : link op = link op' ∧ s = t := by
  have second : ∀ op, op ≠ .imp → ∀ op', op' ≠ .imp → link op ≠ link op' →
      ∃ c d u v, link op = ' ' :: c :: u ∧ link op' = ' ' :: d :: v ∧ c ≠ d := by
    intro op ne op' ne' other
    cases op <;> cases op' <;> first
      | exact absurd rfl other
      | exact absurd rfl ne
      | exact absurd rfl ne'
      | exact ⟨_, _, _, _, rfl, rfl, by decide⟩
  by_cases same : link op = link op'
  · rw [same] at e
    exact ⟨same, List.append_cancel_left e⟩
  -- only the two disjunctions have the same words between their operands
  · obtain ⟨c, d, u, v, ec, ed, far⟩ := second op ne op' ne' same
    rw [ec, ed] at e
    exact absurd (List.cons.inj (List.cons.inj e).2).1 far

/-- What stands behind a right operand tells the two disjunctions apart. -/
lemma tail_inj {op op' : Connective} (kind : link op = link op') (ne : op ≠ .imp)
    (ne' : op' ≠ .imp) {s t : Text} (hs : Closes s) (ht : Closes t)
    (e : tail op ++ s = tail op' ++ t) : op = op' ∧ s = t := by
  cases op <;> cases op' <;> first
    | exact absurd rfl ne
    | exact absurd rfl ne'
    | exact absurd kind (by decide)
    | exact ⟨rfl, List.append_cancel_left e⟩
    | exact absurd e hs.ne_space
    | exact absurd e.symm ht.ne_space

/-- An atom or a negation does not read as a connective of two formulas does. -/
lemma unit_apart_binary (phrases : Distinct phrase? labels) (knownF : f.leaves ⊆ labels)
    (unit : f.isUnit = true) {op : Connective} (knownX : x.leaves ⊆ labels)
    (bare : x.isUnit = true → Apart phrase? Follows f x) :
    Apart phrase? Closes f (.binary op x y) := by
  intro s t hs ht e
  exfalso
  by_cases imp : op = .imp
  · rw [imp, reading_imp, List.append_assoc, List.cons_append] at e
    exact reading_ne_ifWord phrases knownF unit hs.follows _ e
  · rw [reading_binary imp, operandText_reading phrases knownX, List.append_assoc] at e
    cases hx : x.isLiteral with
    | false =>
      rw [hx] at e
      exact reading_head phrases knownF unit s _ e
    | true =>
      rw [hx, List.append_assoc] at e
      obtain ⟨_, rest⟩ := bare (isUnit_of_isLiteral hx) s _ hs.follows (follows_link imp _) e
      cases op with
      | imp => exact absurd rfl imp
      | _ => exact hs.ne_space rest

/-- The readings of two connectives of formulas are told apart if those of their operands are. -/
lemma binary_apart_binary (phrases : Distinct phrase? labels) {op op' : Connective}
    {x' y' : Formula} (knownX : x.leaves ⊆ labels) (knownX' : x'.leaves ⊆ labels)
    (lefts : ∀ s t, Follows s → Follows t → operandText (x.reading phrase?) ++ s
      = operandText (x'.reading phrase?) ++ t → x = x' ∧ s = t)
    (rights : ∀ s t, Follows s → Follows t → operandText (y.reading phrase?) ++ s
      = operandText (y'.reading phrase?) ++ t → y = y' ∧ s = t) :
    Apart phrase? Closes (.binary op x y) (.binary op' x' y') := by
  intro s t hs ht e
  by_cases imp : op = .imp
  · subst imp
    by_cases imp' : op' = .imp
    · subst imp'
      rw [reading_imp, reading_imp, List.append_assoc, List.append_assoc,
        List.append_cancel_left_eq, List.cons_append, List.cons_append] at e
      have inner := (List.cons.inj e).2
      rw [List.append_assoc, List.append_assoc, List.append_assoc, List.append_assoc] at inner
      obtain ⟨rfl, rest⟩ := lefts _ _ (follows_thenText _) (follows_thenText _) inner
      rw [List.append_cancel_left_eq] at rest
      obtain ⟨rfl, rfl⟩ := rights s t hs.follows ht.follows rest
      exact ⟨rfl, rfl⟩
    · rw [reading_imp, reading_binary imp', List.append_assoc, List.append_assoc,
        List.append_assoc] at e
      exact absurd e.symm (operandText_ne_ifWord phrases knownX' (follows_link imp' _) _)
  · by_cases imp' : op' = .imp
    · subst imp'
      rw [reading_imp, reading_binary imp, List.append_assoc, List.append_assoc,
        List.append_assoc] at e
      exact absurd e (operandText_ne_ifWord phrases knownX (follows_link imp _) _)
    · rw [reading_binary imp, reading_binary imp', List.append_assoc, List.append_assoc,
        List.append_assoc, List.append_assoc, List.append_assoc, List.append_assoc] at e
      obtain ⟨rfl, rest⟩ := lefts _ _ (follows_link imp _) (follows_link imp' _) e
      obtain ⟨kind, rest⟩ := link_inj imp imp' rest
      obtain ⟨rfl, ends⟩ := rights _ _ (follows_tail hs) (follows_tail ht) rest
      obtain ⟨rfl, rfl⟩ := tail_inj kind imp imp' hs ht ends
      exact ⟨rfl, rfl⟩

/-- What tells a formula from all others over some labels: its reading, and behind an atom or a
negation more kinds of text can stand. -/
def Told (phrase? : Text → Option Text) (labels : List Text) (f : Formula) : Prop :=
  ∀ g, g.leaves ⊆ labels →
    Apart phrase? Closes f g ∧ (f.isUnit = true → g.isUnit = true → Apart phrase? Follows f g)

/-- A formula that is told is told as an operand. -/
lemma Told.operandText_inj (phrases : Distinct phrase? labels) (knownF : f.leaves ⊆ labels)
    (told : Told phrase? labels f) (knownG : g.leaves ⊆ labels) :
    ∀ s t, Follows s → Follows t → operandText (f.reading phrase?) ++ s
      = operandText (g.reading phrase?) ++ t → f = g ∧ s = t :=
  fun _ _ => Formula.operandText_inj phrases knownF knownG (told g knownG).1 (told g knownG).2

/-- An atom or a negation is told from all formulas if it is from its like. -/
lemma told_of_unit (phrases : Distinct phrase? labels) (knownF : f.leaves ⊆ labels)
    (unit : f.isUnit = true)
    (bare : ∀ g, g.leaves ⊆ labels → g.isUnit = true → Apart phrase? Follows f g) :
    Told phrase? labels f := by
  intro g knownG
  refine ⟨?_, fun _ => bare g knownG⟩
  cases g with
  | binary op x y =>
    have knownX : x.leaves ⊆ labels := fun l mem => knownG (List.mem_append_left _ mem)
    exact unit_apart_binary phrases knownF unit knownX (bare x knownX)
  | _ => exact fun s t hs ht => bare _ knownG rfl s t hs.follows ht.follows

/-- Every formula is told from all others. -/
lemma told (phrases : Distinct phrase? labels) (known : f.leaves ⊆ labels) :
    Told phrase? labels f := by
  -- the other formula is arbitrary all along, so each case of one meets each of the other
  induction f with
  | atom l =>
    refine told_of_unit phrases known rfl fun g knownG unit s t hs ht e => ?_
    have clear := phrases.clear l (known List.mem_cons_self)
    cases g with
    | atom m =>
      have memM := knownG List.mem_cons_self
      obtain ⟨same, rest⟩ := clear.append_inj (phrases.clear m memM) hs ht e
      rw [phrases.inj l (known List.mem_cons_self) m memM same]
      exact ⟨rfl, rest⟩
    | not y => exact absurd e (clear.ne_opener hs notWord_mem)
    | binary => cases unit
  | not x ih =>
    refine told_of_unit phrases known rfl fun g knownG unit s t hs ht e => ?_
    cases g with
    | atom m =>
      have clear := phrases.clear m (knownG List.mem_cons_self)
      exact absurd e.symm (clear.ne_opener ht notWord_mem)
    | not y =>
      rw [reading_not, reading_not, List.append_assoc, List.append_assoc,
        List.append_cancel_left_eq, List.cons_append, List.cons_append] at e
      have inner := (List.cons.inj e).2
      rw [List.append_assoc, List.append_assoc, List.append_cancel_left_eq] at inner
      have knownX : x.leaves ⊆ labels := known
      have knownY : y.leaves ⊆ labels := knownG
      obtain ⟨rfl, rfl⟩ := (ih knownX).operandText_inj phrases knownX knownY s t hs ht inner
      exact ⟨rfl, rfl⟩
    | binary => cases unit
  | binary op x y ihx ihy =>
    have knownX : x.leaves ⊆ labels := fun l mem => known (List.mem_append_left _ mem)
    have knownY : y.leaves ⊆ labels := fun l mem => known (List.mem_append_right _ mem)
    intro g knownG
    refine ⟨?_, fun unit => by cases unit⟩
    cases g with
    | binary op' x' y' =>
      have knownX' : x'.leaves ⊆ labels := fun l mem => knownG (List.mem_append_left _ mem)
      have knownY' : y'.leaves ⊆ labels := fun l mem => knownG (List.mem_append_right _ mem)
      exact binary_apart_binary phrases knownX knownX'
        ((ihx knownX).operandText_inj phrases knownX knownX')
        ((ihy knownY).operandText_inj phrases knownY knownY')
    | _ =>
      exact (unit_apart_binary phrases knownG rfl knownX
        fun unit => ((ihx knownX _ knownG).2 unit rfl).symm).symm

end

/-- Two formulas with the same reading are the same if the labels in them have clear phrases, no
two of them the same. -/
theorem reading_injective (d : Dictionary) (f g : Formula)
    (clear : ∀ l ∈ f.leaves ++ g.leaves, ∃ phrase, d.get? l = some phrase ∧ IsClear phrase)
    (different : ∀ l ∈ f.leaves ++ g.leaves, ∀ m ∈ f.leaves ++ g.leaves,
      d.get? l = d.get? m → l = m)
    (same : f.reading d.phrase? = g.reading d.phrase?) : f = g := by
  have shown : ∀ l ∈ f.leaves ++ g.leaves, d.get? l = some ((d.phrase? l).getD l) := by
    intro l mem
    obtain ⟨phrase, e, plain⟩ := clear l mem
    rw [Dictionary.phrase?, e, Option.filter_some, plain.solid]
    rfl
  have phrases : Distinct d.phrase? (f.leaves ++ g.leaves) := by
    refine ⟨fun l mem => ?_, fun l hl m hm e => ?_⟩
    · obtain ⟨phrase, e, plain⟩ := clear l mem
      rw [shown l mem, Option.some.injEq] at e
      rwa [e]
    · apply different l hl m hm
      rw [shown l hl, shown m hm, e]
  -- nothing stands behind the readings themselves
  have whole := told phrases (List.subset_append_left f.leaves g.leaves) g
    (List.subset_append_right f.leaves g.leaves)
  exact (whole.1 [] [] (.inl rfl) (.inl rfl) (congrArg (· ++ []) same)).1

/-- A reading with a bare negation, two kinds of `ou` and a group. -/
theorem reading_injective_of_two_phrases :
    let d := Dictionary.ofList [("A".toList, "chove".toList), ("B".toList, "faz frio".toList)]
    let f : Formula := .binary .xor (.not (.atom "A".toList))
      (.binary .or (.atom "B".toList) (.atom "A".toList))
    (∀ l ∈ f.leaves ++ f.leaves, ∃ phrase, d.get? l = some phrase ∧ IsClear phrase) ∧
      (∀ l ∈ f.leaves ++ f.leaves, ∀ m ∈ f.leaves ++ f.leaves, d.get? l = d.get? m → l = m) ∧
      f.reading d.phrase?
        = "Não é verdade que chove ou (faz frio ou chove) (mas não ambos)".toList ∧
      f = f := by
  intro d f
  have rain : IsClear "chove".toList := ⟨by decide, by decide, by decide⟩
  have cold : IsClear "faz frio".toList := ⟨by decide, by decide, by decide⟩
  have clear : ∀ l ∈ f.leaves ++ f.leaves, ∃ phrase, d.get? l = some phrase ∧ IsClear phrase := by
    have leaves : ∀ l ∈ f.leaves ++ f.leaves, l = "A".toList ∨ l = "B".toList := by decide
    intro l mem
    rcases leaves l mem with rfl | rfl
    · exact ⟨_, rfl, rain⟩
    · exact ⟨_, rfl, cold⟩
  have different : ∀ l ∈ f.leaves ++ f.leaves, ∀ m ∈ f.leaves ++ f.leaves,
      d.get? l = d.get? m → l = m := by decide
  have text : f.reading d.phrase?
      = "Não é verdade que chove ou (faz frio ou chove) (mas não ambos)".toList := by decide
  exact ⟨clear, different, text, reading_injective d f f clear different rfl⟩

end Sentential.Formula

import Mathlib.Tactic.Lemma
import Sentential.Proofs.Symbolic.LetterCase
import Sentential.Proofs.Symbolic.Tiling
import Sentential.Proofs.Text.Count

/-!
# Characters outside the alphabet

A character with which no token is spelled and which is in no arrow is foreign (`IsForeign`). The
main spelling keeps every foreign character but one (`count_mainSpelling`), and no token has it, so
a text with it is never cut into tokens. The exception is the long s, for a connective as a word is
compared without the case of its letters, and there the long s counts as an s. The words of the main
spelling are those that spell no connective (`wordRuns_mainSpelling`), so it also keeps the long s
of every word but `implies` (`mem_mainSpelling_of_isStray`). What is left is a text with a plain s
for each long one (`tokenize_of_isStray`).
-/

namespace Sentential.Symbolic

open Text

/-! ## The words of the main spelling -/

/-- The connectives that are written as words, in small letters. -/
def connectiveWords : List Text :=
  ["xor".toList, "iff".toList, "implies".toList]

/-- Replacing a connective as a word leaves the other words, and none is written. -/
lemma wordRuns_wordAlias {word : Text} {glyph : Char} (ne : word ≠ [])
    (small : ∀ c ∈ word, c ∈ smallLetters) (sign : glyph ∈ signs) (s : Text) :
    wordRuns ((wordAlias word glyph).rewrite s)
      = (wordRuns s).filter fun r => r.map foldLetter ≠ word := by
  have letters : ∀ c, foldLetter c ∈ word → isWordChar c = true :=
    fun c mem => isWordChar_of_foldLetter (small _ mem)
  have none : isWordChar glyph = false := isWordChar_of_sign glyph sign
  have last : ([glyph] : Text).getLast?.any isWordChar = false := none
  have written : wordRuns [glyph] = [] := wordRuns_cons [] none
  rw [wordAlias, Pattern.wordRuns_rewrite_wholeBy ne letters last, written]
  induction wordRuns s with
  | nil => rfl
  | cons r rs ih =>
    by_cases same : r.map foldLetter = word
    · simp [same, ih]
    · simp [same, ih]

/-- Replacing an arrow leaves all words. -/
lemma wordRuns_rewrite_arrow {p : Pattern} {glyph : Char} (takes : p.TakesNoWord)
    (writes : p.Writes glyph) (sign : glyph ∈ signs) (s : Text) :
    wordRuns (p.rewrite s) = wordRuns s :=
  takes.wordRuns_rewrite writes (isWordChar_of_sign glyph sign) s

/-- The words of the main spelling are those of the text that spell no connective. -/
lemma wordRuns_mainSpelling (s : Text) :
    wordRuns (mainSpelling s)
      = (wordRuns s).filter fun r => r.map foldLetter ∉ connectiveWords := by
  have plain : ∀ c ∈ "<->=".toList, isWordChar c = false := by decide
  have arrow : ∀ phrase new : Text, phrase ≠ [] → (∀ c ∈ phrase, c ∈ "<->=".toList) →
      (Pattern.literal phrase new).TakesNoWord :=
    fun _ _ ne all => Pattern.takesNoWord_literal ne fun c mem => plain c (all c mem)
  have double := (arrow "<->".toList ['↔'] (by decide) (by decide)).or
    (arrow "<=>".toList ['↔'] (by decide) (by decide))
  have single := arrow "->".toList ['→'] (by decide) (by decide)
  simp only [mainSpelling, aliases, List.foldl_cons, List.foldl_nil]
  rw [wordRuns_tidy, wordRuns_wordAlias (by decide) (by decide) (by decide),
    wordRuns_wordAlias (by decide) (by decide) (by decide),
    wordRuns_wordAlias (by decide) (by decide) (by decide),
    wordRuns_rewrite_arrow single (Pattern.writes_literal _ _) (by decide),
    wordRuns_rewrite_arrow double ((Pattern.writes_literal _ _).or (Pattern.writes_literal _ _))
      (by decide),
    List.filter_filter, List.filter_filter]
  refine List.filter_congr fun r _ => ?_
  simp only [connectiveWords, List.mem_cons, List.not_mem_nil, or_false, not_or,
    Bool.decide_and, Bool.and_assoc]
  ac_rfl

/-- No word of a text in its main spelling spells a connective. -/
lemma mem_wordRuns_mainSpelling {s r : Text} (mem : r ∈ wordRuns (mainSpelling s)) :
    r.map foldLetter ∉ connectiveWords := by
  rw [wordRuns_mainSpelling] at mem
  exact of_decide_eq_true (List.mem_filter.1 mem).2

/-! ## Foreign characters -/

/-- Whether a character is in no formula: it continues no name, is no blank and no sign, and it is
in no arrow. -/
def IsForeign (c : Char) : Prop :=
  isNameChar c = false ∧ isBlank c = false ∧ c ∉ signs ∧ c ∉ "<->=".toList

instance : DecidablePred IsForeign := fun c =>
  inferInstanceAs
    (Decidable (isNameChar c = false ∧ isBlank c = false ∧ c ∉ signs ∧ c ∉ "<->=".toList))

section
variable {c : Char} {s : Text}

/-- Without its case a foreign character but the long s stays. -/
lemma IsForeign.foldLetter_eq (foreign : IsForeign c) (other : c ≠ 'ſ') : foldLetter c = c := by
  rcases Symbolic.foldLetter_eq c with name | long | same
  · have known := isNameChar_of_nameChar c name
    rw [foreign.1] at known
    cases known
  · exact absurd long other
  · exact same

/-- The main spelling keeps every foreign character but the long s. -/
lemma count_mainSpelling (foreign : IsForeign c) (other : c ≠ 'ſ') (s : Text) :
    (mainSpelling s).count c = s.count c := by
  have same := foreign.foldLetter_eq other
  obtain ⟨noName, solid, noSign, noArrow⟩ := foreign
  have new : ∀ glyph ∈ signs, c ∉ [glyph] := by
    intro glyph sign mem
    exact noSign (List.mem_singleton.1 mem ▸ sign)
  have arrow : ∀ phrase glyph, phrase ≠ [] → (∀ d ∈ phrase, d ∈ "<->=".toList) → glyph ∈ signs →
      (Pattern.literal phrase [glyph]).Spares c :=
    fun _ _ ne all sign => Pattern.spares_literal ne (fun mem => noArrow (all c mem)) (new _ sign)
  have word : ∀ word glyph, word ≠ [] → (∀ d ∈ word, d ∈ nameChars) → glyph ∈ signs →
      (wordAlias word glyph).Spares c := by
    refine fun _ _ ne names sign => Pattern.spares_wholeBy ne (fun mem => ?_) (new _ sign)
    rw [same] at mem
    rw [isNameChar_of_nameChar c (names c mem)] at noName
    cases noName
  have double := (arrow "<->".toList '↔' (by decide) (by decide) (by decide)).or
    (arrow "<=>".toList '↔' (by decide) (by decide) (by decide))
  have single := arrow "->".toList '→' (by decide) (by decide) (by decide)
  have xor := word "xor".toList '⊕' (by decide) (by decide) (by decide)
  have iff := word "iff".toList '↔' (by decide) (by decide) (by decide)
  have implies := word "implies".toList '→' (by decide) (by decide) (by decide)
  simp only [mainSpelling, aliases, List.foldl_cons, List.foldl_nil]
  rw [count_tidy solid, implies.count_rewrite, iff.count_rewrite, xor.count_rewrite,
    single.count_rewrite, double.count_rewrite]

/-- No text with a foreign character in its main spelling is cut into tokens. -/
lemma tokenize_of_isForeign (foreign : IsForeign c) (mem : c ∈ mainSpelling s) :
    ∃ symbol offset, tokenize s = .error (.invalidSymbol symbol offset) := by
  cases out : tokenize s with
  | error cause =>
    obtain ⟨_, symbol, _, _, e, -⟩ := stuck_of_lexFrom out
    exact ⟨symbol, _, congrArg _ e⟩
  | ok lexemes =>
    obtain ⟨noName, solid, noSign, -⟩ := foreign
    rcases (spells_of_lexFrom out).mem mem with rfl | sign | name
    · exact absurd solid (by decide)
    · exact absurd sign noSign
    · rw [isNameChar_of_nameChar c name] at noName
      cases noName

/-! ## The long s -/

/-- Whether a foreign character of a text is no long s in the word `implies`. -/
def IsStray (s : Text) (c : Char) : Prop :=
  IsForeign c ∧
    (c = 'ſ' → ∃ r ∈ wordRuns s, c ∈ r ∧ r.map foldLetter ≠ "implies".toList)

instance (s : Text) : DecidablePred (IsStray s) := fun c =>
  inferInstanceAs (Decidable (IsForeign c ∧
    (c = 'ſ' → ∃ r ∈ wordRuns s, c ∈ r ∧ r.map foldLetter ≠ "implies".toList)))

/-- Of the connectives, only `implies` has an s. -/
lemma not_mem_connectiveWords {r : Text} (mem : 'ſ' ∈ r)
    (other : r.map foldLetter ≠ "implies".toList) : r.map foldLetter ∉ connectiveWords := by
  have table : ∀ word ∈ connectiveWords, 's' ∈ word → word = "implies".toList := by decide
  intro connective
  exact other (table _ connective (List.mem_map_of_mem (f := foldLetter) mem))

/-- The main spelling keeps what is stray. -/
lemma mem_mainSpelling_of_isStray (stray : IsStray s c) (mem : c ∈ s) : c ∈ mainSpelling s := by
  obtain ⟨foreign, place⟩ := stray
  by_cases long : c = 'ſ'
  · obtain ⟨r, run, inside, other⟩ := place long
    subst long
    have kept : r ∈ wordRuns (mainSpelling s) := by
      rw [wordRuns_mainSpelling, List.mem_filter]
      exact ⟨run, decide_eq_true (not_mem_connectiveWords inside other)⟩
    exact (of_mem_runs kept).2.2.subset inside
  · rwa [← List.count_pos_iff, count_mainSpelling foreign long, List.count_pos_iff]

/-- Where no long s is stray, none is left in the main spelling. -/
lemma not_mem_mainSpelling (none : ¬ IsStray s 'ſ') : 'ſ' ∉ mainSpelling s := by
  intro mem
  have inside : 'ſ' ∈ (wordRuns (mainSpelling s)).flatten := by
    rw [wordRuns, flatten_runs, List.mem_filter]
    exact ⟨mem, by decide⟩
  obtain ⟨r, run, inside⟩ := List.mem_flatten.1 inside
  have other := mem_wordRuns_mainSpelling run
  rw [wordRuns_mainSpelling] at run
  have stray : r.map foldLetter ≠ "implies".toList := fun e => other (by rw [e]; decide)
  exact none ⟨by decide, fun _ => ⟨r, List.mem_of_mem_filter run, inside, stray⟩⟩

/-- A long s as a plain one. -/
def plainLetter (c : Char) : Char :=
  if c = 'ſ' then 's' else c

/-- What does not tell the long s from a plain one. -/
lemma apply_plainLetter {α : Type} {F : Char → α} (same : F 's' = F 'ſ') (c : Char) :
    F (plainLetter c) = F c := by
  rw [plainLetter]
  split
  · rename_i long
    rw [long, same]
  · rfl

/-- Nothing on the way to the main spelling sees whether an s is long. -/
lemma isUnseen_plainLetter : IsUnseen plainLetter where
  word := apply_plainLetter (by decide)
  folded := apply_plainLetter (by decide)
  arrow := by
    have table : ∀ d ∈ "<->=".toList, ('s' = d) = ('ſ' = d) := by decide
    exact fun d mem c => Iff.of_eq (apply_plainLetter (F := (· = d)) (table d mem) c)
  written := by decide
  blank := apply_plainLetter (by decide)
  space := rfl

/-- Without stray characters, the tokens are those of the text with plain letters. -/
lemma tokenize_map_plainLetter (none : ¬ IsStray s 'ſ') :
    tokenize (s.map plainLetter) = tokenize s := by
  have plain : ∀ c ∈ mainSpelling s, plainLetter c = id c := by
    intro c mem
    have other : c ≠ 'ſ' := fun long => not_mem_mainSpelling none (long ▸ mem)
    rw [plainLetter, if_neg other, id]
  have same : (mainSpelling s).map plainLetter = mainSpelling s := by
    rw [List.map_congr_left plain, List.map_id]
  rw [tokenize, isUnseen_plainLetter.mainSpelling_map, same, tokenize]

end

/-- A text with a stray character is not cut into tokens: some symbol in it is invalid. Every other
text has the tokens of the same text with plain letters, in which there is no foreign character. -/
theorem tokenize_of_isStray (s : Text) :
    ((∃ c ∈ s, IsStray s c) →
        ∃ symbol offset, tokenize s = .error (.invalidSymbol symbol offset)) ∧
      ((∀ c ∈ s, ¬ IsStray s c) →
        tokenize s = tokenize (s.map plainLetter) ∧ ∀ c ∈ s.map plainLetter, ¬ IsForeign c) := by
  constructor
  · rintro ⟨c, mem, stray⟩
    exact tokenize_of_isForeign stray.1 (mem_mainSpelling_of_isStray stray mem)
  · intro none
    constructor
    · refine (tokenize_map_plainLetter fun stray => ?_).symm
      obtain ⟨r, run, inside, -⟩ := stray.2 rfl
      exact none 'ſ' ((of_mem_runs run).2.2.subset inside) stray
    · rw [List.forall_mem_map]
      intro c mem foreign
      by_cases long : c = 'ſ'
      · rw [long] at foreign
        exact absurd foreign (by decide)
      · rw [plainLetter, if_neg long] at foreign
        exact none c mem ⟨foreign, fun e => absurd e long⟩

/-- A long s in a connective goes unseen. One in a name, and another foreign character behind such a
connective, do not. -/
theorem tokenize_of_isStray_of_connective :
    let s : Text := "p implieſ q".toList
    let t : Text := "p implieſ Roſe".toList
    let u : Text := "p implieſ é".toList
    (IsForeign 'ſ' ∧ (∀ c ∈ s, ¬ IsStray s c) ∧ tokenize s = tokenize "p implies q".toList ∧
        tokenize s = .ok [⟨.identifier ['P'], 0, 1⟩, ⟨.connective .imp, 2, 5⟩,
          ⟨.identifier ['Q'], 6, 7⟩]) ∧
      (IsStray t 'ſ' ∧ ∃ symbol offset, tokenize t = .error (.invalidSymbol symbol offset)) ∧
      (IsStray u 'é' ∧ ∃ symbol offset, tokenize u = .error (.invalidSymbol symbol offset)) := by
  intro s t u
  have settled : ∀ c ∈ s, ¬ IsStray s c := by decide
  have name : IsStray t 'ſ' := by decide
  have accent : IsStray u 'é' := by decide
  exact ⟨⟨by decide, settled, ((tokenize_of_isStray s).2 settled).1, by decide +kernel⟩,
    ⟨name, (tokenize_of_isStray t).1 ⟨_, by decide, name⟩⟩,
    ⟨accent, (tokenize_of_isStray u).1 ⟨_, by decide, accent⟩⟩⟩

end Sentential.Symbolic

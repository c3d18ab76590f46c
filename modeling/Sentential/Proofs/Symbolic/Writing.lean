import Mathlib.Tactic.Lemma
import Sentential.Proofs.Symbolic.Spelling
import Sentential.Proofs.Text.Literal

/-!
# Texts in every spelling

A token is written in one of its signs or, in any case, as its word. Blanks may stand between the
tokens and have to stand between two words (`Written`). Every step towards the main spelling does
away with some spellings of one connective and leaves the others as they are (`Replaces`), so it
keeps the tokens that are written (`Replaces.rewrite`). Behind the last step only names and single
signs are left, and so the tokens of a text are those that are written in it (`tokenize_written`).
-/

namespace Sentential.Symbolic

open Text

/-- The spellings in signs. -/
def signTable : List (Text × Token) := [
  ("¬".toList, .not), ("!".toList, .not), ("~".toList, .not),
  ("∧".toList, .connective .and), ("&".toList, .connective .and), ("^".toList, .connective .and),
  ("∨".toList, .connective .or), ("|".toList, .connective .or),
  ("⊕".toList, .connective .xor),
  ("→".toList, .connective .imp), ("->".toList, .connective .imp),
  ("↔".toList, .connective .iff), ("<->".toList, .connective .iff),
  ("<=>".toList, .connective .iff),
  ("(".toList, .leftParen), (")".toList, .rightParen)]

/-- What spells a token on its own is in the table of signs. -/
lemma mem_signTable_of_ofChar? {c : Char} {token : Token} (h : Token.ofChar? c = some token) :
    ([c], token) ∈ signTable := by
  have table : ∀ c ∈ signs, ∀ token ∈ Token.ofChar? c, ([c], token) ∈ signTable := by decide
  exact table c (mem_signs h) token h

/-- The connectives that are spelled as words, in capitals. -/
def wordTable : List (Text × Token) := [
  ("XOR".toList, .connective .xor), ("IMPLIES".toList, .connective .imp),
  ("IFF".toList, .connective .iff)]

/-- Whether a text spells a token. The letters of a word may have any case. -/
def IsSpelling (token : Token) (w : Text) : Prop :=
  (w, token) ∈ signTable ∨ (w.map Char.toUpper, token) ∈ wordTable ∨
    token = .identifier (w.map Char.toUpper)

instance (token : Token) : DecidablePred (IsSpelling token) := fun w =>
  inferInstanceAs (Decidable ((w, token) ∈ signTable ∨ (w.map Char.toUpper, token) ∈ wordTable ∨
    token = .identifier (w.map Char.toUpper)))

/-- Texts that write tokens in given spellings. No word follows another without a blank. -/
inductive Written (spelling : Token → Text → Prop) : List Token → Text → Prop where
  | nil : Written spelling [] []
  | blank {c ts s} :
    isBlank c = true →
    Written spelling ts s →
    Written spelling ts (c :: s)
  | token {token w ts s} :
    spelling token w →
    (w.head?.any isLetter = true → s.head?.any isLetter = false) →
    Written spelling ts s →
    Written spelling (token :: ts) (w ++ s)

/-- What is written in some spellings is written in more of them. -/
lemma Written.mono {spelling spelling' : Token → Text → Prop} {ts : List Token} {s : Text}
    (written : Written spelling ts s)
    (h : ∀ token ∈ ts, ∀ w, spelling token w → spelling' token w) : Written spelling' ts s := by
  induction written with
  | nil => exact .nil
  | blank blank _ ih => exact .blank blank (ih h)
  | token spelled apart _ ih =>
    refine .token (h _ List.mem_cons_self _ spelled) apart (ih fun token mem => ?_)
    exact h token (List.mem_cons_of_mem _ mem)

/-! ## Words and signs -/

/-- The characters of the spellings in signs. -/
def strokes : Text :=
  signs ++ "<->=".toList

set_option maxRecDepth 4000 in
/-- No character of signs is a word character. -/
lemma isWordChar_of_stroke : ∀ c ∈ strokes, isWordChar c = false := by
  decide

/-- The spellings in signs consist of their characters. -/
lemma signTable_strokes : ∀ entry ∈ signTable, entry.1 ≠ [] ∧ ∀ c ∈ entry.1, c ∈ strokes := by
  decide

/-- The connectives that are words are spelled as labels. -/
lemma wordTable_labels : ∀ entry ∈ wordTable, IsLabel entry.1 := by
  decide

/-- A spelling of a token, unless it is one of those that are gone, which are given in capitals. A
name is to be that of an atom. -/
def SpelledWithout (gone : List Text) (token : Token) (w : Text) : Prop :=
  IsSpelling token w ∧ (∀ name, token = .identifier name → IsAtomName name) ∧
    w.map Char.toUpper ∉ gone

section
variable {gone : List Text} {token : Token} {ts : List Token} {w s : Text}

/-- A spelling is a word or consists of strokes. -/
lemma SpelledWithout.cases (h : SpelledWithout gone token w) :
    ((w, token) ∈ signTable ∧ w ≠ [] ∧ ∀ c ∈ w, c ∈ strokes) ∨
    ((w.map Char.toUpper, token) ∈ wordTable ∨ token = .identifier (w.map Char.toUpper)) ∧
      IsName w := by
  obtain ⟨sign | word, names, -⟩ := h
  · exact .inl ⟨sign, signTable_strokes _ sign⟩
  · refine .inr ⟨word, isLabel_map_toUpper.1 ?_⟩
    rcases word with connective | name
    · exact wordTable_labels _ connective
    · exact (names _ name).1

/-- What spells a token is not empty. -/
lemma SpelledWithout.ne_nil (h : SpelledWithout gone token w) : w ≠ [] := by
  rcases h.cases with ⟨-, ne, -⟩ | ⟨-, name⟩
  · exact ne
  · exact name.ne_nil

/-- A written text without a letter in front has no word there. -/
lemma Written.head (written : Written (SpelledWithout gone) ts s)
    (h : s.head?.any isLetter = false) : s.head?.any isWordChar = false := by
  cases written with
  | nil => rfl
  | blank blank _ => exact isWordChar_of_isBlank blank
  | token spelled _ _ =>
    rw [List.head?_append_of_ne_nil _ spelled.ne_nil] at h ⊢
    rcases spelled.cases with ⟨-, ne, all⟩ | ⟨-, name⟩
    · obtain ⟨c, w, rfl⟩ := List.exists_cons_of_ne_nil ne
      exact isWordChar_of_stroke c (all c List.mem_cons_self)
    · rw [name.head] at h
      cases h

end

/-! ## Steps towards the main spelling -/

/-- Whether a spelling stands where a pattern can tell it: no word goes on into a word. -/
def Stands (before : Option Char) (w s : Text) : Prop :=
  w.head?.any isLetter = true → before.any isWordChar = false ∧ s.head?.any isWordChar = false

/-- A pattern that writes a sign for some more spellings and leaves the others as they are. -/
structure Replaces (p : Pattern) (gone new : List Text) (glyph : Char) : Prop where
  hit : ∀ before s hit, p before s = some hit → hit.text = [glyph]
  blank : ∀ before c s, isBlank c = true → p before (c :: s) = none
  stays : ∀ token w before s, SpelledWithout gone token w → w.map Char.toUpper ∉ new →
    Stands before w s → p.rewriteFrom 0 before (w ++ s) = w ++ p.rewriteFrom 0 (behind before w) s
  turns : ∀ token w before s, SpelledWithout gone token w → w.map Char.toUpper ∈ new →
    Stands before w s → ([glyph], token) ∈ signTable ∧
      p.rewriteFrom 0 before (w ++ s) = glyph :: p.rewriteFrom 0 (behind before w) s
  main : [glyph.toUpper] ∉ new ++ gone ∧ isLetter glyph = false

section
variable {p : Pattern} {gone new : List Text} {glyph : Char} {ts : List Token} {s : Text}
  {before : Option Char}

/-- Where no letter stood in front, none is written there. -/
lemma Replaces.head (acts : Replaces p gone new glyph) (h : s.head?.any isLetter = false) :
    (p.rewriteFrom 0 before s).head?.any isLetter = false := by
  rcases s with _ | ⟨c, s⟩
  · rfl
  · rw [Pattern.rewriteFrom]
    cases found : p before (c :: s) with
    | none => exact h
    | some hit =>
      simp only [acts.hit _ _ _ found]
      exact acts.main.2

/-- A step keeps the tokens that are written. -/
lemma Replaces.rewriteFrom (acts : Replaces p gone new glyph)
    (written : Written (SpelledWithout gone) ts s)
    (start : before.any isWordChar = false ∨ s.head?.any isLetter = false) :
    Written (SpelledWithout (new ++ gone)) ts (p.rewriteFrom 0 before s) := by
  induction written generalizing before with
  | nil =>
    rw [Pattern.rewriteFrom_nil]
    exact .nil
  | @blank c ts s blank _ ih =>
    rw [Pattern.rewriteFrom_miss (acts.blank _ _ _ blank)]
    exact .blank blank (ih (.inl (isWordChar_of_isBlank blank)))
  | @token token w ts s spelled apart written ih =>
    have stands : Stands before w s := by
      intro letter
      rw [List.head?_append_of_ne_nil _ spelled.ne_nil, letter] at start
      exact ⟨start.resolve_right (by decide), written.head (apart letter)⟩
    have next : (behind before w).any isWordChar = false ∨ s.head?.any isLetter = false := by
      rcases spelled.cases with ⟨-, ne, all⟩ | ⟨-, name⟩
      · left
        rw [behind, List.getLast?_eq_some_getLast ne]
        exact isWordChar_of_stroke _ (all _ (List.getLast_mem ne))
      · exact .inr (apart name.head)
    by_cases mem : w.map Char.toUpper ∈ new
    · obtain ⟨sign, e⟩ := acts.turns _ _ _ _ spelled mem stands
      rw [e]
      refine .token (w := [glyph]) ⟨.inl sign, spelled.2.1, acts.main.1⟩ (fun letter => ?_)
        (ih next)
      rw [List.head?_cons, Option.any_some, acts.main.2] at letter
      cases letter
    · rw [acts.stays _ _ _ _ spelled mem stands]
      refine .token ⟨spelled.1, spelled.2.1, ?_⟩ (fun letter => acts.head (apart letter)) (ih next)
      rw [List.mem_append, not_or]
      exact ⟨mem, spelled.2.2⟩

/-- The spellings that a pattern replaces are gone behind it. -/
lemma Replaces.rewrite (acts : Replaces p gone new glyph)
    (written : Written (SpelledWithout gone) ts s) :
    Written (SpelledWithout (new ++ gone)) ts (p.rewrite s) :=
  acts.rewriteFrom written (.inl rfl)

end

/-! ## Arrows -/

/-- A spelling in signs, also where its letters are capitals. -/
lemma signTable_toUpper : ∀ entry ∈ signTable, entry.1.map Char.toUpper = entry.1 := by
  decide

/-- An arrow that is told by its first character. -/
lemma replaces_of_first {p : Pattern} {gone new : List Text} {glyph : Char} (first : Char)
    (stroke : first ∈ strokes) (main : [glyph.toUpper] ∉ new ++ gone ∧ isLetter glyph = false)
    (hit : p.Writes glyph) (miss : ∀ before c s, c ≠ first → p before (c :: s) = none)
    (others : ∀ entry ∈ signTable, entry.1 ∉ new → entry.1 ∉ gone → first ∉ entry.1)
    (signs : ∀ r ∈ new, ¬ IsLabel r)
    (glyphs : ∀ entry ∈ signTable, entry.1 ∈ new → ([glyph], entry.2) ∈ signTable)
    (arrows : ∀ r ∈ new, ∀ before s, p before (r ++ s) = some ⟨r.length - 1, [glyph]⟩) :
    Replaces p gone new glyph := by
  have other : isWordChar first = false := isWordChar_of_stroke first stroke
  refine ⟨hit, fun before c s blank => miss _ _ _ ?_, ?_, ?_, main⟩
  · rintro rfl
    have table : ∀ c ∈ strokes, isBlank c = false := by decide
    rw [table c stroke] at blank
    cases blank
  · intro token w before s spelled old _
    have absent : first ∉ w := by
      rcases spelled.cases with ⟨sign, -⟩ | ⟨-, name⟩
      · have left := spelled.2.2
        rw [signTable_toUpper _ sign] at old left
        exact others _ sign old left
      · intro mem
        rw [name.isWord.2 first mem] at other
        cases other
    apply Pattern.rewriteFrom_miss_append
    rintro u c v rfl
    apply miss
    rintro rfl
    simp at absent
  · intro token w before s spelled mem _
    rcases spelled.cases with ⟨sign, ne, -⟩ | ⟨-, name⟩
    · rw [signTable_toUpper _ sign] at mem
      exact ⟨glyphs _ sign mem, Pattern.rewriteFrom_hit ne (arrows w mem before s)⟩
    · exact absurd (isLabel_map_toUpper.2 name) (signs _ mem)

/-- A phrase does not stand where another character begins. -/
lemma literal_cons_eq_none {phrase new s : Text} {c d : Char} {before : Option Char}
    (ne : c ≠ d) : Pattern.literal (d :: phrase) new before (c :: s) = none := by
  rw [Pattern.literal, List.isPrefixOf, beq_false_of_ne ne.symm]
  rfl

/-- The first pattern replaces the arrows with two heads. -/
lemma replaces_double :
    Replaces ((Pattern.literal "<->".toList ['↔']).or (.literal "<=>".toList ['↔'])) []
      ["<->".toList, "<=>".toList] '↔' := by
  refine replaces_of_first '<' (by decide) (by decide) ?_ ?_ (by decide) (by decide)
    (by decide) ?_
  · exact (Pattern.writes_literal _ _).or (Pattern.writes_literal _ _)
  · intro before c s ne
    exact Option.or_eq_none_iff.2 ⟨literal_cons_eq_none ne, literal_cons_eq_none ne⟩
  · intro r mem before s
    simp only [List.mem_cons, List.not_mem_nil, or_false] at mem
    rcases mem with rfl | rfl
    · rfl
    · rfl

/-- The next pattern replaces the arrow with one head. -/
lemma replaces_single :
    Replaces (.literal "->".toList ['→']) ["<->".toList, "<=>".toList] ["->".toList] '→' := by
  refine replaces_of_first '-' (by decide) (by decide)
    (Pattern.writes_literal _ _) (fun _ _ _ ne => literal_cons_eq_none ne)
    (by decide) (by decide) (by decide) ?_
  intro r mem before s
  rw [List.mem_singleton.1 mem]
  rfl

/-! ## Words -/

/-- A connective as a word, which is told by its letters. -/
lemma replaces_word {gone : List Text} {word : Text} {glyph : Char} (ne : word ≠ [])
    (small : ∀ c ∈ word, c ∈ smallLetters) (taken : word.map Char.toUpper ∈ aliasWords)
    (fold : (word.map Char.toUpper).map foldLetter = word)
    (main : [glyph.toUpper] ∉ [word.map Char.toUpper] ++ gone ∧ isLetter glyph = false)
    (own : ∀ entry ∈ wordTable, entry.1 = word.map Char.toUpper → ([glyph], entry.2) ∈ signTable) :
    Replaces (wordAlias word glyph) gone [word.map Char.toUpper] glyph := by
  have letters : ∀ c, foldLetter c ∈ word → isWordChar c = true :=
    fun c mem => isWordChar_of_foldLetter (small _ mem)
  refine ⟨Pattern.writes_wholeBy _ _ _, fun before c s blank => ?_, ?_, ?_, main⟩
  · exact Pattern.wholeBy_cons_eq_none ne letters (isWordChar_of_isBlank blank) s
  · intro token w before s spelled other stands
    rcases spelled.cases with ⟨-, -, all⟩ | ⟨-, name⟩
    · apply Pattern.rewriteFrom_miss_append
      rintro u c v rfl
      have stroke : isWordChar c = false := isWordChar_of_stroke c (all c (by simp))
      exact Pattern.wholeBy_cons_eq_none ne letters stroke _
    · have stop := (stands name.head).2
      refine Pattern.rewriteFrom_wholeBy_word ne letters name.isWord stop fun e => other ?_
      exact List.mem_singleton.2 (map_toUpper_of_foldLetter name.isNameChar e)
  · intro token w before s spelled mem stands
    have e := List.mem_singleton.1 mem
    have name : IsName w := by
      have table : ∀ r ∈ aliasWords, IsLabel r := by decide
      exact isLabel_map_toUpper.1 (table _ (e ▸ taken))
    obtain ⟨start, stop⟩ := stands name.head
    have same : w.map foldLetter = word := by
      rw [← map_foldLetter_map_toUpper name.isNameChar, e, fold]
    refine ⟨?_, Pattern.rewriteFrom_wholeBy ne letters start stop same⟩
    rcases spelled.1 with sign | connective | identifier
    · have stroke := (signTable_strokes _ sign).2
      obtain ⟨c, w, rfl⟩ := List.exists_cons_of_ne_nil name.ne_nil
      have letter := name.isWord.2 c List.mem_cons_self
      rw [isWordChar_of_stroke c (stroke c List.mem_cons_self)] at letter
      cases letter
    · exact own _ connective e
    · exact absurd (e ▸ taken) (spelled.2.1 _ identifier).2

/-- The next pattern replaces the word of the exclusive disjunction. -/
lemma replaces_xor :
    Replaces (wordAlias "xor".toList '⊕') ["->".toList, "<->".toList, "<=>".toList]
      ["XOR".toList] '⊕' :=
  replaces_word (by decide) (by decide) (by decide) (by decide) (by decide) (by decide)

/-- The next pattern replaces the word of the equivalence. -/
lemma replaces_iff :
    Replaces (wordAlias "iff".toList '↔')
      ["XOR".toList, "->".toList, "<->".toList, "<=>".toList] ["IFF".toList] '↔' :=
  replaces_word (by decide) (by decide) (by decide) (by decide) (by decide) (by decide)

/-- The last pattern replaces the word of the conditional. -/
lemma replaces_implies :
    Replaces (wordAlias "implies".toList '→')
      ["IFF".toList, "XOR".toList, "->".toList, "<->".toList, "<=>".toList] ["IMPLIES".toList]
      '→' :=
  replaces_word (by decide) (by decide) (by decide) (by decide) (by decide) (by decide)

/-! ## The main spelling -/

/-- Behind the last step a token is spelled as a name or by a single sign. -/
lemma SpelledWithout.last {gone : List Text} {token : Token} {w : Text}
    (signs : ∀ entry ∈ signTable, entry.1 ∉ gone →
      entry.1.map Token.ofChar? = [some entry.2])
    (words : ∀ entry ∈ wordTable, entry.1 ∈ gone) (spelled : SpelledWithout gone token w) :
    (∃ c, w = [c] ∧ Token.ofChar? c = some token) ∨
      token = .identifier (w.map Char.toUpper) ∧ IsName w := by
  have left := spelled.2.2
  rcases spelled.cases with ⟨sign, -⟩ | ⟨connective | identifier, name⟩
  · rw [signTable_toUpper _ sign] at left
    exact .inl (List.map_eq_singleton_iff.1 (signs _ sign left))
  · exact absurd (words _ connective) left
  · exact .inr ⟨identifier, name⟩

/-- The spellings that are replaced. -/
def replaced : List Text :=
  ["IMPLIES".toList, "IFF".toList, "XOR".toList, "->".toList, "<->".toList, "<=>".toList]

/-- Tidying a text of names and single signs leaves spaces between them. -/
lemma Written.tidy {ts : List Token} {s : Text} (written : Written (SpelledWithout replaced) ts s) :
    Spells ts (tidy s) := by
  induction written with
  | nil => exact .nil
  | @blank c ts s blank _ ih =>
    rw [Text.tidy, words_cons_blank s blank]
    exact ih
  | @token token w ts s spelled apart written ih =>
    have behind : Spells ts (gap s ++ Text.tidy s) := ih.behind_gap s
    rcases spelled.last (by decide) (by decide) with ⟨c, rfl, e⟩ | ⟨rfl, name⟩
    · rw [List.singleton_append, tidy_cons s (isBlank_of_sign c (mem_signs e))]
      exact .sign e behind
    · rw [tidy_append s name.ne_nil name.isBlank]
      have stop : s.head?.any isNameChar = false := by
        have none := written.head (apart name.head)
        rcases s with _ | ⟨d, s⟩
        · rfl
        · rw [List.head?_cons, Option.any_some, Bool.eq_false_iff]
          intro more
          exact absurd (isWordChar_of_nameChar d (mem_nameChars more)) (by simpa using none)
      obtain ⟨c, rest, rfl⟩ := List.exists_cons_of_ne_nil name.ne_nil
      exact .name name.1 name.2 (head?_gap_tidy isNameChar_space stop) behind

/-- Every step towards the main spelling keeps the tokens that are written. -/
lemma Written.tokenize {ts : List Token} {s : Text} (written : Written (SpelledWithout []) ts s) :
    ∃ lexemes, tokenize s = .ok lexemes ∧ lexemes.map Lexeme.token = ts := by
  have double := replaces_double.rewrite written
  have single := replaces_single.rewrite double
  have exclusive := replaces_xor.rewrite single
  have double' := replaces_iff.rewrite exclusive
  have single' := replaces_implies.rewrite double'
  rw [Symbolic.tokenize]
  exact single'.tidy.lexFrom 0 0

/-- The tokens of a text are those that it spells, unless a name in it is a connective. -/
lemma Spells.tokenize {ts : List Token} {s : Text} (spells : Spells ts s)
    (names : ∀ name, .identifier name ∈ ts → name ∉ aliasWords) :
    ∃ lexemes, tokenize s = .ok lexemes ∧ lexemes.map Lexeme.token = ts := by
  apply Written.tokenize
  induction spells with
  | nil => exact .nil
  | space _ ih => exact .blank isBlank_space (ih names)
  | @sign c token ts s e _ ih =>
    have sign := mem_signTable_of_ofChar? e
    have other : ∀ name, token = .identifier name → IsAtomName name := by
      rintro name rfl
      exact absurd sign (by simp [signTable])
    refine .token (w := [c]) ⟨.inl sign, other, List.not_mem_nil⟩ (fun letter => ?_)
      (ih fun name mem => names name (List.mem_cons_of_mem _ mem))
    rw [List.head?_cons, Option.any_some, isLetter_of_sign c (mem_signs e)] at letter
    cases letter
  | @name c rest ts s letter all stop _ ih =>
    have label : IsLabel ((c :: rest).map Char.toUpper) := isLabel_map_toUpper.2 ⟨letter, all⟩
    have atom : ∀ name, Token.identifier ((c :: rest).map Char.toUpper) = .identifier name →
        IsAtomName name := by
      rintro name e
      cases e
      exact ⟨label, names _ List.mem_cons_self⟩
    refine .token ⟨.inr (.inr rfl), atom, List.not_mem_nil⟩ (fun _ => ?_)
      (ih fun name mem => names name (List.mem_cons_of_mem _ mem))
    rcases s with _ | ⟨d, s⟩
    · rfl
    · rw [List.head?_cons, Option.any_some, Bool.eq_false_iff]
      intro more
      exact absurd (isNameChar_of_isLetter more) (by simpa using stop)

/-- The tokens of a text are those that are written in it, in whatever spellings: names in any case,
connectives as signs, arrows or words in any case, and blanks wherever they part no word, if the
names are those of atoms. -/
theorem tokenize_written {ts : List Token} {s : Text} (written : Written IsSpelling ts s)
    (names : ∀ name, .identifier name ∈ ts → IsAtomName name) :
    ∃ lexemes, tokenize s = .ok lexemes ∧ lexemes.map Lexeme.token = ts := by
  apply Written.tokenize
  refine written.mono fun token mem w spelled => ⟨spelled, ?_, List.not_mem_nil⟩
  rintro name rfl
  exact names name mem

/-- An arrow inside of another, a connective as a word and a name that only begins like one. -/
theorem tokenize_written_of_mixed_spellings :
    let ts : List Token := [.identifier "P".toList, .connective .iff, .identifier "Q".toList,
      .connective .imp, .not, .identifier "XOR_2".toList]
    let s : Text := "p<->q Implies\u2003~Xor_2".toList
    Written IsSpelling ts s ∧ (∀ name, .identifier name ∈ ts → IsAtomName name) ∧
      ∃ lexemes, tokenize s = .ok lexemes ∧ lexemes.map Lexeme.token = ts := by
  intro ts s
  have written : Written IsSpelling ts s :=
    .token (w := "p".toList) (by decide) (by decide) <|
    .token (w := "<->".toList) (by decide) (by decide) <|
    .token (w := "q".toList) (by decide) (by decide) <|
    .blank (by decide) <|
    .token (w := "Implies".toList) (by decide) (by decide) <|
    .blank (by decide) <|
    .token (w := "~".toList) (by decide) (by decide) <|
    .token (w := "Xor_2".toList) (by decide) (by decide) .nil
  have names : ∀ name, .identifier name ∈ ts → IsAtomName name := by
    intro name mem
    simp only [ts, List.mem_cons, reduceCtorEq, Token.identifier.injEq, List.not_mem_nil, false_or,
      or_false] at mem
    rcases mem with rfl | rfl | rfl <;> decide
  exact ⟨written, names, tokenize_written written names⟩

end Sentential.Symbolic

import Mathlib.Data.List.Basic
import Mathlib.Data.List.TakeWhile
import Mathlib.Tactic.Lemma
import Sentential.Proofs.Symbolic.Label
import Sentential.Proofs.Text.Rewrite
import Sentential.Proofs.Text.Tidy
import Sentential.Symbolic.Lexer

/-!
# Texts that spell tokens

`Spells ts s` tells that the text `s` spells the tokens `ts` in signs and names, with any number of
spaces between them. Such texts are put together out of smaller ones (`Spells.append`), their words
are the names (`Spells.wordRuns`), tidying keeps what they spell (`Spells.gap_tidy`), and they are
the texts that are cut into tokens (`Spells.lexFrom`, `spells_of_lexFrom`).
-/

namespace Sentential.Symbolic

open Text

/-- Texts that spell tokens. A name takes all the name characters that follow each other. -/
inductive Spells : List Token → Text → Prop where
  | nil : Spells [] []
  | space {ts s} :
    Spells ts s →
    Spells ts (' ' :: s)
  | sign {c token ts s} :
    Token.ofChar? c = some token →
    Spells ts s →
    Spells (token :: ts) (c :: s)
  | name {c rest ts s} :
    isLetter c = true →
    (∀ d ∈ rest, isNameChar d = true) →
    s.head?.any isNameChar = false →
    Spells ts s →
    Spells (.identifier ((c :: rest).map Char.toUpper) :: ts) (c :: rest ++ s)

/-- A space is no name character. -/
lemma isNameChar_space : isNameChar ' ' = false := by decide

/-- A space is no word character. -/
lemma isWordChar_space : isWordChar ' ' = false := by decide

/-- Spaces in front do not count. -/
lemma Spells.spaces {ts : List Token} {s : Text} (spells : Spells ts s) (k : Nat) :
    Spells ts (List.replicate k ' ' ++ s) := by
  induction k with
  | zero => exact spells
  | succ k ih => exact .space ih

/-- A label spells its identifier. -/
lemma spells_label {name : Text} (label : IsLabel name) : Spells [.identifier name] name := by
  cases name with
  | nil => cases label
  | cons c rest =>
    have all : ∀ d ∈ rest, isNameChar d = true :=
      fun d mem => isNameChar_of_nameChar d (List.mem_append_left _ (label.2 d mem))
    have spells := Spells.name (isLetter_of_capital c label.1) all rfl .nil
    rwa [label.map_toUpper, List.append_nil] at spells

/-- Two texts side by side spell what they spell on their own, unless a name reaches across. -/
lemma Spells.append {ts us : List Token} {s t : Text} (hs : Spells ts s) (ht : Spells us t)
    (parted : Parted isNameChar s t) : Spells (ts ++ us) (s ++ t) := by
  induction hs with
  | nil => exact ht
  | @space ts s hs ih =>
    apply Spells.space
    apply ih
    rcases s with _ | ⟨d, s⟩
    · exact .inl rfl
    · simpa [Parted, List.getLast?_cons_cons] using parted
  | @sign c token ts s e hs ih =>
    apply Spells.sign e
    apply ih
    rcases s with _ | ⟨d, s⟩
    · exact .inl rfl
    · simpa [Parted, List.getLast?_cons_cons] using parted
  | @name c rest ts s letter all stop hs ih =>
    rw [List.append_assoc]
    rcases s with _ | ⟨d, s⟩
    · have written : IsName (c :: rest) := ⟨letter, all⟩
      have last : (c :: rest).getLast?.any isNameChar = true := by
        rw [List.getLast?_eq_some_getLast written.ne_nil]
        exact written.isNameChar _ (List.getLast_mem _)
      refine .name letter all ?_ (ih (.inl rfl))
      rw [List.append_nil, Parted, last] at parted
      simpa using parted
    · refine .name letter all stop (ih ?_)
      rwa [Parted, List.getLast?_append_of_ne_nil _ (List.cons_ne_nil d s)] at parted

/-- Texts between which a sign or a space stands spell what they spell on their own. -/
lemma Spells.append_of_head {ts us : List Token} {s t : Text} (hs : Spells ts s)
    (ht : Spells us t) (stop : t.head?.any isNameChar = false) : Spells (ts ++ us) (s ++ t) :=
  hs.append ht (.inr stop)

/-! ## The characters and words of a spelling -/

/-- What spells tokens has spaces, signs and name characters. -/
lemma Spells.mem {ts : List Token} {s : Text} (spells : Spells ts s) {c : Char} (mem : c ∈ s) :
    c = ' ' ∨ c ∈ signs ∨ c ∈ nameChars := by
  induction spells with
  | nil => cases mem
  | space _ ih =>
    rcases List.mem_cons.1 mem with rfl | mem
    · exact .inl rfl
    · exact ih mem
  | sign e _ ih =>
    rcases List.mem_cons.1 mem with rfl | mem
    · exact .inr (.inl (mem_signs e))
    · exact ih mem
  | @name c rest ts s letter all _ _ ih =>
    have written : IsName (c :: rest) := ⟨letter, all⟩
    rcases List.mem_append.1 mem with mem | mem
    · exact .inr (.inr (mem_nameChars (written.isNameChar _ mem)))
    · exact ih mem

/-- A name in front of a spelling is a word of the text. -/
lemma Spells.parted {ts : List Token} {name s : Text} (spells : Spells ts s)
    (stop : s.head?.any isNameChar = false) : Parted isWordChar name s := by
  refine .inr ?_
  rcases s with _ | ⟨d, s⟩
  · rfl
  · rcases spells.mem List.mem_cons_self with rfl | sign | more
    · exact isWordChar_space
    · exact isWordChar_of_sign d sign
    · have other : isNameChar d = false := stop
      rw [isNameChar_of_nameChar d more] at other
      cases other

/-- The names of a spelling are its words. -/
lemma Spells.wordRuns {ts : List Token} {name s : Text} (spells : Spells ts s)
    (mem : .identifier name ∈ ts) :
    ∃ r ∈ wordRuns s, IsName r ∧ name = r.map Char.toUpper := by
  induction spells with
  | nil => cases mem
  | @space ts s _ ih =>
    rw [wordRuns_cons s isWordChar_space]
    exact ih mem
  | @sign c token ts s e _ ih =>
    rw [wordRuns_cons s (isWordChar_of_sign c (mem_signs e))]
    rcases List.mem_cons.1 mem with rfl | mem
    · have table : ∀ c ∈ signs, ∀ token ∈ Token.ofChar? c, token.kind ≠ "IDENTIFIER".toList := by
        decide
      exact absurd rfl (table c (mem_signs e) _ e)
    · exact ih mem
  | @name c rest ts s letter all stop spells ih =>
    have written : IsName (c :: rest) := ⟨letter, all⟩
    rw [wordRuns_append (spells.parted stop), written.isWord.wordRuns]
    rcases List.mem_cons.1 mem with e | mem
    · cases e
      exact ⟨_, List.mem_cons_self, written, rfl⟩
    · obtain ⟨r, mem', name⟩ := ih mem
      exact ⟨r, List.mem_cons_of_mem _ mem', name⟩

/-! ## Tidying -/

/-- The space of a gap changes nothing of what a text spells. -/
lemma Spells.behind_gap {ts : List Token} {t : Text} (spells : Spells ts t) (s : Text) :
    Spells ts (gap s ++ t) := by
  rw [gap]
  split
  · exact .space spells
  · exact spells

/-- Tidying keeps what a text spells, also behind other characters. -/
lemma Spells.gap_tidy {ts : List Token} {s : Text} (spells : Spells ts s) :
    Spells ts (tidy s) ∧ Spells ts (gap s ++ tidy s) := by
  suffices h : Spells ts (tidy s) from ⟨h, h.behind_gap s⟩
  induction spells with
  | nil => exact .nil
  | @space ts s _ ih =>
    rw [Text.tidy, words_cons_blank s isBlank_space]
    exact ih
  | @sign c token ts s e _ ih =>
    rw [tidy_cons s (isBlank_of_sign c (mem_signs e))]
    exact .sign e (ih.behind_gap s)
  | @name c rest ts s letter all stop _ ih =>
    have written : IsName (c :: rest) := ⟨letter, all⟩
    rw [tidy_append s written.ne_nil written.isBlank]
    exact .name letter all (head?_gap_tidy isNameChar_space stop) (ih.behind_gap s)

/-! ## Reading a spelling -/

/-- No sign is a letter. -/
lemma isLetter_of_sign : ∀ c ∈ signs, isLetter c = false := by
  decide

/-- The tokens of a text are those that it spells. -/
lemma Spells.lexFrom {ts : List Token} {s : Text} (spells : Spells ts s) (byte offset : Nat) :
    ∃ lexemes, lexFrom byte offset s = .ok lexemes ∧ lexemes.map Lexeme.token = ts := by
  induction spells generalizing byte offset with
  | nil => exact ⟨[], by rw [Symbolic.lexFrom], rfl⟩
  | space _ ih =>
    rw [Symbolic.lexFrom, if_pos rfl]
    exact ih _ _
  | @sign c token ts s e _ ih =>
    have mem := mem_signs e
    have ne : c ≠ ' ' := by
      rintro rfl
      exact absurd mem (by decide)
    obtain ⟨lexemes, out, same⟩ := ih (byte + c.utf8Size) (offset + 1)
    rw [Symbolic.lexFrom, if_neg ne, if_neg (by rw [isLetter_of_sign c mem]; decide)]
    simp only [e, out, pushLexeme]
    exact ⟨_, rfl, by rw [List.map_cons, same]⟩
  | @name c rest ts s letter all stop _ ih =>
    have ne : c ≠ ' ' := by
      rintro rfl
      exact absurd letter (by decide)
    have front : (rest ++ s).takeWhile isNameChar = rest := by
      rw [List.takeWhile_append_of_pos all, takeWhile_of_head? stop, List.append_nil]
    have back : (rest ++ s).dropWhile isNameChar = s := by
      rw [List.dropWhile_append_of_pos all, dropWhile_of_head? stop]
    rw [List.cons_append, Symbolic.lexFrom, if_neg ne, if_pos letter]
    simp only [front, back]
    obtain ⟨lexemes, out, same⟩ :=
      ih (byte + Text.byteLength (c :: rest)) (offset + (c :: rest).length)
    rw [out]
    exact ⟨_, rfl, by rw [List.map_cons, same]⟩

/-- A text spells no two lists of tokens. -/
lemma Spells.unique {ts us : List Token} {s : Text} (first : Spells ts s) (second : Spells us s) :
    ts = us := by
  obtain ⟨lexemes, out, rfl⟩ := first.lexFrom 0 0
  obtain ⟨lexemes', out', rfl⟩ := second.lexFrom 0 0
  rw [out] at out'
  cases out'
  rfl

/-- The tokens behind a piece are handed on. -/
lemma pushLexeme_eq_ok {lexeme : Lexeme} {more : Except ReadError (List Lexeme)}
    {all : List Lexeme} (out : pushLexeme lexeme more = .ok all) :
    ∃ lexemes, more = .ok lexemes ∧ all = lexeme :: lexemes := by
  cases more with
  | error cause => cases out
  | ok lexemes => exact ⟨lexemes, rfl, (Except.ok.inj out).symm⟩

/-- So is an error. -/
lemma pushLexeme_eq_error {lexeme : Lexeme} {more : Except ReadError (List Lexeme)}
    {cause : ReadError} (out : pushLexeme lexeme more = .error cause) : more = .error cause := by
  cases more with
  | error cause => exact out
  | ok lexemes => cases out

/-- A text that is cut into tokens spells them. -/
lemma spells_of_lexFrom {byte offset : Nat} {s : Text} {lexemes : List Lexeme}
    (out : Symbolic.lexFrom byte offset s = .ok lexemes) :
    Spells (lexemes.map Lexeme.token) s := by
  induction byte, offset, s using lexFrom.induct generalizing lexemes with
  | case1 byte offset =>
    rw [Symbolic.lexFrom] at out
    cases out
    exact .nil
  | case2 byte offset rest ih =>
    rw [Symbolic.lexFrom, if_pos rfl] at out
    exact .space (ih out)
  | case3 byte offset c rest ne letter _ =>
    rename_i ih
    rw [Symbolic.lexFrom, if_neg ne, if_pos letter] at out
    obtain ⟨more, out', rfl⟩ := pushLexeme_eq_ok out
    have all : ∀ d ∈ rest.takeWhile isNameChar, isNameChar d = true :=
      fun d mem => List.mem_takeWhile_imp mem
    have spells := Spells.name letter all (head?_any_dropWhile rest) (ih out')
    rwa [List.cons_append, List.takeWhile_append_dropWhile] at spells
  | case4 byte offset c rest ne other token e ih =>
    rw [Symbolic.lexFrom, if_neg ne, if_neg other, e] at out
    obtain ⟨more, out', rfl⟩ := pushLexeme_eq_ok out
    exact .sign e (ih out')
  | case5 byte offset c rest ne other e =>
    rw [Symbolic.lexFrom, if_neg ne, if_neg other, e] at out
    cases out

end Sentential.Symbolic

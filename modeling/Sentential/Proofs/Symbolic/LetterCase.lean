import Mathlib.Data.List.Basic
import Mathlib.Tactic.Lemma
import Sentential.Proofs.Symbolic.Label
import Sentential.Proofs.Text.Literal
import Sentential.Symbolic.Parser

/-!
# The case of letters

Writing the letters of a text as capitals commutes with every step on the way to its tokens. The
spellings that are replaced are signs without letters or words that are compared without their case,
so each pattern takes the same in the text in capitals and writes the same sign
(`Pattern.Ignores.rewrite_map`), and blanks are no letters (`tidy_map`). The main spelling commutes
with every map of characters that goes unseen in this way (`IsUnseen.mainSpelling_map`). A name
counts in capitals anyway (`lexFrom_map_toUpper`), so texts that differ only in the case of their
letters have the same tokens at the same places, or the same error, and read alike
(`read_eq_of_map_toUpper`).
-/

namespace Sentential

namespace Text

/-! ## Maps of characters -/

section
variable {f : Char → Char}

/-- The runs of a text are mapped with it if the map keeps what is in a run. -/
lemma runs_map {p : Char → Bool} (same : ∀ c, p (f c) = p c) (s : Text) :
    runs p (s.map f) = (runs p s).map (List.map f) := by
  induction s with
  | nil => rfl
  | cons c s ih =>
    have head : (s.map f).head?.any p = s.head?.any p := by
      cases s with
      | nil => rfl
      | cons d s => exact same d
    rw [List.map_cons, runs, runs, same, head, ih]
    cases p c with
    | false => rfl
    | true =>
      cases s.head?.any p with
      | false => rfl
      | true => cases runs p s <;> rfl

/-- A map that keeps the space and takes nothing else for a blank keeps the blanks of a tidy
text. -/
lemma tidy_map (blank : ∀ c, isBlank (f c) = isBlank c) (space : f ' ' = ' ') (s : Text) :
    tidy (s.map f) = (tidy s).map f := by
  have joined : ∀ ws : List Text, unwords (ws.map (List.map f)) = (unwords ws).map f := by
    intro ws
    induction ws with
    | nil => rfl
    | cons w ws ih =>
      by_cases none : ws = []
      · subst none
        simp [unwords, List.intercalate]
      · rw [List.map_cons, unwords_cons _ (by simpa using none), unwords_cons w none, ih,
          List.map_append, List.map_cons, space]
  have found : words (s.map f) = (words s).map (List.map f) :=
    runs_map (fun c => by rw [blank]) s
  rw [tidy, found, joined, tidy]

namespace Pattern

variable {p q : Pattern} {phrase new : Text} {g : Char}

/-- Whether a pattern takes and writes the same in a text and in its image under a map. -/
def Ignores (p : Pattern) (f : Char → Char) : Prop :=
  ∀ before s, p (before.map f) (s.map f) = p before s

/-- The image of a text is rewritten like the text, if the map keeps what is written. -/
lemma Ignores.rewriteFrom_map (ignores : p.Ignores f) (writes : p.Writes g) (fixed : f g = g)
    (skip : Nat) (before : Option Char) (s : Text) :
    rewriteFrom p skip (before.map f) (s.map f) = (rewriteFrom p skip before s).map f := by
  induction s generalizing skip before with
  | nil => rw [List.map_nil, rewriteFrom_nil, rewriteFrom_nil, List.map_nil]
  | cons c s ih =>
    cases skip with
    | succ skip => exact ih skip (some c)
    | zero =>
      have same := ignores before (c :: s)
      rw [List.map_cons] at same ⊢
      cases found : p before (c :: s) with
      | none =>
        rw [found] at same
        rw [rewriteFrom_miss same, rewriteFrom_miss found, List.map_cons]
        exact congrArg _ (ih 0 (some c))
      | some hit =>
        rw [found] at same
        rw [writes.rewriteFrom_hit same, writes.rewriteFrom_hit found, List.map_cons, fixed]
        exact congrArg _ (ih hit.more (some c))

/-- A text and its image are rewritten alike. -/
lemma Ignores.rewrite_map (ignores : p.Ignores f) (writes : p.Writes g) (fixed : f g = g)
    (s : Text) : p.rewrite (s.map f) = (p.rewrite s).map f :=
  ignores.rewriteFrom_map writes fixed 0 none s

/-- Two patterns ignore a map together if each does. -/
lemma Ignores.or (hp : p.Ignores f) (hq : q.Ignores f) : (p.or q).Ignores f := by
  intro before s
  rw [Pattern.or, hp, hq, Pattern.or]

/-- A phrase none of whose characters is written for another one is found where it was. -/
lemma ignores_literal (own : ∀ d ∈ phrase, ∀ c, f c = d ↔ c = d) :
    (literal phrase new).Ignores f := by
  intro before s
  have same : phrase.isPrefixOf (s.map f) = phrase.isPrefixOf s := by
    induction phrase generalizing s with
    | nil => rfl
    | cons d phrase ih =>
      cases s with
      | nil => rfl
      | cons c s =>
        have first : (d == f c) = (d == c) := by
          rw [Bool.eq_iff_iff, beq_iff_eq, beq_iff_eq, eq_comm, own d List.mem_cons_self, eq_comm]
        rw [List.map_cons, List.isPrefixOf_cons_cons, List.isPrefixOf_cons_cons, first,
          ih fun d mem => own d (List.mem_cons_of_mem _ mem)]
  rw [literal, literal, same]

/-- A word is found where it was if the map keeps words and the letters are compared without what it
changes. -/
lemma ignores_wholeBy {fold : Char → Char} (word : ∀ c, isWordChar (f c) = isWordChar c)
    (folded : ∀ c, fold (f c) = fold c) : (wholeBy fold phrase new).Ignores f := by
  intro before s
  have edge : ∀ a b : Option Char, boundary (a.map f) (b.map f) = boundary a b := by
    intro a b
    cases a <;> cases b <;> simp only [boundary, Option.map, Option.any, word]
  have letters : (((s.take phrase.length).map f).map fold) = (s.take phrase.length).map fold := by
    rw [List.map_map]
    exact List.map_congr_left fun c _ => folded c
  simp only [wholeBy, List.head?_map, ← List.map_take, ← List.map_drop, List.getLast?_map, edge,
    letters]

end Pattern

end

end Text

namespace Symbolic

open Text

/-! ## Capitals -/

/-- What is the same for every small letter and its capital does not see the case of letters. -/
lemma apply_toUpper {α : Type} {F : Char → α} (table : ∀ c ∈ smallLetters, F c.toUpper = F c)
    (c : Char) : F c.toUpper = F c := by
  rcases toUpper_eq c with small | same
  · exact table c small
  · rw [same]

/-- A character is a name character whatever its case is. -/
lemma isNameChar_toUpper (c : Char) : isNameChar c.toUpper = isNameChar c :=
  apply_toUpper (by decide) c

/-- What is in capitals stays as it is. -/
lemma toUpper_toUpper (c : Char) : c.toUpper.toUpper = c.toUpper :=
  apply_toUpper (by decide) c

/-- A text is as long in capitals. -/
lemma byteLength_map_toUpper (s : Text) :
    Text.byteLength (s.map Char.toUpper) = Text.byteLength s := by
  induction s with
  | nil => rfl
  | cons c s ih =>
    have size : c.toUpper.utf8Size = c.utf8Size := apply_toUpper (F := Char.utf8Size) (by decide) c
    have same : c.toUpper.utf8Size + Text.byteLength (s.map Char.toUpper)
        = c.utf8Size + Text.byteLength s := by rw [size, ih]
    exact same

/-! ## The main spelling -/

/-- Whether a map of characters goes unseen on the way to the main spelling: it keeps what is a word
character, a blank, an arrow or written for one, and the letters without their case. -/
structure IsUnseen (f : Char → Char) : Prop where
  word : ∀ c, isWordChar (f c) = isWordChar c
  folded : ∀ c, foldLetter (f c) = foldLetter c
  arrow : ∀ d ∈ "<->=".toList, ∀ c, f c = d ↔ c = d
  written : ∀ g ∈ "⊕→↔".toList, f g = g
  blank : ∀ c, isBlank (f c) = isBlank c
  space : f ' ' = ' '

section
variable {f : Char → Char}

/-- The other spellings of connectives are replaced alike in a text and in its image. -/
lemma IsUnseen.rewrite_map (unseen : IsUnseen f) {p : Pattern} (mem : p ∈ aliases) (s : Text) :
    p.rewrite (s.map f) = (p.rewrite s).map f := by
  have arrow : ∀ phrase new : Text, (∀ d ∈ phrase, d ∈ "<->=".toList) →
      (Pattern.literal phrase new).Ignores f :=
    fun _ _ all => Pattern.ignores_literal fun d mem => unseen.arrow d (all d mem)
  have fixed := unseen.written
  simp only [aliases, List.mem_cons, List.not_mem_nil, or_false] at mem
  rcases mem with rfl | rfl | rfl | rfl | rfl
  · exact ((arrow _ _ (by decide)).or (arrow _ _ (by decide))).rewrite_map
      ((Pattern.writes_literal _ _).or (Pattern.writes_literal _ _)) (fixed _ (by decide)) s
  · exact (arrow _ _ (by decide)).rewrite_map (Pattern.writes_literal _ _) (fixed _ (by decide)) s
  all_goals
    exact (Pattern.ignores_wholeBy unseen.word unseen.folded).rewrite_map
      (Pattern.writes_wholeBy _ _ _) (fixed _ (by decide)) s

/-- The main spelling of the image of a text is the image of its main spelling. -/
lemma IsUnseen.mainSpelling_map (unseen : IsUnseen f) (s : Text) :
    mainSpelling (s.map f) = (mainSpelling s).map f := by
  have steps : ∀ ps : List Pattern, (∀ p ∈ ps, p ∈ aliases) → ∀ s : Text,
      ps.foldl (fun s p => p.rewrite s) (s.map f)
        = (ps.foldl (fun s p => p.rewrite s) s).map f := by
    intro ps mem
    induction ps with
    | nil => exact fun _ => rfl
    | cons p ps ih =>
      intro s
      rw [List.foldl_cons, unseen.rewrite_map (mem p List.mem_cons_self), List.foldl_cons]
      exact ih (fun q memQ => mem q (List.mem_cons_of_mem p memQ)) _
  rw [mainSpelling, steps aliases (fun _ mem => mem), tidy_map unseen.blank unseen.space,
    mainSpelling]

end

set_option maxRecDepth 4000 in
/-- The case of letters goes unseen. -/
lemma isUnseen_toUpper : IsUnseen Char.toUpper where
  word := apply_toUpper (by decide)
  folded := apply_toUpper (by decide)
  arrow := by
    -- no capital stands in an arrow
    have capitals : ∀ d ∈ "<->=".toList, d.toUpper = d ∧ ∀ c ∈ smallLetters, c.toUpper ≠ d := by
      decide
    intro d mem c
    obtain ⟨fixed, other⟩ := capitals d mem
    constructor
    · rcases toUpper_eq c with small | same
      · exact fun e => absurd e (other c small)
      · exact fun e => same.symm.trans e
    · rintro rfl
      exact fixed
  written := by decide
  blank := apply_toUpper (by decide)
  space := rfl

/-- The main spelling of a text in capitals is its main spelling in capitals. -/
lemma mainSpelling_map_toUpper (s : Text) :
    mainSpelling (s.map Char.toUpper) = (mainSpelling s).map Char.toUpper :=
  isUnseen_toUpper.mainSpelling_map s

/-! ## Tokens -/

/-- A text in capitals has the same tokens at the same places, or the same error. -/
lemma lexFrom_map_toUpper (byte offset : Nat) (s : Text) :
    lexFrom byte offset (s.map Char.toUpper) = lexFrom byte offset s := by
  have letter : ∀ c, isLetter c.toUpper = isLetter c := apply_toUpper (by decide)
  have name : isNameChar ∘ Char.toUpper = isNameChar := funext isNameChar_toUpper
  have space : ∀ c : Char, c ≠ ' ' → c.toUpper ≠ ' ' := by
    intro c other
    rcases toUpper_eq c with small | same
    · have table : ∀ c ∈ smallLetters, c.toUpper ≠ ' ' := by decide
      exact table c small
    · rwa [same]
  have fixed : ∀ c, ¬ isLetter c = true → c.toUpper = c := by
    intro c noLetter
    have table : ∀ c ∈ smallLetters, isLetter c = true := by decide
    exact (toUpper_eq c).resolve_left fun small => noLetter (table c small)
  induction byte, offset, s using lexFrom.induct with
  | case1 => rfl
  | case2 byte offset rest ih =>
    rw [List.map_cons, lexFrom, lexFrom, if_pos rfl, if_pos (by decide), ih]
  | case3 byte offset c rest other isLetter name' ih =>
    have length : ((c :: rest.takeWhile isNameChar).map Char.toUpper).length
        = (c :: rest.takeWhile isNameChar).length := List.length_map _
    have size := byteLength_map_toUpper (c :: rest.takeWhile isNameChar)
    have twice : ((c :: rest.takeWhile isNameChar).map Char.toUpper).map Char.toUpper
        = (c :: rest.takeWhile isNameChar).map Char.toUpper := by
      rw [List.map_map]
      exact List.map_congr_left fun d _ => toUpper_toUpper d
    rw [List.map_cons] at length size twice
    rw [List.map_cons, lexFrom, lexFrom, if_neg other, if_neg (space c other), letter,
      if_pos isLetter, if_pos isLetter]
    simp only [List.takeWhile_map, List.dropWhile_map, name, length, size, twice]
    exact congrArg _ ih
  | case4 byte offset c rest other noLetter token found ih =>
    rw [List.map_cons, fixed c noLetter, lexFrom, lexFrom, if_neg other, if_neg other,
      if_neg noLetter, if_neg noLetter, ih]
  | case5 byte offset c rest other noLetter none =>
    rw [List.map_cons, fixed c noLetter, lexFrom, lexFrom, if_neg other, if_neg other,
      if_neg noLetter, if_neg noLetter, none]

/-- Texts that differ only in the case of their letters have the same tokens at the same places and
read alike, errors and their places included. -/
theorem read_eq_of_map_toUpper {s t : Text} (same : s.map Char.toUpper = t.map Char.toUpper) :
    tokenize s = tokenize t ∧ read s = read t := by
  have capitals : ∀ u : Text, tokenize (u.map Char.toUpper) = tokenize u := by
    intro u
    rw [tokenize, mainSpelling_map_toUpper, lex, lexFrom_map_toUpper, tokenize, lex]
  have tokens : tokenize s = tokenize t := by rw [← capitals s, same, capitals t]
  exact ⟨tokens, by rw [read, tokens, read]⟩

/-- Connectives as words in any case, one of them with a long s, and a name too many at the end. -/
theorem read_eq_of_map_toUpper_of_trailing_name :
    let s : Text := "p Implieſ (q xOr v) iff r_2 x".toList
    let t : Text := "P impLIEſ (Q XoR V) IFf R_2 x".toList
    s.map Char.toUpper = t.map Char.toUpper ∧ read s = .error (.trailingTokens 9) ∧
      tokenize s = tokenize t ∧ read s = read t := by
  intro s t
  have same : s.map Char.toUpper = t.map Char.toUpper := by decide
  exact ⟨same, by decide +kernel, read_eq_of_map_toUpper same⟩

end Symbolic

end Sentential

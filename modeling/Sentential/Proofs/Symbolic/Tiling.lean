import Mathlib.Tactic.Lemma
import Sentential.Proofs.Symbolic.Writing

/-!
# Tokens tile a text

The bytes of the tokens into which a text is cut do not overlap, those of a token spell it, and all
others are spaces (`Tiles`). Where a text is not cut, the error tells the first character with which
it cannot go on (`Stuck`). Both are shown along the cut, from what follows a token to the whole
(`tiles_of_lexFrom`, `stuck_of_lexFrom`).
-/

namespace Sentential

namespace Text

/-- The lengths of two texts in a row add up. -/
lemma byteLength_append (s t : Text) : byteLength (s ++ t) = byteLength s + byteLength t := by
  induction s with
  | nil => exact (Nat.zero_add _).symm
  | cons c s ih =>
    rw [List.cons_append, byteLength, List.foldr_cons, ← byteLength, ih, ← Nat.add_assoc]
    rfl

/-- A text that is not empty has a length. -/
lemma byteLength_pos {s : Text} (ne : s ≠ []) : 0 < byteLength s := by
  obtain ⟨c, s, rfl⟩ := List.exists_cons_of_ne_nil ne
  exact Nat.add_pos_left c.utf8Size_pos _

end Text

namespace Symbolic

open Text

/-- Whether a text spells a token without an alias: one sign, or a name in whatever case. -/
def IsMainSpelling (token : Token) (w : Text) : Prop :=
  ((w, token) ∈ signTable ∧ w.length = 1) ∨ (IsName w ∧ token = .identifier (w.map Char.toUpper))

/-- Whether a lexeme covers a stretch of a text, which begins at the given byte, and the stretch
spells its token. An identifier goes on as far as it can. -/
def Lexeme.IsSpelledIn (x : Lexeme) (byte : Nat) (s : Text) : Prop :=
  ∃ u w v, s = u ++ (w ++ v) ∧ x.start = byte + byteLength u ∧
    x.stop = x.start + byteLength w ∧ IsMainSpelling x.token w ∧
    ∀ name, x.token = .identifier name → v.head?.any isNameChar = false

/-- Whether lexemes tile a text, which begins at the given byte: they follow each other, and every
character that none of them covers is a space. -/
structure Tiles (byte : Nat) (lexemes : List Lexeme) (s : Text) : Prop where
  spelled : ∀ x ∈ lexemes, x.IsSpelledIn byte s
  nonempty : ∀ x ∈ lexemes, x.start < x.stop
  ordered : lexemes.Pairwise fun x y => x.stop ≤ y.start
  spaces : ∀ u c v, s = u ++ c :: v →
    (∀ x ∈ lexemes, byte + byteLength u < x.start ∨ x.stop ≤ byte + byteLength u) → c = ' '

section
variable {byte offset : Nat} {lexemes : List Lexeme} {token : Token} {w s : Text}

/-- What spells a token is not empty. -/
lemma IsMainSpelling.ne_nil (h : IsMainSpelling token w) : w ≠ [] := by
  rcases h with ⟨-, one⟩ | ⟨name, -⟩
  · exact List.ne_nil_of_length_pos (one ▸ Nat.one_pos)
  · exact name.ne_nil

/-- Only names spell identifiers. -/
lemma IsMainSpelling.isName {name : Text} (h : IsMainSpelling (.identifier name) w) : IsName w := by
  have table : ∀ entry ∈ signTable, entry.2.kind ≠ "IDENTIFIER".toList := by decide
  rcases h with ⟨sign, -⟩ | ⟨written, -⟩
  · exact absurd rfl (table _ sign)
  · exact written

/-- A sign spells its token. -/
lemma isMainSpelling_sign {c : Char} (spelled : Token.ofChar? c = some token) :
    IsMainSpelling token [c] :=
  .inl ⟨mem_signTable_of_ofChar? spelled, rfl⟩

/-- A lexeme stays where it is when a text is put in front. -/
lemma Lexeme.IsSpelledIn.append {x : Lexeme} (h : x.IsSpelledIn (byte + byteLength w) s) :
    x.IsSpelledIn byte (w ++ s) := by
  obtain ⟨u, w', v, rfl, start, stop, spelled, far⟩ := h
  refine ⟨w ++ u, w', v, (List.append_assoc w u _).symm, ?_, stop, spelled, far⟩
  rw [start, byteLength_append, Nat.add_assoc]

/-- No lexemes tile the empty text. -/
lemma tiles_nil (byte : Nat) : Tiles byte [] [] := by
  refine ⟨nofun, nofun, .nil, fun u c v e => ?_⟩
  cases u <;> cases e

/-- A space can stand before the first lexeme. -/
lemma Tiles.space (h : Tiles (byte + 1) lexemes s) : Tiles byte lexemes (' ' :: s) := by
  refine ⟨fun x mem => (h.spelled x mem).append (w := [' ']), h.nonempty, h.ordered, ?_⟩
  rintro (_ | ⟨d, u⟩) c v e outside
  · exact (List.cons.inj e).1.symm
  · obtain ⟨rfl, e'⟩ := List.cons.inj e
    have place : byte + byteLength (' ' :: u) = byte + 1 + byteLength u :=
      (Nat.add_assoc byte 1 _).symm
    rw [place] at outside
    exact h.spaces u c v e' outside

/-- A token in front of a text that is tiled. -/
lemma Tiles.cons (spelled : IsMainSpelling token w)
    (far : ∀ name, token = .identifier name → s.head?.any isNameChar = false)
    (h : Tiles (byte + byteLength w) lexemes s) :
    Tiles byte (⟨token, byte, byte + byteLength w⟩ :: lexemes) (w ++ s) := by
  have pos := byteLength_pos spelled.ne_nil
  refine ⟨?_, ?_, ?_, fun u c v e outside => ?_⟩
  · refine List.forall_mem_cons.2 ⟨?_, fun x mem => (h.spelled x mem).append⟩
    exact ⟨[], w, s, rfl, rfl, rfl, spelled, far⟩
  · exact List.forall_mem_cons.2 ⟨by simp only; omega, h.nonempty⟩
  · refine List.pairwise_cons.2 ⟨fun x mem => ?_, h.ordered⟩
    obtain ⟨u, -, -, -, start, -⟩ := h.spelled x mem
    simp only [start]
    omega
  · obtain ⟨here, others⟩ := List.forall_mem_cons.1 outside
    simp only at here
    -- the character stands behind the token, for the others of the text are covered by it
    rcases List.append_eq_append_iff.1 e with ⟨a, rfl, e'⟩ | ⟨b, rfl, e'⟩
    · apply h.spaces a c v e'
      simpa only [byteLength_append, Nat.add_assoc] using others
    · rcases b with _ | ⟨d, b⟩
      · apply h.spaces [] c v e'.symm
        simpa [byteLength] using others
      · have more := byteLength_pos (List.cons_ne_nil d b)
        rw [byteLength_append] at here
        omega

/-- The tokens of a text tile it. -/
lemma tiles_of_lexFrom (out : lexFrom byte offset s = .ok lexemes) : Tiles byte lexemes s := by
  induction byte, offset, s using lexFrom.induct generalizing lexemes with
  | case1 byte offset =>
    rw [lexFrom] at out
    cases out
    exact tiles_nil byte
  | case2 byte offset rest ih =>
    rw [lexFrom, if_pos rfl] at out
    exact (ih out).space
  | case3 byte offset c rest ne letter _ =>
    rename_i ih
    rw [lexFrom, if_neg ne, if_pos letter] at out
    obtain ⟨more, out', rfl⟩ := pushLexeme_eq_ok out
    have written : IsName (c :: rest.takeWhile isNameChar) :=
      ⟨letter, fun d mem => List.mem_takeWhile_imp mem⟩
    have whole := (ih out').cons (.inr ⟨written, rfl⟩) fun _ _ => head?_any_dropWhile rest
    rwa [List.cons_append, List.takeWhile_append_dropWhile] at whole
  | case4 byte offset c rest ne other token e ih =>
    rw [lexFrom, if_neg ne, if_neg other, e] at out
    obtain ⟨more, out', rfl⟩ := pushLexeme_eq_ok out
    have spelled := isMainSpelling_sign e
    refine (ih out').cons spelled fun name same => ?_
    subst same
    exact absurd spelled.isName.1 other
  | case5 byte offset c rest ne other e =>
    rw [lexFrom, if_neg ne, if_neg other, e] at out
    cases out

/-! ## Where a text cannot go on -/

/-- Whether an error tells the first character with which a text cannot go on, where the number is
that of the characters before the text. No token begins with the character, and it continues no
name. -/
def Stuck (offset : Nat) (s : Text) (cause : ReadError) : Prop :=
  ∃ before symbol after, s = before ++ symbol :: after ∧
    cause = .invalidSymbol symbol (offset + before.length) ∧ (∃ ts, Spells ts before) ∧
    symbol ≠ ' ' ∧ symbol ∉ signs ∧ isLetter symbol = false ∧
    (isNameChar symbol = true → before.getLast?.any isNameChar = false)

variable {cause : ReadError}

/-- A text is stuck where the rest of it is behind a stretch that spells tokens. -/
lemma Stuck.append (h : Stuck (offset + w.length) s cause)
    (spells : ∀ ts t, t <+: s → Spells ts t → ∃ ts', Spells ts' (w ++ t))
    (far : w.getLast?.any isNameChar = true → s.head?.any isNameChar = false) :
    Stuck offset (w ++ s) cause := by
  obtain ⟨before, symbol, after, rfl, rfl, ⟨ts, front⟩, space, sign, letter, last⟩ := h
  refine ⟨w ++ before, symbol, after, (List.append_assoc w before _).symm, ?_,
    spells ts before (List.prefix_append _ _) front, space, sign, letter, fun name => ?_⟩
  · rw [List.length_append, Nat.add_assoc]
  · by_cases none : before = []
    · subst none
      rw [List.append_nil, Bool.eq_false_iff]
      intro more
      have stop : isNameChar symbol = false := far more
      rw [name] at stop
      cases stop
    · rw [List.getLast?_append_of_ne_nil w none]
      exact last name

/-- Where a text is not cut into tokens it is stuck. -/
lemma stuck_of_lexFrom (out : lexFrom byte offset s = .error cause) : Stuck offset s cause := by
  induction byte, offset, s using lexFrom.induct with
  | case1 byte offset =>
    rw [lexFrom] at out
    cases out
  | case2 byte offset rest ih =>
    rw [lexFrom, if_pos rfl] at out
    refine (ih out).append (w := [' ']) ?_ fun name => ?_
    · exact fun ts t _ spells => ⟨ts, .space spells⟩
    · exact absurd name (by decide)
  | case3 byte offset c rest ne letter name ih =>
    rw [lexFrom, if_neg ne, if_pos letter] at out
    have all : ∀ d ∈ rest.takeWhile isNameChar, isNameChar d = true :=
      fun d mem => List.mem_takeWhile_imp mem
    have stop := head?_any_dropWhile (p := isNameChar) rest
    have h := (ih (pushLexeme_eq_error out)).append ?_ fun _ => stop
    · rwa [List.cons_append, List.takeWhile_append_dropWhile] at h
    · rintro ts t ⟨u, cut⟩ spells
      refine ⟨_, .name letter all ?_ spells⟩
      rcases t with _ | ⟨d, t⟩
      · rfl
      · rw [← cut] at stop
        exact stop
  | case4 byte offset c rest ne other token e ih =>
    rw [lexFrom, if_neg ne, if_neg other, e] at out
    refine (ih (pushLexeme_eq_error out)).append (w := [c]) ?_ fun name => ?_
    · exact fun ts t _ spells => ⟨token :: ts, .sign e spells⟩
    · have table : ∀ c ∈ signs, isNameChar c = false := by decide
      have sign : isNameChar c = true := name
      rw [table c (mem_signs e)] at sign
      cases sign
  | case5 byte offset c rest ne other e =>
    rw [lexFrom, if_neg ne, if_neg other, e] at out
    cases out
    have table : ∀ c ∈ signs, Token.ofChar? c ≠ none := by decide
    exact ⟨[], c, rest, rfl, rfl, ⟨[], .nil⟩, ne, fun mem => table c mem e,
      Bool.eq_false_iff.2 other, fun _ => rfl⟩

end

/-- The tokens of a text tile it. If it has none, the text before a certain character is cut into
tokens, but no token begins with the character, and no name goes on with it. -/
theorem lex_exact (s : Text) :
    match lex s with
    | .ok lexemes => Tiles 0 lexemes s
    | .error cause =>
      ∃ before symbol after, s = before ++ symbol :: after ∧
        cause = .invalidSymbol symbol before.length ∧ (∃ lexemes, lex before = .ok lexemes) ∧
        symbol ≠ ' ' ∧ symbol ∉ signs ∧ isLetter symbol = false ∧
        (isNameChar symbol = true → before.getLast?.any isNameChar = false) := by
  cases out : lex s with
  | ok lexemes => exact tiles_of_lexFrom out
  | error cause =>
    obtain ⟨before, symbol, after, cut, e, ⟨ts, spells⟩, rest⟩ := stuck_of_lexFrom out
    obtain ⟨lexemes, front, -⟩ := spells.lexFrom 0 0
    rw [Nat.zero_add] at e
    exact ⟨before, symbol, after, cut, e, ⟨lexemes, front⟩, rest⟩

end Symbolic

end Sentential

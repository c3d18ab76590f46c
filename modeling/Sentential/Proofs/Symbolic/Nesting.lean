import Mathlib.Tactic.Lemma
import Sentential.Proofs.Symbolic.Grammar
import Sentential.Proofs.Symbolic.Spelling

/-!
# What is open at once

A parenthesis is open until its partner closes it, a negation until its operand ends: the operand is
a name, a negation with its operand, or a group. Counting what is open at once needs no derivation,
only the tokens in their order (`mostOpen`) or the characters of a text (`openAtOnce`). A derivation
carries the same number (`Derives.mostOpen_eq`), and so does every text that spells its tokens
(`Spells.openAtOnce_eq`).
-/

namespace Sentential.Symbolic

open Text

/-- What can be open at a place. -/
inductive Opening where
  | group
  | negation
deriving DecidableEq, Repr

/-- What is still open when an operand has ended, where the innermost stands first. -/
def closeNegations : List Opening → List Opening
  | .negation :: opened => closeNegations opened
  | opened => opened

namespace Token

/-- What is open behind a token. -/
def openBehind (opened : List Opening) : Token → List Opening
  | .leftParen => .group :: opened
  | .not => .negation :: opened
  | .rightParen => closeNegations (opened.drop 1)
  | _ => closeNegations opened

end Token

/-- The most groups and negations that are open at once from a place on. -/
def mostOpen (opened : List Opening) : List Token → Nat
  | [] => opened.length
  | token :: rest => max opened.length (mostOpen (token.openBehind opened) rest)

/-- What is open behind a character. -/
def openBehindChar (opened : List Opening) (c : Char) : List Opening :=
  if c = ' ' then opened
  else
    match Token.ofChar? c with
    | some token => token.openBehind opened
    | none => closeNegations opened

/-- The most groups and negations that are open at once in a text from a place on. -/
def mostOpenChars (opened : List Opening) : Text → Nat
  | [] => opened.length
  | c :: rest => max opened.length (mostOpenChars (openBehindChar opened c) rest)

/-- The most groups and negations that are open at once in a text. -/
def openAtOnce (s : Text) : Nat :=
  mostOpenChars [] s

/-- No more is open when an operand has ended. -/
lemma closeNegations_length_le (opened : List Opening) :
    (closeNegations opened).length ≤ opened.length := by
  induction opened with
  | nil => exact Nat.le_refl 0
  | cons first opened ih =>
    cases first with
    | group => exact Nat.le_refl _
    | negation => exact Nat.le_succ_of_le ih

/-- When an operand has ended, no negation is left to be closed. -/
lemma closeNegations_twice (opened : List Opening) :
    closeNegations (closeNegations opened) = closeNegations opened := by
  induction opened with
  | nil => rfl
  | cons first opened ih =>
    cases first with
    | group => rfl
    | negation => exact ih

/-- What is open at a place is open at once from there on. -/
lemma length_le_mostOpen (opened : List Opening) (ts : List Token) :
    opened.length ≤ mostOpen opened ts := by
  cases ts with
  | nil => exact Nat.le_refl _
  | cons token ts => exact Nat.le_max_left _ _

/-! ## Derivations -/

/-- Whether tokens open a given number of groups and negations at once wherever they stand, and end
an operand. -/
def Opens (n : Nat) (ts : List Token) (opened : List Opening) : Prop :=
  ∀ rest, mostOpen opened (ts ++ rest)
    = max (opened.length + n) (mostOpen (closeNegations opened) rest)

/-- An identifier opens nothing. -/
lemma opens_identifier (name : Text) (opened : List Opening) :
    Opens 0 [.identifier name] opened :=
  fun _ => rfl

/-- A negation is one more that is open around its operand. -/
lemma opens_not {n : Nat} {ts : List Token} {opened : List Opening}
    (h : Opens n ts (.negation :: opened)) : Opens (n + 1) (.not :: ts) opened := by
  intro rest
  rw [List.cons_append, mostOpen, Token.openBehind, h rest, List.length_cons, closeNegations]
  omega

/-- A group is one more that is open around what it holds. -/
lemma opens_group {n : Nat} {ts : List Token} {opened : List Opening}
    (h : Opens n ts (.group :: opened)) :
    Opens (n + 1) (.leftParen :: ts ++ [.rightParen]) opened := by
  intro rest
  have e : .leftParen :: ts ++ [.rightParen] ++ rest
      = Token.leftParen :: (ts ++ .rightParen :: rest) := by simp
  rw [e, mostOpen, Token.openBehind, h, closeNegations]
  · simp only [mostOpen, Token.openBehind, List.length_cons, List.drop_one, List.tail_cons]
    omega
  · simp

/-- Two operands of a chain are not open at once. -/
lemma opens_chain {m n : Nat} {ts us : List Token} {op : Connective} {opened : List Opening}
    (closed : closeNegations opened = opened) (hl : Opens m ts opened) (hr : Opens n us opened) :
    Opens (max m n) (ts ++ .connective op :: us) opened := by
  intro rest
  have e : ts ++ .connective op :: us ++ rest = ts ++ .connective op :: (us ++ rest) := by simp
  rw [e, hl, closed, mostOpen, Token.openBehind, closed, hr, closed]
  · omega
  all_goals simp

/-- A derivation counts what its tokens open at once. Only an operand can stand behind a
negation. -/
lemma Derives.opens {level : Level} {n : Nat} {ts : List Token} {f : Formula}
    (d : Derives level n ts f) :
    (level = .operand → ∀ opened, Opens n ts opened) ∧
    (∀ opened, closeNegations opened = opened → Opens n ts opened) := by
  -- behind a negation nothing but an operand keeps the count, so the two go through together
  induction d with
  | identifier name =>
    exact ⟨fun _ => opens_identifier name, fun opened _ => opens_identifier name opened⟩
  | not d ih =>
    have opens := fun opened => opens_not (ih.1 rfl (.negation :: opened))
    exact ⟨fun _ => opens, fun opened _ => opens opened⟩
  | group d ih =>
    have opens := fun opened => opens_group (ih.2 (.group :: opened) rfl)
    exact ⟨fun _ => opens, fun opened _ => opens opened⟩
  | @single level n ts f d ih =>
    refine ⟨fun e => ?_, ih.2⟩
    subst e
    exact ih.1 rfl
  | @chain level op m n ts us f g own dl dr ihl ihr =>
    refine ⟨fun e => ?_, fun opened closed => ?_⟩
    · subst e
      cases own
    · exact opens_chain closed (ihl.2 opened closed) (ihr.2 opened closed)

/-- The number of a derivation is read off its tokens. -/
lemma Derives.mostOpen_eq {level : Level} {n : Nat} {ts : List Token} {f : Formula}
    (d : Derives level n ts f) : mostOpen [] ts = n := by
  have e := d.opens.2 [] rfl []
  rw [List.append_nil] at e
  simpa [closeNegations, mostOpen] using e

/-! ## Texts -/

/-- The letters of a name end an operand once. -/
lemma mostOpenChars_name {name : Text} (ne : name ≠ []) (all : ∀ c ∈ name, isNameChar c = true)
    (opened : List Opening) (s : Text) :
    mostOpenChars opened (name ++ s)
      = max opened.length (mostOpenChars (closeNegations opened) s) := by
  have letter : ∀ c ∈ nameChars, ∀ opened, openBehindChar opened c = closeNegations opened := by
    intro c mem opened
    have space : ∀ c ∈ nameChars, c ≠ ' ' := by decide
    have none : ∀ c ∈ nameChars, Token.ofChar? c = none := by decide
    rw [openBehindChar, if_neg (space c mem), none c mem]
  induction name generalizing opened with
  | nil => exact absurd rfl ne
  | cons c name ih =>
    rw [List.cons_append, mostOpenChars, letter c (mem_nameChars (all c List.mem_cons_self))]
    -- the first letter closes the negations, and the others find none
    by_cases more : name = []
    · rw [more, List.nil_append]
    · have fewer := closeNegations_length_le opened
      rw [ih more (fun d mem => all d (List.mem_cons_of_mem c mem)), closeNegations_twice]
      omega

/-- A text opens what the tokens open that it spells. -/
lemma Spells.mostOpenChars {ts : List Token} {s : Text} (spells : Spells ts s)
    (opened : List Opening) : mostOpenChars opened s = mostOpen opened ts := by
  induction spells generalizing opened with
  | nil => rfl
  | @space ts s _ ih =>
    rw [Symbolic.mostOpenChars, openBehindChar, if_pos rfl, ih]
    exact Nat.max_eq_right (length_le_mostOpen opened ts)
  | @sign c token ts s e _ ih =>
    have ne : c ≠ ' ' := by
      rintro rfl
      exact absurd (mem_signs e) (by decide)
    rw [Symbolic.mostOpenChars, openBehindChar, if_neg ne, e, ih, mostOpen]
  | @name c rest ts s letter all stop _ ih =>
    have written : IsName (c :: rest) := ⟨letter, all⟩
    rw [mostOpenChars_name written.ne_nil written.isNameChar, ih]
    rfl

/-- A text that spells a derivation opens what the derivation counts. -/
lemma Spells.openAtOnce_eq {level : Level} {n : Nat} {ts : List Token} {s : Text} {f : Formula}
    (spells : Spells ts s) (d : Derives level n ts f) : openAtOnce s = n := by
  rw [openAtOnce, spells.mostOpenChars, d.mostOpen_eq]

end Sentential.Symbolic

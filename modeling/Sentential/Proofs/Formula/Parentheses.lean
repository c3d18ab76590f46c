import Mathlib.Data.List.Basic
import Mathlib.Tactic.Lemma
import Sentential.Proofs.Formula.RoundTrip
import Sentential.Proofs.Symbolic.Naming
import Sentential.Proofs.Symbolic.Operands

/-!
# Parentheses that are needed

The canonical text of a formula has parentheses directly behind the sign of a negation and around
operands of connectives that bind too loosely. None of the latter can be left out: the text without
the pair is not read as the formula (`read_ne_of_unwrapped`). What it spells still has the leaves
and connectives of the formula, in the same order, but no derivation splits at the connectives of
the formula (`Misses`), and that remains so in every formula around the place (`NeedsPairs`).

A pair is told by its text alone: the text between its parentheses is `Matched`. So the pairs of a
text in parentheses are that pair and those inside (`cut_wrap`), and the pairs of two texts side by
side are those of each (`cut_append`).
-/

namespace Sentential.Formula

open Symbolic

/-! ## Pairs of parentheses -/

/-- Whether the parentheses of a text stand in pairs: all that are opened are closed, and nowhere
are more closed than opened before. -/
structure Matched (s : Text) : Prop where
  closed : s.count '(' = s.count ')'
  opened : ∀ front back, s = front ++ back → front.count ')' ≤ front.count '('

/-- A group has one more parenthesis that opens. -/
lemma count_open_wrap (s : Text) : s.wrap.count '(' = s.count '(' + 1 := by
  rw [Text.wrap, List.count_append, List.count_cons_self]
  rfl

/-- A group has one more parenthesis that closes. -/
lemma count_close_wrap (s : Text) : s.wrap.count ')' = s.count ')' + 1 := by
  rw [Text.wrap, List.count_append, List.count_cons_of_ne (by decide)]
  rfl

section
variable {s t before inner after : Text}

/-- A text without parentheses has no unmatched ones. -/
lemma matched_of_no_paren (opens : '(' ∉ s) (closes : ')' ∉ s) : Matched s where
  closed := by rw [List.count_eq_zero.2 opens, List.count_eq_zero.2 closes]
  opened front back e := by
    have closes : ')' ∉ front := fun mem => closes (e ▸ List.mem_append_left back mem)
    rw [List.count_eq_zero.2 closes]
    exact Nat.zero_le _

/-- Texts with matched parentheses can be put together. -/
lemma Matched.append (hs : Matched s) (ht : Matched t) : Matched (s ++ t) where
  closed := by rw [List.count_append, List.count_append, hs.closed, ht.closed]
  opened front back e := by
    rcases List.append_eq_append_iff.1 e with ⟨u, rfl, e'⟩ | ⟨u, e', -⟩
    · rw [List.count_append, List.count_append, hs.closed]
      exact Nat.add_le_add_left (ht.opened u back e') _
    · exact hs.opened front u e'

/-- A group around matched parentheses has matched ones. -/
lemma Matched.wrap (hs : Matched s) : Matched s.wrap where
  closed := by rw [count_open_wrap, count_close_wrap, hs.closed]
  opened front back e := by
    rcases back.eq_nil_or_concat' with rfl | ⟨back, last, rfl⟩
    · rw [List.append_nil] at e
      rw [← e, count_open_wrap, count_close_wrap, hs.closed]
    · rw [← List.append_assoc] at e
      obtain ⟨e, -⟩ := List.append_inj' e rfl
      rcases front with _ | ⟨c, front⟩
      · exact Nat.le_refl _
      · cases e
        rw [List.count_cons_self, List.count_cons_of_ne (by decide)]
        exact Nat.le_succ_of_le (hs.opened front back rfl)

/-- A text keeps its matched parentheses, whether it is made a group or not. -/
lemma Matched.wrapIf (hs : Matched s) (needed : Bool) : Matched (Text.wrapIf needed s) := by
  cases needed with
  | false => exact hs
  | true => exact hs.wrap

/-- A text that opens nothing holds no group. -/
lemma ne_of_no_paren (opens : '(' ∉ s) : s ≠ before ++ inner.wrap ++ after := by
  rintro rfl
  exact opens (List.mem_append_left _ (List.mem_append_right _ List.mem_cons_self))

/-- A pair of parentheses in two texts side by side stands in one of them. -/
lemma cut_append (hs : Matched s) (matched : Matched inner)
    (e : s ++ t = before ++ inner.wrap ++ after) :
    (∃ a, s = before ++ inner.wrap ++ a ∧ after = a ++ t) ∨
      ∃ b, before = s ++ b ∧ t = b ++ inner.wrap ++ after := by
  rw [List.append_assoc] at e
  rcases List.append_eq_append_iff.1 e with ⟨b, rfl, rfl⟩ | ⟨front, rfl, e'⟩
  · exact .inr ⟨b, rfl, (List.append_assoc _ _ _).symm⟩
  clear e
  rcases List.append_eq_append_iff.1 e' with ⟨a, rfl, rfl⟩ | ⟨back, e, rfl⟩
  · exact .inl ⟨a, (List.append_assoc _ _ _).symm, rfl⟩
  -- else the first text ends within the pair, at its very beginning or its very end
  rcases front with _ | ⟨c, front⟩
  · refine .inr ⟨[], ?_, ?_⟩
    · simp
    · rw [List.nil_append, e, List.nil_append]
  rcases back.eq_nil_or_concat' with rfl | ⟨back, last, rfl⟩
  · refine .inl ⟨[], ?_, rfl⟩
    rw [List.append_nil, e, List.append_nil]
  · rw [← List.append_assoc] at e
    obtain ⟨e, -⟩ := List.append_inj' e rfl
    cases e
    have total := hs.closed
    have outside := hs.opened before _ rfl
    have inside := matched.opened front back rfl
    rw [List.count_append, List.count_append, List.count_cons_self,
      List.count_cons_of_ne (by decide)] at total
    omega

/-- A pair of parentheses in a text in parentheses is the one around it or stands inside. -/
lemma cut_wrap (hs : Matched s) (matched : Matched inner)
    (e : s.wrap = before ++ inner.wrap ++ after) :
    (before = [] ∧ inner = s ∧ after = []) ∨
      ∃ b a, before = '(' :: b ∧ after = a ++ [')'] ∧ s = b ++ inner.wrap ++ a := by
  rcases before with _ | ⟨c, b⟩
  · left
    have e' : s ++ [')'] = inner ++ [')'] ++ after := (List.cons.inj e).2
    rcases after.eq_nil_or_concat' with rfl | ⟨a, last, rfl⟩
    · rw [List.append_nil] at e'
      exact ⟨rfl, (List.append_cancel_right e').symm, rfl⟩
    · rw [← List.append_assoc] at e'
      have more := hs.opened _ _ (List.append_inj' e' rfl).1
      rw [List.count_append, List.count_append, matched.closed] at more
      exact absurd more (Nat.not_succ_le_self _)
  · right
    have e' : s ++ [')'] = b ++ inner.wrap ++ after := (List.cons.inj e).2
    cases (List.cons.inj e).1
    rcases cut_append hs matched e' with ⟨a, rfl, rfl⟩ | ⟨b', rfl, last⟩
    · exact ⟨b, a, rfl, rfl, rfl⟩
    · exact absurd last (ne_of_no_paren (by decide))

end

/-- A label has no other characters than those of labels. -/
lemma not_mem_label {name : Text} (label : IsLabel name) {c : Char} (other : c ∉ labelChars) :
    c ∉ name :=
  fun mem => other (label.mem mem)

/-- The sign of negation has no parentheses. -/
lemma matched_not : Matched ['¬'] :=
  matched_of_no_paren (by decide) (by decide)

/-- The sign of a connective has no parentheses. -/
lemma matched_glyph (op : Connective) : Matched [' ', op.glyph, ' '] := by
  cases op <;> exact matched_of_no_paren (by decide) (by decide)

/-- The parentheses of a canonical text stand in pairs. -/
lemma matched_canonical (f : Formula) (labels : ∀ name ∈ f.leaves, IsLabel name) :
    Matched f.canonical := by
  induction f with
  | atom name =>
    have label := labels name List.mem_cons_self
    exact matched_of_no_paren (not_mem_label label (by decide)) (not_mem_label label (by decide))
  | not operand ih => exact matched_not.append ((ih labels).wrapIf _)
  | binary op left right ihl ihr =>
    have hl := ihl fun name mem => labels name (List.mem_append_left _ mem)
    have hr := ihr fun name mem => labels name (List.mem_append_right _ mem)
    exact ((hl.wrapIf _).append (matched_glyph op)).append (hr.wrapIf _)

/-! ## Texts without a pair -/

/-- Whether a text spells tokens that have the shape of a formula, but from which it is not
derived. -/
def Misread (s : Text) (f : Formula) : Prop :=
  ∃ ts, Spells ts s ∧ Misses ts f

section
variable {level : Level} {n : Nat} {op : Connective} {s t : Text} {f g : Formula}

/-- A negation of a misread text is misread. -/
lemma Misread.not (h : Misread s f) : Misread ('¬' :: s) (.not f) := by
  obtain ⟨ts, spells, misses⟩ := h
  exact ⟨_, .sign rfl spells, misses.not⟩

/-- A group around a misread text is misread. -/
lemma Misread.wrap (h : Misread s f) : Misread s.wrap f := by
  obtain ⟨ts, spells, misses⟩ := h
  exact ⟨_, spells.wrap, misses.wrap⟩

/-- A formula is misread if its left operand is. -/
lemma Misread.left (h : Misread s f) (right : Renders level n t g) :
    Misread (s ++ [' ', op.glyph, ' '] ++ t) (.binary op f g) := by
  obtain ⟨ts, spells, misses⟩ := h
  obtain ⟨us, spells', d⟩ := right
  exact ⟨_, spells.binary spells', misses.left d.shapes⟩

/-- A formula is misread if its right operand is. -/
lemma Misread.right (left : Renders level n s f) (h : Misread t g) :
    Misread (s ++ [' ', op.glyph, ' '] ++ t) (.binary op f g) := by
  obtain ⟨ts, spells, d⟩ := left
  obtain ⟨us, spells', misses⟩ := h
  exact ⟨_, spells.binary spells', misses.right d.shapes⟩

/-- A text that is misread reads as another formula or not at all. -/
lemma Misread.read_ne (h : Misread s f) (names : ∀ name ∈ f.leaves, IsAtomName name) :
    read s ≠ .ok f := by
  obtain ⟨ts, spells, misses⟩ := h
  have others : ∀ name, .identifier name ∈ ts → name ∉ aliasWords := by
    intro name mem
    refine (names name ?_).2
    rw [← misses.leaves_eq]
    exact List.mem_filterMap.2 ⟨_, mem, rfl⟩
  intro accepted
  obtain ⟨lexemes, out, rfl⟩ := spells.tokenize others
  obtain ⟨lexemes', n, out', d, -⟩ := derives_of_read accepted
  rw [out] at out'
  cases out'
  rw [← grouped_zero (lexemes.map Lexeme.token)] at d
  exact misses.missed 0 _ n d

end

/-! ## Pairs around operands -/

/-- The text of a formula in front of a connective, and behind one. -/
def leftText (op : Connective) (left : Formula) : Text :=
  Text.wrapIf (wrapsLeft op left) left.canonical

def rightText (op : Connective) (right : Formula) : Text :=
  Text.wrapIf (wrapsRight op right) right.canonical

section
variable {op : Connective} {f g : Formula} {before inner after : Text}

/-- The text of a left operand renders it as tight as its place needs. -/
lemma renders_leftText (op : Connective) (labels : ∀ name ∈ f.leaves, IsLabel name) :
    ∃ n, Renders (.ofConnective op) n (leftText op f) f :=
  ⟨_, renders_wrapIf (f.canonical_renders_opened labels) rank_le_of_not_wrapsLeft⟩

/-- The text of a right operand renders it tighter than its connective. -/
lemma renders_rightText (op : Connective) (labels : ∀ name ∈ f.leaves, IsLabel name) :
    ∃ n, Renders (Level.ofConnective op).tighter n (rightText op f) f :=
  ⟨_, renders_wrapIf (f.canonical_renders_opened labels) rank_le_of_not_wrapsRight⟩

/-- Only a formula with a connective at its root binds looser than a negation. -/
lemma exists_binary (loose : f.precedence < notPrecedence) : ∃ op l r, f = .binary op l r := by
  cases f with
  | atom name => exact absurd loose (show ¬ atomPrecedence < notPrecedence by decide)
  | not operand => exact absurd loose (Nat.lt_irrefl _)
  | binary op l r => exact ⟨op, l, r, rfl⟩

/-- A left operand that needs its group is misread without it. -/
lemma misread_leftText (labelsF : ∀ name ∈ f.leaves, IsLabel name)
    (labelsG : ∀ name ∈ g.leaves, IsLabel name) (wrapped : wrapsLeft op f = true) :
    Misread (f.canonical ++ [' ', op.glyph, ' '] ++ rightText op g) (.binary op f g) := by
  obtain ⟨op', l, r, rfl⟩ := exists_binary (precedence_lt_of_wrapsLeft op wrapped)
  obtain ⟨_, ts, left, dl⟩ :=
    renders_leftText op' fun name mem => labelsF name (List.mem_append_left _ mem)
  obtain ⟨_, us, mid, dm⟩ :=
    renders_rightText op' fun name mem => labelsF name (List.mem_append_right _ mem)
  obtain ⟨_, ws, right, dr⟩ := renders_rightText op labelsG
  have loose : op'.precedence < op.precedence := of_decide_eq_true wrapped
  exact ⟨_, (left.binary mid).binary right, misses_left loose dl.shapes dm.shapes dr.shapes⟩

/-- A right operand that needs its group is misread without it. -/
lemma misread_rightText (labelsF : ∀ name ∈ f.leaves, IsLabel name)
    (labelsG : ∀ name ∈ g.leaves, IsLabel name) (wrapped : wrapsRight op g = true) :
    Misread (leftText op f ++ [' ', op.glyph, ' '] ++ g.canonical) (.binary op f g) := by
  obtain ⟨op', l, r, rfl⟩ := exists_binary (precedence_lt_of_wrapsRight op wrapped)
  obtain ⟨_, ts, left, dl⟩ := renders_leftText op labelsF
  obtain ⟨_, us, mid, dm⟩ :=
    renders_leftText op' fun name mem => labelsG name (List.mem_append_left _ mem)
  obtain ⟨_, ws, right, dr⟩ :=
    renders_rightText op' fun name mem => labelsG name (List.mem_append_right _ mem)
  have loose : op'.precedence ≤ op.precedence := of_decide_eq_true wrapped
  exact ⟨_, left.binary (mid.binary right), misses_right loose dl.shapes dm.shapes dr.shapes⟩

/-- Whether the canonical text of a formula is misread without any of its pairs, unless the pair
stands directly behind the sign of a negation. -/
def NeedsPairs (f : Formula) : Prop :=
  ∀ before inner after, f.canonical = before ++ inner.wrap ++ after → Matched inner →
    before.getLast? ≠ some '¬' → Misread (before ++ inner ++ after) f

/-- What does not end a text does not end its last part. -/
lemma getLast?_ne_of_append {s t : Text} {c : Char} (other : (s ++ t).getLast? ≠ some c) :
    t.getLast? ≠ some c := by
  intro last
  rw [List.getLast?_append, last, Option.some_or] at other
  exact other rfl

/-- A pair in the text of an operand is the one around it, or it is needed. -/
lemma NeedsPairs.wrapIf {needed : Bool} (needs : NeedsPairs f) (whole : Matched f.canonical)
    (matched : Matched inner)
    (split : Text.wrapIf needed f.canonical = before ++ inner.wrap ++ after)
    (operand : before.getLast? ≠ some '¬') :
    (needed = true ∧ before = [] ∧ inner = f.canonical ∧ after = []) ∨
      Misread (before ++ inner ++ after) f := by
  cases needed with
  | false => exact .inr (needs before inner after split matched operand)
  | true =>
    rcases cut_wrap whole matched split with ⟨rfl, rfl, rfl⟩ | ⟨b, a, rfl, rfl, e⟩
    · exact .inl ⟨rfl, rfl, rfl, rfl⟩
    · have misread := needs b inner a e matched (getLast?_ne_of_append (s := ['(']) operand)
      have out : Text.wrap (b ++ inner ++ a) = '(' :: b ++ inner ++ (a ++ [')']) := by
        simp [Text.wrap]
      exact .inr (out ▸ misread.wrap)

/-- A negation needs the pairs of its operand, but for one directly behind it. -/
lemma NeedsPairs.not (needs : NeedsPairs f) (whole : Matched f.canonical) :
    NeedsPairs (.not f) := by
  intro before inner after split matched operand
  rcases cut_append (s := ['¬']) matched_not matched split with ⟨a, e, -⟩ | ⟨b, rfl, e⟩
  · exact absurd e (ne_of_no_paren (by decide))
  rcases needs.wrapIf whole matched e (getLast?_ne_of_append operand) with ⟨-, rfl, -⟩ | misread
  · exact absurd rfl operand
  · exact misread.not

/-- A formula needs the pairs of its operands and those around them. -/
lemma NeedsPairs.binary (op : Connective) (labelsF : ∀ name ∈ f.leaves, IsLabel name)
    (labelsG : ∀ name ∈ g.leaves, IsLabel name) (left : NeedsPairs f) (right : NeedsPairs g) :
    NeedsPairs (.binary op f g) := by
  intro before inner after split matched operand
  have wholeF := f.matched_canonical labelsF
  have wholeG := g.matched_canonical labelsG
  have parts : leftText op f ++ ([' ', op.glyph, ' '] ++ rightText op g)
      = before ++ inner.wrap ++ after := by
    rw [← split, ← List.append_assoc]
    rfl
  rcases cut_append (wholeF.wrapIf _) matched parts with ⟨a, front, rfl⟩ | ⟨b, rfl, back⟩
  · rcases left.wrapIf wholeF matched front operand with ⟨wrapped, rfl, rfl, rfl⟩ | misread
    · have out := misread_leftText labelsF labelsG wrapped
      rwa [List.append_assoc] at out
    · obtain ⟨n, renders⟩ := renders_rightText op labelsG
      have out : Misread (before ++ inner ++ a ++ [' ', op.glyph, ' '] ++ rightText op g) _ :=
        misread.left renders
      rwa [List.append_assoc, List.append_assoc] at out
  rcases cut_append (matched_glyph op) matched back with ⟨a, sign, -⟩ | ⟨b, rfl, last⟩
  · have other : '(' ∉ [' ', op.glyph, ' '] := by cases op <;> decide
    exact absurd sign (ne_of_no_paren other)
  rw [← List.append_assoc] at operand ⊢
  rcases right.wrapIf wholeG matched last (getLast?_ne_of_append operand) with
    ⟨wrapped, rfl, rfl, rfl⟩ | misread
  · have out := misread_rightText labelsF labelsG wrapped
    rwa [List.append_nil, List.append_nil]
  · obtain ⟨n, renders⟩ := renders_leftText op labelsF
    have out : Misread (leftText op f ++ [' ', op.glyph, ' '] ++ (b ++ inner ++ after)) _ :=
      Misread.right renders misread
    rwa [← List.append_assoc, ← List.append_assoc] at out

/-- In the canonical text of a formula over names of atoms no parentheses around an operand of a
connective can be left out: without such a pair, which is any that does not stand directly behind
the sign of a negation, the text reads as another formula or not at all. -/
theorem read_ne_of_unwrapped (names : ∀ name ∈ f.leaves, IsAtomName name)
    (split : f.canonical = before ++ inner.wrap ++ after) (matched : Matched inner)
    (operand : before.getLast? ≠ some '¬') : read (before ++ inner ++ after) ≠ .ok f := by
  have labels : ∀ name ∈ f.leaves, IsLabel name := fun name mem => (names name mem).1
  have needs : NeedsPairs f := by
    clear names split
    induction f with
    | atom name =>
      intro before inner after e
      have label := labels name List.mem_cons_self
      exact absurd e (ne_of_no_paren (not_mem_label label (by decide)))
    | not operand ih => exact (ih labels).not (operand.matched_canonical labels)
    | binary op left right ihl ihr =>
      have labelsL : ∀ name ∈ left.leaves, IsLabel name :=
        fun name mem => labels name (List.mem_append_left _ mem)
      have labelsR : ∀ name ∈ right.leaves, IsLabel name :=
        fun name mem => labels name (List.mem_append_right _ mem)
      exact (ihl labelsL).binary op labelsL labelsR (ihr labelsR)
  exact (needs before inner after split matched operand).read_ne names

/-- The pair may have another inside, and without it the chain around it is grouped anew. -/
theorem read_ne_of_unwrapped_disjunction :
    let f : Formula := .not (.binary .and
      (.binary .or (.atom "A".toList) (.binary .xor (.atom "B".toList) (.atom "C".toList)))
      (.atom "D".toList))
    let before : Text := "¬(".toList
    let inner : Text := "A ∨ (B ⊕ C)".toList
    let after : Text := " ∧ D)".toList
    (∀ name ∈ f.leaves, IsAtomName name) ∧ f.canonical = before ++ inner.wrap ++ after ∧
      Matched inner ∧ before.getLast? ≠ some '¬' ∧
      before ++ inner ++ after = "¬(A ∨ (B ⊕ C) ∧ D)".toList ∧
      read (before ++ inner ++ after) ≠ .ok f := by
  intro f before inner after
  have names : ∀ name ∈ f.leaves, IsAtomName name := by decide
  have split : f.canonical = before ++ inner.wrap ++ after := by decide
  have matched : Matched inner :=
    matched_canonical
      (.binary .or (.atom "A".toList) (.binary .xor (.atom "B".toList) (.atom "C".toList)))
      (by decide)
  have operand : before.getLast? ≠ some '¬' := by decide
  exact ⟨names, split, matched, operand, by decide,
    read_ne_of_unwrapped names split matched operand⟩

end

end Sentential.Formula

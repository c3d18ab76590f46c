import Mathlib.Tactic.Lemma
import Sentential.Formula.Canonical
import Sentential.Proofs.Symbolic.Rendering

/-!
# Canonical text reads back

The canonical text of a formula renders it at the level of its outermost operator
(`canonical_renders`): the parentheses stand where the grammar asks for a tighter level. So it reads
back as the formula, unless the formula or its text exceeds a limit, and then the error says so
(`read_canonical`). Since the grammar is unambiguous and knows of no limit, no two formulas share
their canonical text, however deep they are (`canonical_inj`).
-/

namespace Sentential.Formula

open Symbolic

/-- The level at which the outermost operator binds. -/
def level : Formula → Level
  | .binary op _ _ => .ofConnective op
  | _ => .operand

/-- A formula on the left that is not wrapped binds as tight as its connective. -/
lemma rank_le_of_not_wrapsLeft {op : Connective} {left : Formula}
    (bare : wrapsLeft op left = false) :
    (Level.ofConnective op).rank ≤ left.level.rank := by
  cases left with
  | atom name => exact (Level.ofConnective op).rank_le
  | not operand => exact (Level.ofConnective op).rank_le
  | binary op' l r =>
    rw [level, Level.rank_ofConnective, Level.rank_ofConnective]
    exact Nat.le_of_not_lt (of_decide_eq_false bare)

/-- A formula on the right that is not wrapped binds tighter than its connective. -/
lemma rank_le_of_not_wrapsRight {op : Connective} {right : Formula}
    (bare : wrapsRight op right = false) :
    (Level.ofConnective op).tighter.rank ≤ right.level.rank := by
  cases right with
  | atom name => exact (Level.ofConnective op).tighter.rank_le
  | not operand => exact (Level.ofConnective op).tighter.rank_le
  | binary op' l r =>
    rw [Level.rank_tighter (Level.mem_connectives_ofConnective op), level,
      Level.rank_ofConnective, Level.rank_ofConnective]
    exact Nat.lt_of_not_le (of_decide_eq_false bare)

/-- An operand of a connective that is wrapped binds looser than a negation. -/
lemma precedence_lt_of_wrapsLeft (op : Connective) {left : Formula}
    (wrapped : wrapsLeft op left = true) : left.precedence < notPrecedence := by
  have rank : op.precedence < notPrecedence := by cases op <;> decide
  have loose : left.precedence < op.precedence := of_decide_eq_true wrapped
  exact Nat.lt_trans loose rank

/-- A right operand that is made a group is no negation and no atom. -/
lemma precedence_lt_of_wrapsRight (op : Connective) {right : Formula}
    (wrapped : wrapsRight op right = true) : right.precedence < notPrecedence := by
  have rank : op.precedence < notPrecedence := by cases op <;> decide
  have loose : right.precedence ≤ op.precedence := of_decide_eq_true wrapped
  exact Nat.lt_of_le_of_lt loose rank

/-- A bound that has room for a group more where a formula binds looser than a negation has room for
the parentheses around it. -/
lemma add_toNat_le {wrapped : Bool} {f : Formula} {n d : Nat} (low : n + 1 ≤ d)
    (room : f.precedence < notPrecedence → n + 2 ≤ d)
    (loose : wrapped = true → f.precedence < notPrecedence) : n + wrapped.toNat + 1 ≤ d := by
  cases wrapped with
  | false => exact low
  | true => exact room (loose rfl)

/-- How many groups and negations the canonical text of a formula opens at once. -/
def opened : Formula → Nat
  | .atom _ => 0
  | .not operand => operand.opened + (!operand.isAtom).toNat + 1
  | .binary op left right =>
    max (left.opened + (wrapsLeft op left).toNat) (right.opened + (wrapsRight op right).toNat)

/-- An operand is rendered at the level where it stands, in parentheses if it binds looser. -/
lemma renders_wrapIf {needed : Bool} {s : Text} {f : Formula} {n : Nat} {place : Level}
    (h : Renders f.level n s f) (bare : needed = false → place.rank ≤ f.level.rank) :
    Renders place (n + needed.toNat) (Text.wrapIf needed s) f := by
  cases needed with
  | false => exact h.loosen (bare rfl)
  | true =>
    have whole : Renders .equivalence n s f := h.loosen f.level.rank_pos
    have loose : place.rank ≤ Level.rank .operand := place.rank_le
    exact whole.wrap.loosen loose

/-- The canonical text of a formula renders it. -/
lemma canonical_renders_opened (f : Formula) (labels : ∀ name ∈ f.leaves, IsLabel name) :
    Renders f.level f.opened f.canonical f := by
  induction f with
  | atom name => exact renders_label (labels name List.mem_cons_self)
  | not operand ih =>
    -- only an atom goes without parentheses behind the sign
    have bare : (!operand.isAtom) = false → Level.rank .operand ≤ operand.level.rank := by
      intro atom
      cases operand with
      | atom name => exact Nat.le_refl _
      | not operand => cases atom
      | binary op left right => cases atom
    exact (renders_wrapIf (ih labels) bare).not
  | binary op left right ihl ihr =>
    have hl := ihl fun name mem => labels name (List.mem_append_left _ mem)
    have hr := ihr fun name mem => labels name (List.mem_append_right _ mem)
    exact (renders_wrapIf hl rank_le_of_not_wrapsLeft).binary
      (Level.mem_connectives_ofConnective op) (renders_wrapIf hr rank_le_of_not_wrapsRight)

/-- The canonical text of a formula renders it at its own level. -/
lemma canonical_renders (f : Formula) (labels : ∀ name ∈ f.leaves, IsLabel name) :
    ∃ n, Renders f.level n f.canonical f :=
  ⟨f.opened, f.canonical_renders_opened labels⟩

/-- The canonical text of a formula over names of atoms reads back as the formula if the formula is
no deeper than the limit and its text opens no more groups and negations at once; else reading
fails because of the limit. -/
theorem read_canonical (f : Formula) (names : ∀ name ∈ f.leaves, IsAtomName name) :
    (f.depth ≤ maxDepth ∧ openAtOnce f.canonical ≤ maxDepth → read f.canonical = .ok f) ∧
    (¬ (f.depth ≤ maxDepth ∧ openAtOnce f.canonical ≤ maxDepth) →
      ∃ index, read f.canonical = .error (.tooDeep index)) := by
  obtain ⟨n, h⟩ := f.canonical_renders fun name mem => (names name mem).1
  have whole : Renders .equivalence n f.canonical f := h.loosen f.level.rank_pos
  have others : ∀ name ∈ f.leaves, name ∉ aliasWords := fun name mem => (names name mem).2
  have same : Fits maxDepth 0 n f ↔ f.depth ≤ maxDepth ∧ openAtOnce f.canonical ≤ maxDepth := by
    rw [h.openAtOnce_eq, Fits, Nat.zero_add]
    exact And.comm
  rw [← same]
  exact ⟨whole.read_eq_ok others, whole.read_eq_tooDeep others⟩

/-- The names may be long, and groups and negations may stand on either side. -/
theorem read_canonical_of_nested_groups :
    let f : Formula := .binary .imp (.binary .iff (.atom "A".toList) (.atom "B_2".toList))
      (.not (.not (.binary .xor (.atom "XOR1".toList)
        (.binary .or (.atom "A".toList) (.atom "C".toList)))))
    (∀ name ∈ f.leaves, IsAtomName name) ∧
      f.canonical = "(A ↔ B_2) → ¬(¬(XOR1 ⊕ (A ∨ C)))".toList ∧
      f.depth ≤ maxDepth ∧ openAtOnce f.canonical = 5 ∧ read f.canonical = .ok f := by
  intro f
  have names : ∀ name ∈ f.leaves, IsAtomName name := by decide
  have flat : f.depth ≤ maxDepth := by decide
  have five : openAtOnce f.canonical = 5 := by decide
  have near : openAtOnce f.canonical ≤ maxDepth := by
    rw [five]
    decide
  exact ⟨names, rfl, flat, five, (read_canonical f names).1 ⟨flat, near⟩⟩

/-- Two formulas whose leaves are labels have the same canonical text iff they are the same. A label
may be the word of a connective, and no limit applies. -/
theorem canonical_inj {f g : Formula} (labelsF : ∀ name ∈ f.leaves, IsLabel name)
    (labelsG : ∀ name ∈ g.leaves, IsLabel name) : f.canonical = g.canonical ↔ f = g := by
  refine ⟨fun same => ?_, fun same => congrArg canonical same⟩
  obtain ⟨m, hf⟩ := f.canonical_renders labelsF
  obtain ⟨n, hg⟩ := g.canonical_renders labelsG
  have wholeF : Renders .equivalence m f.canonical f := hf.loosen f.level.rank_pos
  have wholeG : Renders .equivalence n g.canonical g := hg.loosen g.level.rank_pos
  rw [← same] at wholeG
  exact wholeF.unique wholeG

/-- Neither text is read, for the leaves are words of connectives. -/
theorem canonical_inj_of_connective_words :
    let f : Formula := .binary .imp (.binary .imp (.atom "XOR".toList) (.atom "IFF".toList))
      (.not (.not (.atom "XOR".toList)))
    let g : Formula := .binary .imp (.atom "XOR".toList) (.binary .imp (.atom "IFF".toList)
      (.not (.not (.atom "XOR".toList))))
    (∀ name ∈ f.leaves, IsLabel name) ∧ (∀ name ∈ g.leaves, IsLabel name) ∧
      f.canonical = "XOR → IFF → ¬(¬XOR)".toList ∧
      g.canonical = "XOR → (IFF → ¬(¬XOR))".toList ∧ (f.canonical = g.canonical ↔ f = g) := by
  intro f g
  have labelsF : ∀ name ∈ f.leaves, IsLabel name := by decide
  have labelsG : ∀ name ∈ g.leaves, IsLabel name := by decide
  exact ⟨labelsF, labelsG, rfl, rfl, canonical_inj labelsF labelsG⟩

end Sentential.Formula

import Mathlib.Logic.Function.Iterate
import Mathlib.Tactic.Lemma
import Sentential.Proofs.Formula.RoundTrip
import Sentential.Proofs.Symbolic.Naming

/-!
# Canonical text of accepted formulas

The canonical text of a formula that has been read opens a negation where a negation stands, and a
group besides where the operand is no atom. So it opens no more at once than the formula is deep,
unless negations stand directly on negations (`opened_add_le`): a formula that has been read can be
refused in its own canonical text, but only because of the limit (`read_canonical_of_read`).
-/

namespace Sentential.Formula

open Symbolic

/-- The most negations of a formula that stand directly on a negation, on one path of its tree. -/
def stackedNegations : Formula → Nat
  | .atom _ => 0
  | .not (.not operand) => stackedNegations (.not operand) + 1
  | .not operand => operand.stackedNegations
  | .binary _ left right => max left.stackedNegations right.stackedNegations

/-- What the canonical text opens is bounded by the depth. Behind a connective there is room for one
group more. -/
lemma opened_add_le (f : Formula) :
    f.opened + 1 ≤ f.depth + f.stackedNegations ∧
    (f.precedence < notPrecedence → f.opened + 2 ≤ f.depth + f.stackedNegations) := by
  induction f with
  | atom name =>
    have tight : ¬ atomPrecedence < notPrecedence := by decide
    exact ⟨Nat.le_refl 1, fun loose => absurd loose tight⟩
  | not operand ih =>
    refine ⟨?_, fun loose => absurd loose (Nat.lt_irrefl notPrecedence)⟩
    cases operand with
    | atom name => exact Nat.le_refl 2
    | not g =>
      have one : (!(Formula.not g).isAtom).toNat = 1 := rfl
      rw [opened, depth, stackedNegations, one]
      omega
    | binary op left right =>
      have one : (!(Formula.binary op left right).isAtom).toNat = 1 := rfl
      have loose : op.precedence < notPrecedence := by cases op <;> decide
      have room := ih.2 loose
      rw [opened, depth, stackedNegations, one]
      · omega
      · exact fun _ => Formula.noConfusion
  | binary op left right ihl ihr =>
    suffices h : (binary op left right).opened + 2
        ≤ (binary op left right).depth + (binary op left right).stackedNegations from
      ⟨Nat.le_of_succ_le h, fun _ => h⟩
    have hl := add_toNat_le ihl.1 ihl.2 (precedence_lt_of_wrapsLeft op)
    have hr := add_toNat_le ihr.1 ihr.2 (precedence_lt_of_wrapsRight op)
    rw [opened, depth, stackedNegations]
    omega

section
variable {s : Text} {f : Formula}

/-- The canonical text of a formula that has been read reads back as the formula iff it opens no
more groups and negations at once than the limit allows, and else it is refused because of the
limit. It opens less than the formula is deep, but for the negations that stand directly on
negations. -/
theorem read_canonical_of_read (accepted : read s = .ok f) :
    (read f.canonical = .ok f ↔ openAtOnce f.canonical ≤ maxDepth) ∧
    (read f.canonical = .ok f ∨ ∃ index, read f.canonical = .error (.tooDeep index)) ∧
    openAtOnce f.canonical < f.depth + f.stackedNegations := by
  obtain ⟨-, n, -, -, -, flat⟩ := derives_of_read accepted
  have names := isAtomName_of_read accepted
  have renders := f.canonical_renders_opened fun name mem => (names name mem).1
  have whole : Renders .equivalence f.opened f.canonical f := renders.loosen f.level.rank_pos
  have others : ∀ name ∈ f.leaves, name ∉ aliasWords := fun name mem => (names name mem).2
  rw [renders.openAtOnce_eq]
  by_cases near : f.opened ≤ maxDepth
  · have same : read f.canonical = .ok f := whole.read_eq_ok others ⟨by omega, flat⟩
    exact ⟨iff_of_true same near, .inl same, f.opened_add_le.1⟩
  · obtain ⟨index, refused⟩ := whole.read_eq_tooDeep others fun fits => near (by
      have near' := fits.1
      omega)
    have other : read f.canonical ≠ .ok f := by
      rw [refused]
      exact fun e => by cases e
    exact ⟨iff_of_false other near, .inr ⟨index, refused⟩, f.opened_add_le.1⟩

end

/-! ## Negations on negations -/

/-- Negations on negations open one group less than there are negations. -/
lemma opened_iterate_not (n : Nat) (name : Text) :
    (Formula.not^[n + 1] (.atom name)).opened = 2 * n + 1 := by
  induction n with
  | zero => rfl
  | succ n ih =>
    have same : Formula.not^[n + 1 + 1] (.atom name) = .not (Formula.not^[n + 1] (.atom name)) :=
      Function.iterate_succ_apply' _ _ _
    have one : (!(Formula.not^[n + 1] (.atom name)).isAtom).toNat = 1 := by
      rw [Function.iterate_succ_apply']
      rfl
    rw [same, opened, ih, one]
    omega

/-- Without parentheses negations on negations open no group. -/
lemma renders_iterate_not {name : Text} (label : IsLabel name) (n : Nat) :
    Renders .operand n (List.replicate n '¬' ++ name) (Formula.not^[n] (.atom name)) := by
  induction n with
  | zero => exact renders_label label
  | succ n ih =>
    rw [Function.iterate_succ_apply']
    exact ih.not

/-- Each negation of an atom is one level of the tree. -/
lemma depth_iterate_not (n : Nat) (name : Text) :
    (Formula.not^[n] (.atom name)).depth = n + 1 := by
  induction n with
  | zero => rfl
  | succ n ih =>
    rw [Function.iterate_succ_apply', depth, ih]
    exact Nat.add_comm 1 (n + 1)

/-- An atom keeps its name below negations. -/
lemma leaves_iterate_not (n : Nat) (name : Text) :
    (Formula.not^[n] (.atom name)).leaves = [name] := by
  induction n with
  | zero => rfl
  | succ n ih =>
    rw [Function.iterate_succ_apply']
    exact ih

/-- Negations on negations are read as long as the formula is no deeper than the limit. -/
lemma read_iterate_not {name : Text} (isName : IsAtomName name) {n : Nat} (flat : n < maxDepth) :
    read (List.replicate n '¬' ++ name) = .ok (Formula.not^[n] (.atom name)) := by
  have whole : Renders .equivalence n _ _ :=
    (renders_iterate_not isName.1 n).loosen (Level.rank_pos _)
  refine whole.read_eq_ok ?_ ⟨?_, ?_⟩
  · rw [leaves_iterate_not, List.forall_mem_singleton]
    exact isName.2
  · rw [Nat.zero_add]
    exact Nat.le_of_lt flat
  · rw [depth_iterate_not]
    exact flat

/-- With `129` negations a formula is read, and its canonical text is refused. -/
theorem read_canonical_of_read_negations :
    let s : Text := List.replicate 129 '¬' ++ "A".toList
    let f : Formula := Formula.not^[129] (.atom "A".toList)
    read s = .ok f ∧ f.depth = 130 ∧ openAtOnce f.canonical = 257 ∧
      ∃ index, read f.canonical = .error (.tooDeep index) := by
  intro s f
  have label : IsLabel "A".toList := by decide
  have leaves : f.leaves = ["A".toList] := leaves_iterate_not 129 _
  have depth : f.depth = 130 := depth_iterate_not 129 _
  have others : ∀ name ∈ f.leaves, name ∉ aliasWords := by
    rw [leaves]
    decide
  have accepted : read s = .ok f := by
    have renders : Renders .operand 129 s f := renders_iterate_not label 129
    have whole : Renders .equivalence 129 s f := renders.loosen (by decide)
    refine whole.read_eq_ok others ⟨by decide, ?_⟩
    rw [depth]
    decide
  have opens : openAtOnce f.canonical = 257 := by
    have renders := f.canonical_renders_opened fun name mem => by
      rw [leaves, List.mem_singleton] at mem
      exact mem ▸ label
    rw [renders.openAtOnce_eq]
    exact opened_iterate_not 128 _
  obtain ⟨same, either, -⟩ := read_canonical_of_read accepted
  refine ⟨accepted, depth, opens, either.resolve_left fun e => ?_⟩
  have near := same.1 e
  rw [opens] at near
  exact absurd near (by decide)

end Sentential.Formula

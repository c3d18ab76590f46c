import Mathlib.Tactic.Lemma
import Sentential.Proofs.Formula.RoundTrip
import Sentential.Proofs.Symbolic.Naming

/-!
# The formulas that can be read

A formula that is read has names of atoms at its leaves and is no deeper than the limit. Every such
formula is also read from some text: with no more parentheses than the grammar asks for, none of
them behind a negation that follows another, a text opens fewer groups and negations at once than
the formula is deep (`exists_renders`).
-/

namespace Sentential.Formula

open Symbolic

/-- Some text renders a formula and opens less at once than the formula is deep. Behind a connective
there is room for one group more. -/
lemma exists_renders (f : Formula) (labels : ∀ name ∈ f.leaves, IsLabel name) :
    ∃ s n, Renders f.level n s f ∧ n + 1 ≤ f.depth ∧
      (f.precedence < notPrecedence → n + 2 ≤ f.depth) := by
  induction f with
  | atom name =>
    have tight : ¬ atomPrecedence < notPrecedence := by decide
    exact ⟨name, 0, renders_label (labels name List.mem_cons_self), Nat.le_refl 1,
      fun loose => absurd loose tight⟩
  | not operand ih =>
    obtain ⟨s, n, renders, low, room⟩ := ih labels
    have tight : ¬ notPrecedence < notPrecedence := Nat.lt_irrefl _
    -- only behind a connective the operand needs a group
    cases operand with
    | atom name =>
      refine ⟨_, _, renders.not, ?_, fun loose => absurd loose tight⟩
      rw [depth]
      omega
    | not g =>
      refine ⟨_, _, renders.not, ?_, fun loose => absurd loose tight⟩
      rw [depth]
      omega
    | binary op left right =>
      have loose : op.precedence < notPrecedence := by cases op <;> decide
      have whole : Renders .equivalence n s (.binary op left right) :=
        renders.loosen (Level.rank_pos _)
      refine ⟨_, _, whole.wrap.not, ?_, fun loose => absurd loose tight⟩
      have deep := room loose
      rw [depth]
      omega
  | binary op left right ihl ihr =>
    obtain ⟨s, m, hl, lowL, roomL⟩ := ihl fun name mem => labels name (List.mem_append_left _ mem)
    obtain ⟨t, n, hr, lowR, roomR⟩ := ihr fun name mem => labels name (List.mem_append_right _ mem)
    have whole := (renders_wrapIf hl rank_le_of_not_wrapsLeft).binary
      (Level.mem_connectives_ofConnective op) (renders_wrapIf hr rank_le_of_not_wrapsRight)
    have deepL := add_toNat_le lowL roomL (precedence_lt_of_wrapsLeft op)
    have deepR := add_toNat_le lowR roomR (precedence_lt_of_wrapsRight op)
    refine ⟨_, _, whole, ?_, fun _ => ?_⟩
    all_goals
      rw [depth]
      omega

/-- The formulas that are read from some text are those with names of atoms at their leaves that are
no deeper than the limit. -/
theorem readable_iff (f : Formula) :
    (∃ s, read s = .ok f) ↔ (∀ name ∈ f.leaves, IsAtomName name) ∧ f.depth ≤ maxDepth := by
  constructor
  · rintro ⟨s, accepted⟩
    obtain ⟨-, -, -, -, -, flat⟩ := derives_of_read accepted
    exact ⟨isAtomName_of_read accepted, flat⟩
  · rintro ⟨names, flat⟩
    obtain ⟨s, n, renders, low, -⟩ := f.exists_renders fun name mem => (names name mem).1
    have whole : Renders .equivalence n s f := renders.loosen f.level.rank_pos
    refine ⟨s, whole.read_eq_ok (fun name mem => (names name mem).2) ⟨?_, flat⟩⟩
    omega

end Sentential.Formula

import Mathlib.Tactic.Lemma
import Sentential.Proofs.Symbolic.Fault
import Sentential.Proofs.Symbolic.Rendering
import Sentential.Proofs.Text.FirstPlaces

/-!
# What a formula keeps of its tokens

From left to right, the leaves, the connectives and the negations of a formula are the tokens from
which it is read, and only the parentheses are missing (`Derives.tokens_eq`). These stand in pairs,
for groups are opened and closed one inside the other (`Derives.balanced`). So what is said of
tokens of one kind is said of the tokens in order once for each kind (`parse_keeps`).
-/

namespace Sentential

open Symbolic Text

namespace Formula

/-- The tokens of a formula from left to right, without parentheses. -/
def tokens : Formula → List Token
  | .atom name => [.identifier name]
  | .not operand => .not :: operand.tokens
  | .binary op left right => left.tokens ++ .connective op :: right.tokens

/-- The connectives of a formula from left to right. -/
def operators : Formula → List Connective
  | .atom _ => []
  | .not operand => operand.operators
  | .binary op left right => left.operators ++ op :: right.operators

/-- The number of negations of a formula. -/
def negations : Formula → Nat
  | .atom _ => 0
  | .not operand => operand.negations + 1
  | .binary _ left right => left.negations + right.negations

end Formula

namespace Symbolic

/-- Whether a token is a parenthesis. -/
def Token.isParen : Token → Bool
  | .leftParen => true
  | .rightParen => true
  | _ => false

/-- The connective that a token stands for. -/
def Token.connective? : Token → Option Connective
  | .connective op => some op
  | _ => none

/-- Whether parentheses stand in pairs: as many are closed as opened, and nowhere more. -/
structure Balanced (ts : List Token) : Prop where
  closed : ts.count .rightParen = ts.count .leftParen
  opened : ∀ front, front <+: ts → front.count .rightParen ≤ front.count .leftParen

end Symbolic

/-! ## The tokens of a formula -/

namespace Formula

/-- The connectives among the tokens of a formula are its own. -/
lemma filterMap_connective?_tokens (f : Formula) :
    f.tokens.filterMap Token.connective? = f.operators := by
  induction f with
  | atom name => rfl
  | not operand ih => exact ih
  | binary op left right ihl ihr =>
    have own : Token.connective? (.connective op) = some op := rfl
    rw [tokens, List.filterMap_append, List.filterMap_cons_some own, ihl, ihr, operators]

/-- The negations among the tokens of a formula are its own. -/
lemma count_not_tokens (f : Formula) : f.tokens.count .not = f.negations := by
  induction f with
  | atom name => rfl
  | not operand ih => rw [tokens, List.count_cons_self, ih, negations]
  | binary op left right ihl ihr =>
    have other : Token.connective op ≠ .not := Token.noConfusion
    rw [tokens, List.count_append, List.count_cons_of_ne other, ihl, ihr, negations]

end Formula

namespace Symbolic

/-! ## The tokens of a derivation -/

section
variable {level : Level} {n : Nat} {ts : List Token} {f : Formula}

/-- A formula has the tokens from which it is derived, without the parentheses. -/
lemma Derives.tokens_eq (d : Derives level n ts f) :
    ts.filter (fun t => !t.isParen) = f.tokens := by
  induction d with
  | identifier name => rfl
  | not _ ih => exact congrArg (Token.not :: ·) ih
  | group _ ih =>
    rw [List.cons_append, List.filter_cons_of_neg (by decide), List.filter_append, ih]
    exact List.append_nil _
  | single _ ih => exact ih
  | chain _ _ _ ihl ihr =>
    rw [List.filter_append, List.filter_cons_of_pos rfl, ihl, ihr, Formula.tokens]

/-- Tokens of a kind that has no parentheses are found among the others. -/
lemma filterMap_filter_not_isParen {α : Type} {kind? : Token → Option α}
    (left : kind? .leftParen = none) (right : kind? .rightParen = none) (ts : List Token) :
    (ts.filter fun t => !t.isParen).filterMap kind? = ts.filterMap kind? := by
  rw [List.filterMap_filter]
  refine List.filterMap_congr fun t _ => ?_
  cases t with
  | leftParen => exact left.symm
  | rightParen => exact right.symm
  | _ => rfl

/-! ## Parentheses -/

/-- The number of groups that are open at a stage. -/
def Stage.groups : Stage → Nat
  | .before groups => groups
  | .behind groups => groups

/-- A token opens or closes a group as its parenthesis does. -/
lemma Stage.groups_pass {stage next : Stage} {t : Token} (pass : stage.pass t = some next) :
    next.groups + [t].count .rightParen = stage.groups + [t].count .leftParen := by
  rcases stage with n | _ | n <;> cases t <;> cases pass <;> rfl

/-- What is closed behind some tokens was open before them or has been opened by them. -/
lemma Stage.groups_run {stage next : Stage} (run : stage.run ts = some next) :
    next.groups + ts.count .rightParen = stage.groups + ts.count .leftParen := by
  induction ts generalizing stage with
  | nil =>
    cases run
    rfl
  | cons t ts ih =>
    rw [Stage.run_cons, Option.bind_eq_some_iff] at run
    obtain ⟨mid, pass, run⟩ := run
    have first := Stage.groups_pass pass
    have rest := ih run
    rw [← List.singleton_append, List.count_append, List.count_append]
    omega

/-- The parentheses of a derivation stand in pairs. -/
lemma Derives.balanced (d : Derives level n ts f) : Balanced ts where
  closed := by
    have groups := Stage.groups_run (d.run 0)
    simp only [Stage.groups] at groups
    omega
  opened front before := by
    obtain ⟨back, rfl⟩ := before
    have run := d.run 0
    rw [Stage.run_append, Option.bind_eq_some_iff] at run
    obtain ⟨mid, run, -⟩ := run
    have groups := Stage.groups_run run
    simp only [Stage.groups] at groups
    omega

/-- A formula that is read keeps all tokens but the parentheses, which stand in pairs: in order, its
leaves are the identifiers and its connectives are those among the tokens, it has as many negations,
and its atoms are the identifiers, each in its first place. -/
theorem parse_keeps (parsed : parse ts = .ok f) :
    f.leaves = ts.filterMap Token.name? ∧ f.operators = ts.filterMap Token.connective? ∧
    f.negations = ts.count .not ∧ FirstPlaces (ts.filterMap Token.name?) f.atoms ∧
    f.tokens = ts.filter (fun t => !t.isParen) ∧ Balanced ts := by
  obtain ⟨n, d, -⟩ := derives_of_parseWithin (by decide) parsed
  have kept := d.tokens_eq
  refine ⟨d.leaves_eq.symm, ?_, ?_, ?_, kept.symm, d.balanced⟩
  · rw [← f.filterMap_connective?_tokens, ← kept, filterMap_filter_not_isParen rfl rfl]
  · rw [← f.count_not_tokens, ← kept, List.count_filter rfl]
  · rw [d.leaves_eq]
    exact f.firstPlaces_atoms

/-- Two pairs of parentheses are dropped, and an atom that comes twice keeps its first place. -/
theorem parse_keeps_of_repeated_atom :
    let ts : List Token :=
      [.identifier "B".toList, .connective .imp, .leftParen, .not, .leftParen,
        .identifier "A".toList, .connective .or, .identifier "B".toList, .rightParen, .rightParen,
        .connective .imp, .identifier "A".toList]
    let f : Formula := .binary .imp
      (.binary .imp (.atom "B".toList)
        (.not (.binary .or (.atom "A".toList) (.atom "B".toList)))) (.atom "A".toList)
    parse ts = .ok f ∧ f.atoms = ["B".toList, "A".toList] ∧
    f.leaves = ts.filterMap Token.name? ∧ f.operators = ts.filterMap Token.connective? ∧
    f.negations = ts.count .not ∧ FirstPlaces (ts.filterMap Token.name?) f.atoms ∧
    f.tokens = ts.filter (fun t => !t.isParen) ∧ Balanced ts := by
  intro ts f
  have parsed : parse ts = .ok f := by cbv
  exact ⟨parsed, by decide, parse_keeps parsed⟩

end

end Symbolic

end Sentential

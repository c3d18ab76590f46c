import Mathlib.Tactic.Lemma
import Sentential.Symbolic.Token

/-!
# The grammar of formulas

The grammar is stratified: each level is a chain of its own connectives, which groups to the left,
over operands of the next tighter level. The tightest level has the operands: identifiers, negated
operands and formulas in parentheses. `Derives` is the relation of the grammar. It carries the
number of groups and negations that are open at once at the deepest place of a derivation, and
knows of no limit.
-/

namespace Sentential.Symbolic

/-- The levels of the grammar, the loosest first. -/
inductive Level where
  | equivalence
  | implication
  | disjunction
  | conjunction
  | operand
deriving DecidableEq, Repr

namespace Level

/-- The next tighter level. Nothing binds tighter than an operand. -/
def tighter : Level → Level
  | .equivalence => .implication
  | .implication => .disjunction
  | .disjunction => .conjunction
  | .conjunction => .operand
  | .operand => .operand

/-- The connectives of the chains of a level. -/
def connectives : Level → List Connective
  | .equivalence => [.iff]
  | .implication => [.imp]
  | .disjunction => [.or, .xor]
  | .conjunction => [.and]
  | .operand => []

/-- The place of a level, counted from the loosest one. -/
def rank : Level → Nat
  | .equivalence => 1
  | .implication => 2
  | .disjunction => 3
  | .conjunction => 4
  | .operand => 5

/-- The level whose chains a connective builds. -/
def ofConnective : Connective → Level
  | .iff => .equivalence
  | .imp => .implication
  | .or => .disjunction
  | .xor => .disjunction
  | .and => .conjunction

/-- A connective is one of its own level. -/
lemma mem_connectives_ofConnective (op : Connective) : op ∈ (ofConnective op).connectives := by
  cases op <;> decide

/-- The place of a level is the rank of its connectives. -/
lemma rank_ofConnective (op : Connective) : (ofConnective op).rank = op.precedence := by
  cases op <;> rfl

/-- The rank of a level is the precedence of its connectives. -/
lemma precedence_eq_rank {level : Level} {op : Connective} (own : op ∈ level.connectives) :
    op.precedence = level.rank := by
  cases level <;> cases op <;> first | rfl | exact absurd own (by decide)

/-- A level with connectives is one rank below the next tighter one. -/
lemma rank_tighter {level : Level} {op : Connective} (own : op ∈ level.connectives) :
    level.tighter.rank = level.rank + 1 := by
  cases level with
  | operand => cases own
  | _ => rfl

/-- No level comes behind the next tighter one. -/
lemma rank_le_tighter (level : Level) : level.rank ≤ level.tighter.rank := by
  cases level <;> decide

/-- The levels are counted from 1. -/
lemma rank_pos (level : Level) : 1 ≤ level.rank := by
  cases level <;> decide

/-- There are five levels. -/
lemma rank_le (level : Level) : level.rank ≤ 5 := by
  cases level <;> decide

end Level

/-- Derivations of formulas from tokens at a level. The number tells how many groups and negations
are open at once at the deepest place. -/
inductive Derives : Level → Nat → List Token → Formula → Prop where
  | identifier (name : Text) :
    Derives .operand 0 [.identifier name] (.atom name)
  | not {n ts f} :
    Derives .operand n ts f →
    Derives .operand (n + 1) (.not :: ts) (.not f)
  | group {n ts f} :
    Derives .equivalence n ts f →
    Derives .operand (n + 1) (.leftParen :: ts ++ [.rightParen]) f
  | single {level n ts f} :
    Derives level.tighter n ts f →
    Derives level n ts f
  | chain {level op m n ts us f g} :
    op ∈ level.connectives →
    Derives level m ts f →
    Derives level.tighter n us g →
    Derives level (max m n) (ts ++ .connective op :: us) (.binary op f g)

/-- A derivation at a level is one at every looser level. -/
lemma Derives.loosen {level tight : Level} {n ts f} (le : level.rank ≤ tight.rank)
    (d : Derives tight n ts f) : Derives level n ts f := by
  generalize gap : tight.rank - level.rank = k
  induction k generalizing level with
  | zero =>
    have e : level = tight := by
      cases level <;> cases tight <;> first | rfl | (simp only [Level.rank] at le gap; omega)
    rw [e]
    exact d
  | succ k ih =>
    have step : level.tighter.rank = level.rank + 1 := by
      cases level with
      | operand =>
        have most := tight.rank_le
        have five : Level.rank .operand = 5 := rfl
        omega
      | _ => rfl
    apply Derives.single
    apply ih
    · omega
    · omega

/-- Whether no connective of a rank or above comes next. -/
def StopsBelow (rank : Nat) (rest : List Token) : Prop :=
  ∀ op more, rest = .connective op :: more → op.precedence < rank

/-- What stops below a rank does so below a higher one. -/
lemma StopsBelow.mono {low high : Nat} {rest : List Token} (stops : StopsBelow low rest)
    (le : low ≤ high) : StopsBelow high rest :=
  fun op more e => Nat.lt_of_lt_of_le (stops op more e) le

/-- Nothing comes next at the end. -/
lemma stopsBelow_nil (rank : Nat) : StopsBelow rank [] :=
  fun _ _ e => by cases e

/-- No connective comes next where a parenthesis closes. -/
lemma stopsBelow_rightParen (rank : Nat) (rest : List Token) :
    StopsBelow rank (.rightParen :: rest) :=
  fun _ _ e => by cases e

/-- A connective that comes next stops what binds tighter. -/
lemma stopsBelow_connective {rank : Nat} {op : Connective} {rest : List Token} :
    StopsBelow rank (.connective op :: rest) ↔ op.precedence < rank := by
  refine ⟨fun stops => stops op rest rfl, fun lt op' more e => ?_⟩
  cases e
  exact lt

end Sentential.Symbolic

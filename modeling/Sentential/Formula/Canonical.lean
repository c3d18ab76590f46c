import Sentential.Formula.Basic

/-!
# Canonical text

The text of a formula with the signs of its connectives between single spaces and no more
parentheses than a reader needs:

- the operand of a negation is bare only if it is an atom;
- a left operand is wrapped when it binds looser than its connective;
- a right operand is wrapped also when it binds equally tight, for chains group to the left.
-/

namespace Sentential

/-- A text in parentheses. -/
def Text.wrap (s : Text) : Text :=
  '(' :: s ++ [')']

/-- A text in parentheses where they are needed. -/
def Text.wrapIf (needed : Bool) (s : Text) : Text :=
  if needed then s.wrap else s

namespace Formula

/-- Whether a formula on the left of a connective is wrapped. -/
def wrapsLeft (op : Connective) (left : Formula) : Bool :=
  left.precedence < op.precedence

/-- Whether a formula on the right of a connective is wrapped. -/
def wrapsRight (op : Connective) (right : Formula) : Bool :=
  right.precedence ≤ op.precedence

/-- The canonical text of a formula. -/
def canonical : Formula → Text
  | .atom name => name
  | .not operand => '¬' :: Text.wrapIf (!operand.isAtom) operand.canonical
  | .binary op left right =>
    Text.wrapIf (wrapsLeft op left) left.canonical ++ [' ', op.glyph, ' ']
      ++ Text.wrapIf (wrapsRight op right) right.canonical

end Formula

end Sentential

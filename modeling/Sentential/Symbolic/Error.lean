import Sentential.Symbolic.Token
import Sentential.Text.Quoted

/-!
# Reading errors

Why a text, or a list of tokens, is no formula. Characters and tokens are counted from 0.
-/

namespace Sentential.Symbolic

/-- The number of levels at which groups and negations, and the resulting tree, may nest. -/
def maxDepth : Nat := 256

/-- Why a text is no formula. -/
inductive ReadError where
  /-- A character with which no token begins. -/
  | invalidSymbol (symbol : Char) (offset : Nat)
  /-- The tokens end where an operand should begin. -/
  | unexpectedEnd
  /-- Something else stands where a group should close. -/
  | unclosedParen (index : Nat)
  /-- A token with which no operand begins. -/
  | unexpectedToken (token : Token) (index : Nat)
  /-- Tokens are left behind a whole formula. -/
  | trailingTokens (index : Nat)
  /-- Groups, negations or the tree nest too deep. -/
  | tooDeep (index : Nat)
deriving DecidableEq, Repr

/-- The wording of an error. -/
def ReadError.message : ReadError → Text
  | .invalidSymbol symbol offset =>
    "Invalid symbol ".toList ++ Text.quoteChar symbol ++ " at offset ".toList ++ Text.ofNat offset
  | .unexpectedEnd => "Unexpected end of formula".toList
  | .unclosedParen index =>
    "Unclosed parenthesis: expected ')' at token ".toList ++ Text.ofNat index
  | .unexpectedToken token index =>
    "Unexpected token ".toList ++ token.kind ++ " at token ".toList ++ Text.ofNat index
  | .trailingTokens index =>
    "Extra tokens after the end of the formula, starting at token ".toList ++ Text.ofNat index
  | .tooDeep index =>
    "Formula nests deeper than ".toList ++ Text.ofNat maxDepth ++ " levels at token ".toList
      ++ Text.ofNat index

end Sentential.Symbolic

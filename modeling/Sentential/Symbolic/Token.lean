import Sentential.Formula.Basic

/-!
# Tokens

The tokens of symbolic text and their one-character spellings. An identifier is an ASCII letter
followed by ASCII letters, digits and underscores, and counts in upper case.
-/

namespace Sentential.Symbolic

/-- A token of symbolic text. -/
inductive Token where
  | identifier (name : Text)
  | not
  | connective (op : Connective)
  | leftParen
  | rightParen
deriving DecidableEq, Repr

/-- Whether a character is an ASCII letter. -/
def isLetter (c : Char) : Bool :=
  ('A' ≤ c && c ≤ 'Z') || ('a' ≤ c && c ≤ 'z')

/-- Whether a character can continue an identifier. -/
def isNameChar (c : Char) : Bool :=
  isLetter c || ('0' ≤ c && c ≤ '9') || c == '_'

namespace Token

/-- The token that one character spells. -/
def ofChar? (c : Char) : Option Token :=
  if c = '¬' ∨ c = '!' ∨ c = '~' then some .not
  else if c = '∧' ∨ c = '&' ∨ c = '^' then some (.connective .and)
  else if c = '∨' ∨ c = '|' then some (.connective .or)
  else if c = '⊕' then some (.connective .xor)
  else if c = '→' then some (.connective .imp)
  else if c = '↔' then some (.connective .iff)
  else if c = '(' then some .leftParen
  else if c = ')' then some .rightParen
  else none

/-- The name of a kind of token. -/
def kind : Token → Text
  | .identifier _ => "IDENTIFIER".toList
  | .not => "NOT".toList
  | .connective op => op.name
  | .leftParen => "LPAREN".toList
  | .rightParen => "RPAREN".toList

/-- The main spelling of a token. -/
def text : Token → Text
  | .identifier name => name
  | .not => ['¬']
  | .connective op => [op.glyph]
  | .leftParen => ['(']
  | .rightParen => [')']

end Token

end Sentential.Symbolic

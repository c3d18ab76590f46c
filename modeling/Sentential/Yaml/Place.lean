import Sentential.Text.Basic

/-!
# Blanks, breaks and places

White space in YAML is made of blanks, which are spaces and tabs, and of line breaks. Texts have
line feeds and the two separators of lines and paragraphs as their only breaks here; `plainBreaks`
sees to that. A place in a text is told by its line, its column, and the bytes before it.
-/

namespace Sentential.Yaml

open Text

/-- A text with a line feed for every line break that is not a separator. -/
def plainBreaks : Text → Text
  | [] => []
  | '\r' :: '\n' :: rest => '\n' :: plainBreaks rest
  | '\r' :: rest => '\n' :: plainBreaks rest
  | '\u0085' :: rest => '\n' :: plainBreaks rest
  | c :: rest => c :: plainBreaks rest

/-- Whether a character may stand in a document at all. -/
def isAllowed (c : Char) : Bool :=
  let n := c.toNat
  n == 0x09 || n == 0x0a || n == 0x0d || (0x20 ≤ n && n ≤ 0x7e) || n == 0x85
  || (0xa0 ≤ n && n ≤ 0xfffd) || 0x10000 ≤ n

/-- Whether a character is a space or a tab. -/
def isBlank (c : Char) : Bool :=
  c == ' ' || c == '\t'

/-- Whether a character breaks a line. -/
def isBreak (c : Char) : Bool :=
  c == '\n' || c == '\u2028' || c == '\u2029'

/-- Whether a character is white space. -/
def isWhite (c : Char) : Bool :=
  isBlank c || isBreak c

/-- Whether a text begins with white space or is at its end. -/
def atGap (s : Text) : Bool :=
  s.head?.all isWhite

/-- Whether a text begins with a line break or is at its end. -/
def atLineEnd (s : Text) : Bool :=
  s.head?.all isBreak

/-- Whether a text at the start of a line begins or ends a document. -/
def atMarker (s : Text) : Bool :=
  ("---".toList.isPrefixOf s || "...".toList.isPrefixOf s) && atGap (s.drop 3)

/-- Whether the place behind some white space is the start of a line. -/
def startsLine (white : Text) : Bool :=
  white.getLast?.any isBreak

/-- What stands in a scalar for the line breaks in white space. A single line feed becomes a space,
and the first of several is left out. -/
def foldBreaks (breaks : Text) : Text :=
  match breaks with
  | ['\n'] => [' ']
  | '\n' :: more => more
  | other => other

/-- What stands in a scalar for white space. Blanks beside a line break are left out. -/
def foldWhite (white : Text) : Text :=
  match white.filter isBreak with
  | [] => white
  | breaks => foldBreaks breaks

/-! ## Places -/

/-- A place in a text. -/
structure Place where
  line : Nat := 0
  column : Nat := 0
  /-- The number of bytes before the place. -/
  byte : Nat := 0
deriving DecidableEq, Repr

/-- The place behind a character. -/
def Place.next (place : Place) (c : Char) : Place :=
  if isBreak c then ⟨place.line + 1, 0, place.byte + c.utf8Size⟩
  else ⟨place.line, place.column + 1, place.byte + c.utf8Size⟩

end Sentential.Yaml

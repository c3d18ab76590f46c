import Sentential.Formula.Basic
import Sentential.Text.Blank

/-!
# Outlines

An outline shows one node of a formula per line, a node before its operands and the left operand
before the right one. A line holds two columns for each level above the node but the topmost, a
branch, the sign of the node and its name:

    └─ → IMP
      ├─ ◦ A: está chovendo
      └─ ¬ NOT
        └─ ◦ B

An atom is followed by its phrase, if it has one, of which at most thirty characters are shown.
-/

namespace Sentential.Formula

/-- The number of characters of a phrase that an outline shows. -/
def phraseWidth : Nat := 30

/-- A text cut after so many characters, with dots for what is missing. -/
def shorten (width : Nat) (s : Text) : Text :=
  if s.length > width then s.take width ++ "...".toList else s

/-- The sign of a node. -/
def icon : Formula → Char
  | .atom _ => '◦'
  | .not _ => '¬'
  | .binary op _ _ => op.glyph

/-- The name of a node: an atom by itself and its phrase, any other by its kind. -/
def caption (phrase? : Text → Option Text) : Formula → Text
  | .atom name =>
    match phrase? name with
    | some phrase => name ++ ": ".toList ++ shorten phraseWidth phrase
    | none => name
  | f => f.kind

/-- The branch to a node, which is the last of its siblings or not. -/
def branch (last : Bool) : Text :=
  if last then "└─ ".toList else "├─ ".toList

/-- The columns that a node adds to the lines of its operands. -/
def column (last : Bool) : Text :=
  if last then "  ".toList else "│ ".toList

/-- The lines of a formula under the given columns. -/
def outlineLines (phrase? : Text → Option Text) (columns : Text) (last : Bool) :
    Formula → List Text
  | f@(.atom _) => [columns ++ branch last ++ [icon f, ' '] ++ caption phrase? f]
  | f@(.not operand) =>
    (columns ++ branch last ++ [icon f, ' '] ++ caption phrase? f)
      :: outlineLines phrase? (columns ++ column last) true operand
  | f@(.binary _ left right) =>
    (columns ++ branch last ++ [icon f, ' '] ++ caption phrase? f)
      :: (outlineLines phrase? (columns ++ column last) false left
        ++ outlineLines phrase? (columns ++ column last) true right)

/-- The outline of a formula, every line with its line feed. -/
def outline (phrase? : Text → Option Text) (f : Formula) : Text :=
  (outlineLines phrase? [] true f).flatMap (· ++ ['\n'])

end Sentential.Formula

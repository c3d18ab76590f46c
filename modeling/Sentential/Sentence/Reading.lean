import Sentential.Formula.Canonical
import Sentential.Text.Blank
import Sentential.Text.Lower
import Sentential.Text.WordChar

/-!
# Reading a formula in Portuguese

An atom reads as its phrase, or as its name if it has none. An operand whose own reading holds a
connecting word or a comma is set in parentheses; its text decides, not its tree.
-/

namespace Sentential.Formula

open Text

/-- The words that tell an operand to be set in parentheses. -/
def connectingWords : List Text :=
  ["e".toList, "ou".toList, "então".toList, "somente".toList, "ambos".toList]

/-- Whether a text in lower case holds a connecting word or a comma. -/
def connects (s : Text) : Bool :=
  s.contains ',' || (wordRuns s).any fun word => connectingWords.contains word

/-- The reading of an operand from its own reading. -/
def operandText (s : Text) : Text :=
  wrapIf (connects (lower s)) s

/-- The reading of a formula. -/
def reading (phrase? : Text → Option Text) : Formula → Text
  | .atom name => (phrase? name).getD name
  | .not operand => "Não é verdade que ".toList ++ operandText (operand.reading phrase?)
  | .binary op left right =>
    let x := operandText (left.reading phrase?)
    let y := operandText (right.reading phrase?)
    match op with
    | .and => x ++ " e ".toList ++ y
    | .or => x ++ " ou ".toList ++ y
    | .xor => x ++ " ou ".toList ++ y ++ " (mas não ambos)".toList
    | .imp => "Se ".toList ++ x ++ ", então ".toList ++ y
    | .iff => x ++ " se e somente se ".toList ++ y

end Sentential.Formula

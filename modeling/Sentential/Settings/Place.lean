import Sentential.Settings.Value
import Sentential.Text.Decimal

/-!
# Written places

The place of a setting is written as keys with points between them and, behind a key, indices in
brackets: `dictionary.default[0].phrase`. A key has letters, digits, underscores, hyphens and
spaces, and at least one of them.
-/

namespace Sentential.Setting

open Text

/-- Whether a character can stand in a key of a written place. -/
def isKeyChar (c : Char) : Bool :=
  ('A' ≤ c && c ≤ 'Z') || ('a' ≤ c && c ≤ 'z') || isDigit c || c == '_' || c == '-' || c == ' '

/-- A text without the spaces and tabs at its ends. -/
def dropSpaces (s : Text) : Text :=
  let isSpace := fun c => c == ' ' || c == '\t'
  ((s.dropWhile isSpace).reverse.dropWhile isSpace).reverse

/-- A written index, which fits into 64 bits. -/
def index? (s : Text) : Option Int :=
  let number (negative : Bool) (digits : Text) : Option Int :=
    let n : Int := if negative then -(digitsValue digits : Int) else digitsValue digits
    if digits.isEmpty || !digits.all isDigit then none
    else if fitsWord n then some n
    else none
  match dropSpaces s with
  | '-' :: digits => number true digits
  | digits => number false digits

/-- The turns behind the first key of a written place. -/
def readTurns? (s : Text) : Option (List Turn) :=
  match s with
  | [] => some []
  | c :: rest =>
    if c = '.' then
      match rest.takeWhile isKeyChar with
      | [] => none
      | name => (readTurns? (rest.dropWhile isKeyChar)).map (.key name :: ·)
    else if c = '[' then
      let closed := rest.dropWhile (· != ']')
      if closed.isEmpty then none
      else
        match index? (rest.takeWhile (· != ']')) with
        | none => none
        | some index => (readTurns? (closed.drop 1)).map (.item index :: ·)
    else none
termination_by s.length
decreasing_by
  · have := (List.dropWhile_suffix isKeyChar (l := rest)).length_le
    simp only [List.length_cons]
    omega
  · have := (List.dropWhile_suffix (· != ']') (l := rest)).length_le
    simp only [List.length_cons, List.length_drop]
    omega

/-- The place that a text writes. -/
def readPlace? (s : Text) : Option (List Turn) :=
  match s.takeWhile isKeyChar with
  | [] => none
  | name => (readTurns? (s.dropWhile isKeyChar)).map (.key name :: ·)

end Sentential.Setting

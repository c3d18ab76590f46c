import Sentential.Text.Decimal

/-!
# Numbers

Single underscores may part the digits of a number. Integers have 64 bits; they are written to the
base 10, with a sign or not, or to the base 16, 8 or 2. A number with a point or a power of ten is
rounded to double precision, and counts as the text that writes the result.
-/

namespace Sentential.Toml

open Text

/-- The number that digits of a base spell, which single underscores may part. -/
def readDigits? (base : Nat) (s : Text) : Option Nat :=
  let groups := splitOn ['_'] s
  let value? (c : Char) : Option Nat := (hexValue? c).filter (· < base)
  if groups.any List.isEmpty then none
  else (groups.flatten.mapM value?).map fun values => values.foldl (fun n v => base * n + v) 0

/-- A decimal number without its sign, which has no needless zero in front. -/
def readDecimal? (s : Text) : Option Nat :=
  match s with
  | '0' :: _ :: _ => none
  | _ => readDigits? 10 s

/-- The integer that a word spells. -/
def readInteger? (s : Text) : Option Int :=
  let value? : Option Int :=
    match s with
    | '0' :: 'x' :: digits => (readDigits? 16 digits).map Int.ofNat
    | '0' :: 'o' :: digits => (readDigits? 8 digits).map Int.ofNat
    | '0' :: 'b' :: digits => (readDigits? 2 digits).map Int.ofNat
    | '+' :: digits => (readDecimal? digits).map Int.ofNat
    | '-' :: digits => (readDecimal? digits).map fun n => -(n : Int)
    | digits => (readDecimal? digits).map Int.ofNat
  value?.filter fitsWord

/-- Whether a text is made of digits, which single underscores may part. -/
def areDigits (s : Text) : Bool :=
  (readDigits? 10 s).isSome

/-- Whether a text without its sign is a number with a point or a power of ten. -/
def isFractional (s : Text) : Bool :=
  let isLetter (c : Char) : Bool := c == 'e' || c == 'E'
  let mantissa := s.takeWhile fun c => !isLetter c
  let fraction := mantissa.dropWhile (· != '.')
  let power := s.dropWhile fun c => !isLetter c
  (readDecimal? (mantissa.takeWhile (· != '.'))).isSome
  && (fraction.isEmpty || areDigits (fraction.drop 1))
  && (match power.drop 1 with
    | '+' :: digits => areDigits digits
    | '-' :: digits => areDigits digits
    | digits => power.isEmpty || areDigits digits)
  && !(fraction.isEmpty && power.isEmpty)

/-- The text of a number that is no integer, as a word spells it without its sign. None is given for
one that is too large. -/
def magnitude? (s : Text) : Option Text :=
  let number := s.filter (· != '_')
  if outOfRange number then none else some (shortestDecimal number)

/-- The text of the number that a word spells, if it is no integer. A negative one that is too large
is infinite, but a positive one is none. -/
def readFraction? (s : Text) : Option Text :=
  let unsigned :=
    match s with
    | '+' :: rest => rest
    | '-' :: rest => rest
    | _ => s
  let negative := s.head? == some '-'
  if unsigned = "nan".toList then some "NaN".toList
  else
    let signed (text : Text) : Text := if negative then '-' :: text else text
    if unsigned = "inf".toList then some (signed "inf".toList)
    else if isFractional unsigned then
      match magnitude? unsigned with
      | some text => some (signed text)
      | none => if negative then some (signed "inf".toList) else none
    else none

end Sentential.Toml

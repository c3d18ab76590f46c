import Sentential.Double
import Sentential.Text.Decimal

/-!
# The range of numbers in JSON text

A number is taken as a significand of 64 bits and a power of ten. Digits that the significand has
no room for are dropped, and those before the point raise the power. The significand and the power
are rounded to double precision before they are multiplied, and their product has to be a number of
double precision, too.
-/

namespace Sentential.Json

open Text

/-- A significand with further digits, as long as it has room for them, and the digits that are
left. -/
def takeDigits (significand : Nat) : Text → Nat × Text
  | [] => (significand, [])
  | c :: rest =>
    let longer := 10 * significand + (c.toNat - '0'.toNat)
    if longer < 1 <<< 64 then takeDigits longer rest else (significand, c :: rest)

/-- The significand of a written number and its power of ten. -/
def significandAndPower (number : Text) : Nat × Int :=
  let magnitude := number.dropWhile (· == '-')
  let behind := magnitude.dropWhile isDigit
  let fraction : Text :=
    match behind with
    | '.' :: digits => digits.takeWhile isDigit
    | _ => []
  let power : Int :=
    match (behind.dropWhile fun c => c != 'e' && c != 'E').drop 1 with
    | '-' :: digits => -(digitsValue digits : Int)
    | '+' :: digits => digitsValue digits
    | digits => digitsValue digits
  let (whole, dropped) := takeDigits 0 (magnitude.takeWhile isDigit)
  let (significand, left) := takeDigits whole fraction
  (significand, power + dropped.length + left.length - fraction.length)

/-- Whether a written number is beyond the numbers of double precision. -/
def isTooLarge (number : Text) : Bool :=
  let (significand, power) := significandAndPower number
  if significand = 0 ∨ power < 0 then false
  else if 308 < power then true
  else Double.bound ≤ Double.round significand * Double.round (Nat.pow 10 power.toNat)

end Sentential.Json

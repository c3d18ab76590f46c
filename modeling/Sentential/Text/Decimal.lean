import Sentential.Double
import Sentential.Text.Basic

/-!
# Written numbers

Digits, and numbers in decimal notation: an optional sign, digits with an optional point among them,
and an optional power of ten. Such a number is beyond the numbers of double precision
(`outOfRange`) or has a nearest one among them, which is written with the fewest digits and without
a power of ten (`shortestDecimal`).
-/

namespace Sentential.Text

/-- Whether a character is a decimal digit. -/
def isDigit (c : Char) : Bool :=
  '0' ≤ c && c ≤ '9'

/-- The value of a hexadecimal digit. -/
def hexValue? (c : Char) : Option Nat :=
  if '0' ≤ c ∧ c ≤ '9' then some (c.toNat - '0'.toNat)
  else if 'a' ≤ c ∧ c ≤ 'f' then some (c.toNat - 'a'.toNat + 10)
  else if 'A' ≤ c ∧ c ≤ 'F' then some (c.toNat - 'A'.toNat + 10)
  else none

/-- The number that decimal digits spell. -/
def digitsValue (digits : Text) : Nat :=
  digits.foldl (fun n c => 10 * n + (c.toNat - '0'.toNat)) 0

/-- Whether an integer fits into 64 bits with a sign. -/
def fitsWord (n : Int) : Bool :=
  -0x8000000000000000 ≤ n && n < 0x8000000000000000

/-- The mantissa of a written number without its point, and the power of ten it is taken to. -/
def decimalParts (number : Text) : Nat × Int :=
  let magnitude := number.dropWhile fun c => c == '-' || c == '+'
  let mantissa := magnitude.takeWhile fun c => c != 'e' && c != 'E'
  let exponent := (magnitude.dropWhile fun c => c != 'e' && c != 'E').drop 1
  let power : Int :=
    match exponent with
    | '-' :: digits => -(digitsValue digits : Int)
    | '+' :: digits => digitsValue digits
    | digits => digitsValue digits
  let fraction := (mantissa.dropWhile (· != '.')).drop 1
  (digitsValue (mantissa.filter (· != '.')), power - fraction.length)

/-- Whether a written number lies beyond the numbers of double precision. -/
def outOfRange (number : Text) : Bool :=
  let (mantissa, power) := decimalParts number
  if mantissa = 0 then false
  else if power > 400 then true
  else if power < 0 then
    -- a mantissa with fewer digits than that cannot reach the bound
    (number.length : Int) + power ≥ 300 && mantissa ≥ Double.bound * Nat.pow 10 power.natAbs
  else mantissa * Nat.pow 10 power.toNat ≥ Double.bound

/-- Digits times a power of ten, written without the power. -/
def positional (digits : Nat) (power : Int) : Text :=
  let written := ofNat digits
  if 0 ≤ power then written ++ List.replicate power.toNat '0'
  else
    let places := power.natAbs
    let padded := List.replicate (places + 1 - written.length) '0' ++ written
    padded.take (padded.length - places) ++ ['.'] ++ padded.drop (padded.length - places)

/-- The shortest decimal text of the number of double precision that is nearest to a written number,
both without their signs. -/
def shortestDecimal (number : Text) : Text :=
  let (mantissa, power) := decimalParts number
  -- below half of the least positive number, whatever its digits are
  let units := if (number.length : Int) + power < -330 then 0 else Double.nearest mantissa power
  if units = 0 then ['0']
  else
    let (digits, power) := Double.shortest units
    positional digits power

end Sentential.Text

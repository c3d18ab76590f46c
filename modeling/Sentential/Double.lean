/-!
# Numbers of double precision

Double precision holds 53 binary digits. A number with more of them is rounded to the nearest one
that can be held, and a tie goes to the even one. Numbers that are not whole are told in units of
the least positive number of double precision, which is two to the −1074; none of them has a
negative sign.
-/

namespace Sentential.Double

/-- The multiple of a power of two that is nearest to a number. -/
def roundOff (exponent n : Nat) : Nat :=
  let kept := n >>> exponent
  let rest := n - (kept <<< exponent)
  let unit := 1 <<< exponent
  let up := unit < 2 * rest || (2 * rest == unit && kept % 2 == 1)
  (if up then kept + 1 else kept) <<< exponent

/-- The whole number of double precision that is nearest to a number. -/
def round (n : Nat) : Nat :=
  roundOff (n.log2 - 52) n

/-- The least number that is beyond all numbers of double precision: it lies halfway between the
largest of them and two to the 1024. -/
def bound : Nat :=
  (1 <<< 1024) - (1 <<< 970)

/-- The number of double precision that is nearest to some digits times a power of ten, in units.
Two more binary digits are computed, the last of which also stands for all that follow. -/
def nearest (digits : Nat) (power : Int) : Nat :=
  let numerator := (if 0 ≤ power then digits * Nat.pow 10 power.toNat else digits) <<< 1076
  let denominator := if 0 ≤ power then 1 else Nat.pow 10 power.natAbs
  let quotient := numerator / denominator
  let quarters := if numerator % denominator = 0 then quotient else quotient ||| 1
  roundOff (max 2 (quarters.log2 - 52)) quarters >>> 2

/-- The digits of a number of units to a power of ten, if some read back as that number. Of the two
candidates beside it, the nearer one is taken if it does, and the greater one is in a tie. -/
def digitsAt? (units : Nat) (power : Int) : Option Nat :=
  let numerator := if 0 ≤ power then units else units * Nat.pow 10 power.natAbs
  let denominator := (if 0 ≤ power then Nat.pow 10 power.toNat else 1) <<< 1074
  let low := numerator / denominator
  let candidates :=
    if 2 * numerator < (2 * low + 1) * denominator then [low, low + 1] else [low + 1, low]
  candidates.find? fun digits => nearest digits power = units

/-- The fewest digits that read back as a positive number of units, and their power of ten. Every
number ends at the 1074th place behind the point, if not before. -/
def shortest (units : Nat) : Nat × Int :=
  let powers := (List.range 1384).map fun (k : Nat) => (309 : Int) - k
  (powers.findSome? fun power => (digitsAt? units power).map fun digits => (digits, power)).getD
    (0, 0)

end Sentential.Double

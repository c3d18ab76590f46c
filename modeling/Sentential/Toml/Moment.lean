import Sentential.Text.Decimal

/-!
# Dates and times

A moment is a date, a time of the day, or a date with a time, to which the offset of its time zone
may be added. `Moment.text` writes it in one way: with a `T` between the date and the time, with no
more than nine digits of a second, and without zeros at the end of them.
-/

namespace Sentential.Toml

open Text

/-- A day of the calendar. -/
structure Date where
  year : Nat
  month : Nat
  day : Nat
deriving DecidableEq, Repr

/-- A time of the day. -/
structure Time where
  hour : Nat
  minute : Nat
  second : Nat
  /-- The digits of the fraction of a second. -/
  fraction : Text
deriving DecidableEq, Repr

/-- How far a time zone is from universal time. -/
inductive Zone where
  | universal
  | offset (minutes : Int)
deriving DecidableEq, Repr

/-- A moment. -/
inductive Moment where
  | day (date : Date)
  | clock (time : Time)
  | both (date : Date) (time : Time) (zone : Option Zone)
deriving DecidableEq, Repr

/-! ## Reading -/

/-- A number with a fixed count of digits, which lies between two others, and what stands behind
it. -/
def readField? (width low high : Nat) (s : Text) : Option (Nat × Text) :=
  let digits := s.take width
  let value := digitsValue digits
  if digits.length = width ∧ digits.all isDigit ∧ low ≤ value ∧ value ≤ high then
    some (value, s.drop width)
  else none

/-- What stands behind a character, which has to be there. -/
def behind? (c : Char) (s : Text) : Option Text :=
  match s with
  | [] => none
  | d :: rest => if d = c then some rest else none

/-- The number of days in a month. Every fourth year is a leap year, but of those that end a century
only every fourth. -/
def daysIn (year month : Nat) : Nat :=
  if month = 2 then
    if year % 4 = 0 ∧ (year % 100 ≠ 0 ∨ year % 400 = 0) then 29 else 28
  else if month = 4 ∨ month = 6 ∨ month = 9 ∨ month = 11 then 30
  else 31

/-- A date, and what stands behind it. -/
def Date.read? (s : Text) : Option (Date × Text) := do
  let (year, s) ← readField? 4 0 9999 s
  let s ← behind? '-' s
  let (month, s) ← readField? 2 1 12 s
  let s ← behind? '-' s
  let (day, s) ← readField? 2 1 (daysIn year month) s
  return (⟨year, month, day⟩, s)

/-- The digits of a fraction, and what stands behind them. None have to be there. -/
def readFractionDigits? (s : Text) : Option (Text × Text) :=
  match s with
  | '.' :: rest =>
    let digits := rest.takeWhile isDigit
    if digits.isEmpty then none else some (digits, rest.dropWhile isDigit)
  | _ => some ([], s)

/-- A time of the day, and what stands behind it. A minute can have a leap second. -/
def Time.read? (s : Text) : Option (Time × Text) := do
  let (hour, s) ← readField? 2 0 23 s
  let s ← behind? ':' s
  let (minute, s) ← readField? 2 0 59 s
  let s ← behind? ':' s
  let (second, s) ← readField? 2 0 60 s
  let (fraction, s) ← readFractionDigits? s
  return (⟨hour, minute, second, fraction⟩, s)

/-- The time zone that a text spells. -/
def Zone.read? (s : Text) : Option Zone :=
  let minutes? (s : Text) : Option Int := do
    let (hours, s) ← readField? 2 0 23 s
    let s ← behind? ':' s
    let (minutes, s) ← readField? 2 0 59 s
    if s.isEmpty then some (60 * hours + minutes : Nat) else none
  match s with
  | ['Z'] => some .universal
  | ['z'] => some .universal
  | '+' :: rest => (minutes? rest).map .offset
  | '-' :: rest => (minutes? rest).map fun minutes => .offset (-minutes)
  | _ => none

/-- The moment that a text spells. A blank or a letter parts the time from the date. -/
def Moment.read? (s : Text) : Option Moment :=
  match Date.read? s with
  | none =>
    match Time.read? s with
    | some (time, []) => some (.clock time)
    | _ => none
  | some (date, []) => some (.day date)
  | some (date, c :: rest) =>
    if c = 'T' ∨ c = 't' ∨ c = ' ' then
      match Time.read? rest with
      | none => none
      | some (time, []) => some (.both date time none)
      | some (time, zone) => (Zone.read? zone).map fun zone => .both date time (some zone)
    else none

/-! ## Writing -/

/-- A number with a fixed count of digits. -/
def padded (width n : Nat) : Text :=
  List.replicate (width - (ofNat n).length) '0' ++ ofNat n

/-- The text of a date. -/
def Date.text (date : Date) : Text :=
  padded 4 date.year ++ ['-'] ++ padded 2 date.month ++ ['-'] ++ padded 2 date.day

/-- The text of a fraction of a second. -/
def fractionText (fraction : Text) : Text :=
  match ((fraction.take 9).reverse.dropWhile (· == '0')).reverse with
  | [] => []
  | digits => '.' :: digits

/-- The text of a time of the day. -/
def Time.text (time : Time) : Text :=
  padded 2 time.hour ++ [':'] ++ padded 2 time.minute ++ [':'] ++ padded 2 time.second
  ++ fractionText time.fraction

/-- The text of a time zone. -/
def Zone.text : Zone → Text
  | .universal => ['Z']
  | .offset minutes =>
    (if minutes < 0 then '-' else '+')
      :: (padded 2 (minutes.natAbs / 60) ++ [':'] ++ padded 2 (minutes.natAbs % 60))

/-- The text of a moment. -/
def Moment.text : Moment → Text
  | .day date => date.text
  | .clock time => time.text
  | .both date time zone =>
    date.text ++ ['T'] ++ time.text
    ++ match zone with
      | some zone => zone.text
      | none => []

end Sentential.Toml

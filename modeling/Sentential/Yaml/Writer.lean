import Sentential.Text.Basic
import Sentential.Text.Decimal

/-!
# Writing YAML

A mapping of texts is written with one line for each entry. A text stands plain where it would be
read back as that text. It is set in single quotes if it would be read as something else, and in
double quotes if it holds a character that cannot be shown.
-/

namespace Sentential.Yaml

open Text

/-! ## What a plain text would be read as -/

/-- Whether a plain text reads as nothing or as a truth value. -/
def readsAsWord (s : Text) : Bool :=
  [ "", "~", "null", "Null", "NULL", "true", "True", "TRUE", "false", "False", "FALSE" ].any
    fun word => word.toList == s

/-- A text without one sign at its front. -/
def dropSign (s : Text) : Text :=
  match s with
  | '+' :: rest => rest
  | '-' :: rest => rest
  | _ => s

/-- Whether digits of a base are given, and a number below the limit. -/
def digitsBelow (base limit : Nat) (s : Text) : Bool :=
  match s.mapM fun c => (hexValue? c).filter (· < base) with
  | none => false
  | some values => !values.isEmpty && values.foldl (fun n v => base * n + v) 0 < limit

/-- Whether a plain text reads as an integer that is written to the base 16, 8 or 2. It fits into
128 bits. -/
def readsAsBased (s : Text) : Bool :=
  let limit := if s.head? = some '-' then (1 <<< 127) + 1 else 1 <<< 128
  match dropSign s with
  | '0' :: 'x' :: digits => digitsBelow 16 limit digits
  | '0' :: 'o' :: digits => digitsBelow 8 limit digits
  | '0' :: 'b' :: digits => digitsBelow 2 limit digits
  | _ => false

/-- Whether a text is a decimal number without its sign. -/
def isDecimal (s : Text) : Bool :=
  let mantissa := s.takeWhile fun c => c != 'e' && c != 'E'
  let whole := mantissa.takeWhile isDigit
  let exponent := s.dropWhile fun c => c != 'e' && c != 'E'
  let fraction := mantissa.dropWhile isDigit
  (match fraction with
    | [] => !whole.isEmpty
    | '.' :: digits => digits.all isDigit && !(whole.isEmpty && digits.isEmpty)
    | _ => false)
  && (match exponent with
    | [] => true
    | _ :: power => !(dropSign power).isEmpty && (dropSign power).all isDigit)

/-- Whether a plain text reads as a decimal number, or as one beyond all numbers. -/
def readsAsDecimal (s : Text) : Bool :=
  (isDecimal (dropSign s) && !outOfRange s)
  || [".inf", ".Inf", ".INF"].any (fun word => word.toList == dropSign s)
  || [".nan", ".NaN", ".NAN"].any fun word => word.toList == s

/-- Whether a text is a zero with more digits behind it, after a sign or not. -/
def isPadded (s : Text) : Bool :=
  match dropSign s with
  | '0' :: c :: rest => (c :: rest).all isDigit
  | _ => false

/-- Whether a plain text would be read as something else than a text. -/
def readsOtherwise (s : Text) : Bool :=
  readsAsWord s || readsAsBased s || readsAsDecimal s || isPadded s

/-! ## What cannot stand plain -/

/-- Whether a place is a blank or the end. -/
def isGap (c : Option Char) : Bool :=
  c.all fun c => c == ' ' || c == '\t' || c == '\n'

/-- The characters with which no plain text begins. -/
def indicators : Text :=
  "#,[]\x7b\x7d&*!|>\x27\x22%@\x60".toList

/-- Whether a text begins in a way that no plain text does. -/
def beginsSpecial (s : Text) : Bool :=
  match s with
  | [] => false
  | c :: rest =>
    indicators.contains c
    || ((c == '-' || c == '?' || c == ':') && isGap rest.head?)
    || "---".toList.isPrefixOf s || "...".toList.isPrefixOf s

/-- Whether something inside a text would end it if it stood plain: a colon before a blank or the
end, or a number sign behind a blank. -/
def breaksOff : Text → Bool
  | [] => false
  | c :: rest =>
    (c == ':' && isGap rest.head?) || (c == ' ' && rest.head? == some '#') || breaksOff rest

/-- Whether a character can be shown. -/
def isPrintable (c : Char) : Bool :=
  let n := c.toNat
  n == 0x0a || (0x20 ≤ n && n ≤ 0x7e) || (0xa0 ≤ n && n != 0xfeff && n != 0xfffe && n != 0xffff)

/-! ## Scalars and mappings -/

/-- The digits of a number to the base 16, in capitals, filled up with zeros. -/
def hexDigits (width n : Nat) : Text :=
  let digits := (Nat.toDigits 16 n).map Char.toUpper
  List.replicate (width - digits.length) '0' ++ digits

/-- A character inside double quotes. -/
def escapeChar (c : Char) : Text :=
  let short (d : Char) : Text := ['\\', d]
  if c = '\x00' then short '0'
  else if c = '\x07' then short 'a'
  else if c = '\x08' then short 'b'
  else if c = '\t' then short 't'
  else if c = '\n' then short 'n'
  else if c = '\x0b' then short 'v'
  else if c = '\x0c' then short 'f'
  else if c = '\r' then short 'r'
  else if c = '\x1b' then short 'e'
  else if c = '\x22' then short '\x22'
  else if c = '\\' then short '\\'
  else if c = '\u0085' then short 'N'
  else if isPrintable c then [c]
  else if c.toNat ≤ 0xff then ['\\', 'x'] ++ hexDigits 2 c.toNat
  else ['\\', 'u'] ++ hexDigits 4 c.toNat

/-- A text as a scalar. -/
def scalar (s : Text) : Text :=
  if s.any fun c => !isPrintable c then ['\x22'] ++ s.flatMap escapeChar ++ ['\x22']
  else if readsOtherwise s || beginsSpecial s || breaksOff s then
    ['\x27'] ++ s.flatMap (fun c => if c = '\x27' then ['\x27', '\x27'] else [c]) ++ ['\x27']
  else s

/-- A mapping of texts. -/
def mapping (entries : List (Text × Text)) : Text :=
  match entries with
  | [] => "\x7b\x7d\n".toList
  | _ => entries.flatMap fun entry => scalar entry.1 ++ ": ".toList ++ scalar entry.2 ++ ['\n']

end Sentential.Yaml

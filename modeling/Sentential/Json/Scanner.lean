import Sentential.Json.Number
import Sentential.Text.Scanned

/-!
# The words of JSON text

Readers for the pieces of JSON text that hold no others: strings, numbers and the three words. Each
takes its piece from the front of a text and returns the rest, which is shorter. Reading goes from
left to right and stops at the first fault.
-/

namespace Sentential.Json

open Text

/-- What is wrong with JSON text. -/
inductive Fault where
  /-- The text ends too early. -/
  | unfinished
  /-- Something stands where it cannot. -/
  | malformed
  /-- A proper value, of a kind that is not wanted where it stands. -/
  | mistyped
deriving DecidableEq, Repr

/-- Whether a character may stand between the pieces. -/
def isSpace (c : Char) : Bool :=
  c == ' ' || c == '\n' || c == '\t' || c == '\r'

/-- The text behind the spaces at its front. -/
def skipSpace (s : Text) : Remainder s :=
  .dropWhile isSpace s

/-- The first character that is no space. -/
def nextChar? (s : Text) : Option (Scanned Char s) :=
  match s with
  | [] => none
  | c :: rest =>
    if isSpace c then (nextChar? rest).map fun next => next.behind c
    else some (.one c)

/-! ## Strings -/

/-- The number that four hexadecimal digits spell. A text with less than four bytes ends too
early, whatever its characters are. -/
def readHex (s : Text) : Except Fault (Scanned Nat s) :=
  match s with
  | a :: b :: c :: d :: rest =>
    match hexValue? a, hexValue? b, hexValue? c, hexValue? d with
    | some w, some x, some y, some z =>
      .ok ⟨((w * 16 + x) * 16 + y) * 16 + z, rest, by simp only [List.length_cons]; omega⟩
    | _, _, _, _ => .error .malformed
  | short => if Text.byteLength short < 4 then .error .unfinished else .error .malformed

/-- Whether a number stands for the first half of a character. -/
def isHighHalf (n : Nat) : Bool := 0xD800 ≤ n && n < 0xDC00

/-- Whether a number stands for the second half of a character. -/
def isLowHalf (n : Nat) : Bool := 0xDC00 ≤ n && n < 0xE000

/-- The second half of a character, after the first one. -/
def readLowHalf (high : Nat) (s : Text) : Except Fault (Scanned Char s) :=
  match s with
  | [] => .error .unfinished
  | ['\\'] => .error .unfinished
  | '\\' :: 'u' :: rest =>
    match readHex rest with
    | .error fault => .error fault
    | .ok low =>
      if isLowHalf low.value then
        let code := 0x10000 + (high - 0xD800) * 0x400 + (low.value - 0xDC00)
        .ok (((low.map fun _ => Char.ofNat code).behind 'u').behind '\\')
      else .error .malformed
  | _ => .error .malformed

/-- The character that stands behind `\u`. -/
def readCode (s : Text) : Except Fault (Scanned Char s) :=
  match readHex s with
  | .error fault => .error fault
  | .ok code =>
    if isLowHalf code.value then .error .malformed
    else if isHighHalf code.value then
      match readLowHalf code.value code.rest with
      | .error fault => .error fault
      | .ok c => .ok (code.followedBy c)
    else .ok (code.map Char.ofNat)

/-- The character that a letter behind a backslash stands for. -/
def shortEscape? (c : Char) : Option Char :=
  if c = '\x22' ∨ c = '\\' ∨ c = '/' then some c
  else if c = 'b' then some '\x08'
  else if c = 'f' then some '\x0c'
  else if c = 'n' then some '\n'
  else if c = 'r' then some '\r'
  else if c = 't' then some '\t'
  else none

/-- The character that stands behind a backslash. -/
def readEscape (s : Text) : Except Fault (Scanned Char s) :=
  match s with
  | [] => .error .unfinished
  | c :: rest =>
    match shortEscape? c with
    | some d => .ok (.one d)
    | none =>
      if c = 'u' then
        match readCode rest with
        | .error fault => .error fault
        | .ok d => .ok (d.behind c)
      else .error .malformed

/-- The rest of a string, behind its opening quote. -/
def readString (s : Text) : Except Fault (Scanned Text s) :=
  match s with
  | [] => .error .unfinished
  | c :: rest =>
    if c = '\x22' then .ok (.one [])
    else if c = '\\' then
      match readEscape rest with
      | .error fault => .error fault
      | .ok d =>
        match readString d.rest with
        | .error fault => .error fault
        | .ok text => .ok (((d.followedBy text).map (d.value :: ·)).behind c)
    else if c.toNat < 0x20 then .error .malformed
    else
      match readString rest with
      | .error fault => .error fault
      | .ok text => .ok ((text.map (c :: ·)).behind c)
termination_by s.length
decreasing_by
  · exact d.rest_lt_cons c
  · exact Nat.lt_succ_self _

/-! ## Numbers -/

/-- The text behind its leading digits. -/
def skipDigits (s : Text) : Remainder s :=
  .dropWhile isDigit s

/-- The text behind one sign, if one stands at its front. -/
def skipSign (s : Text) : Remainder s :=
  match s with
  | [] => .all []
  | sign :: rest =>
    if sign = '+' ∨ sign = '-' then (Remainder.all rest).behind sign else .all (sign :: rest)

/-- The text behind an exponent, if one stands at its front. -/
def skipExponent (s : Text) : Except Fault (Remainder s) :=
  match s with
  | [] => .ok (.all [])
  | e :: rest =>
    if e = 'e' ∨ e = 'E' then
      let digits := skipSign rest
      match digits.val.head? with
      | none => .error .unfinished
      | some c =>
        if isDigit c then .ok ((digits.followedBy (skipDigits digits.val)).behind e)
        else .error .malformed
    else .ok (.all (e :: rest))

/-- The text behind a fraction and an exponent, if they stand at its front. -/
def skipFraction (s : Text) : Except Fault (Remainder s) :=
  match s with
  | [] => .ok (.all [])
  | point :: rest =>
    if point = '.' then
      match rest.head? with
      | none => .error .unfinished
      | some c =>
        if isDigit c then
          match skipExponent (skipDigits rest).val with
          | .error fault => .error fault
          | .ok after => .ok (((skipDigits rest).followedBy after).behind point)
        else .error .malformed
    else skipExponent (point :: rest)

/-- Passes a number without its sign. No digit may follow a leading zero. -/
def skipMagnitude (s : Text) : Except Fault (Scanned Unit s) :=
  match s with
  | [] => .error .unfinished
  | c :: rest =>
    if c = '0' ∧ rest.head?.any isDigit then .error .malformed
    else if isDigit c then
      match skipFraction (skipDigits rest).val with
      | .error fault => .error fault
      | .ok after => .ok (((skipDigits rest).followedBy after).piece c ())
    else .error .malformed

/-- Passes a number. -/
def skipNumber (s : Text) : Except Fault (Scanned Unit s) :=
  match s with
  | '-' :: magnitude =>
    match skipMagnitude magnitude with
    | .error fault => .error fault
    | .ok number => .ok (number.behind '-')
  | magnitude => skipMagnitude magnitude

/-- A number, which is kept as it is written. -/
def readNumber (s : Text) : Except Fault (Scanned Text s) :=
  match skipNumber s with
  | .error fault => .error fault
  | .ok number =>
    let written := s.take (s.length - number.rest.length)
    if isTooLarge written then .error .malformed else .ok (number.map fun _ => written)

/-! ## Words -/

/-- The text behind a word that has to stand at its front. -/
def skipWord (word s : Text) : Except Fault (Remainder s) :=
  match word, s with
  | [], s => .ok (.all s)
  | _ :: _, [] => .error .unfinished
  | w :: ws, c :: rest =>
    if c = w then
      match skipWord ws rest with
      | .error fault => .error fault
      | .ok after => .ok (after.behind c)
    else .error .malformed

end Sentential.Json

import Sentential.Text.Decimal
import Sentential.Toml.Space

/-!
# Texts in quotes

Double quotes allow escapes, single quotes do not. A text between three quotes can have line breaks,
and may begin with one that does not belong to it; one or two quotes inside it, also before the
closing ones, are part of it.
-/

namespace Sentential.Toml

open Text

/-! ## Escapes -/

/-- The character whose code point is written with a number of hexadecimal digits. -/
def readCode? (digits : Nat) (s : Text) : Option Char :=
  let written := s.take digits
  if written.length = digits then
    match written.mapM hexValue? with
    | some values =>
      let code := values.foldl (fun n v => 16 * n + v) 0
      if code.isValidChar then some (Char.ofNat code) else none
    | none => none
  else none

/-- The character that a letter behind a backslash stands for. -/
def shortEscape? (c : Char) : Option Char :=
  let table : List (Char × Char) :=
    [ ('b', '\x08'), ('t', '\t'), ('n', '\n'), ('f', '\x0c'), ('r', '\r'), ('\x22', '\x22'),
      ('\\', '\\') ]
  table.lookup c

/-- The character behind a backslash. -/
def readEscape? (s : Text) : Option (Scanned Char s) :=
  match s with
  | [] => none
  | c :: rest =>
    let coded (digits : Nat) : Option (Scanned Char (c :: rest)) :=
      (readCode? digits rest).map fun d => (Remainder.drop digits rest).piece c d
    match shortEscape? c with
    | some d => some (.one d)
    | none => if c = 'u' then coded 4 else if c = 'U' then coded 8 else none

/-! ## Texts on one line -/

/-- The rest of a text in double quotes. -/
def readBasic? (s : Text) : Option (Scanned Text s) :=
  match s with
  | [] => none
  | c :: rest =>
    if c = '\x22' then some (.one [])
    else if c = '\\' then
      match readEscape? rest with
      | none => none
      | some d =>
        (readBasic? d.rest).map fun text => ((d.followedBy text).map (d.value :: ·)).behind c
    else if isPlain c then (readBasic? rest).map fun text => (text.map (c :: ·)).behind c
    else none
termination_by s.length
decreasing_by
  · exact d.rest_lt_cons c
  · exact Nat.lt_succ_self _

/-- The rest of a text in single quotes. -/
def readLiteral? (s : Text) : Option (Scanned Text s) :=
  match s with
  | [] => none
  | c :: rest =>
    if c = '\x27' then some (.one [])
    else if isPlain c then (readLiteral? rest).map fun text => (text.map (c :: ·)).behind c
    else none

/-! ## Texts on several lines -/

/-- Three quotes or more at the front of a text. The last three close it, but no more than two
before them belong to it. -/
def closing? (quote : Char) (s : Text) : Option (Scanned Text s) :=
  match s with
  | c :: d :: e :: rest =>
    if c = quote ∧ d = quote ∧ e = quote then
      let more := (rest.take 2).takeWhile (· == quote)
      some ((((Remainder.drop more.length rest).behind e).behind d).piece c more)
    else none
  | _ => none

/-- The space behind a backslash at the end of a line. It goes on over the lines that follow. -/
def skipFold? (s : Text) : Option (Scanned Unit s) :=
  (lineBreak? (skipSpace s).val).map fun ending =>
    let line := (skipSpace s).scanned ending
    line.upTo (skipBlankLines line.rest)

/-- The rest of a text between three double quotes. -/
def readLongBasic? (s : Text) : Option (Scanned Text s) :=
  match s with
  | [] => none
  | c :: rest =>
    match closing? '\x22' (c :: rest) with
    | some text => some text
    | none =>
      match lineBreak? (c :: rest) with
      | some ending =>
        (readLongBasic? ending.rest).map fun text => (ending.followedBy text).map ('\n' :: ·)
      | none =>
        if c = '\\' then
          match skipFold? rest with
          | some fold =>
            (readLongBasic? fold.rest).map fun text => (fold.followedBy text).behind c
          | none =>
            match readEscape? rest with
            | none => none
            | some d =>
              (readLongBasic? d.rest).map fun text =>
                ((d.followedBy text).map (d.value :: ·)).behind c
        else if isPlain c then (readLongBasic? rest).map fun text => (text.map (c :: ·)).behind c
        else none
termination_by s.length
decreasing_by
  · exact ending.shorter
  · exact fold.rest_lt_cons c
  · exact d.rest_lt_cons c
  · exact Nat.lt_succ_self _

/-- The rest of a text between three single quotes. -/
def readLongLiteral? (s : Text) : Option (Scanned Text s) :=
  match s with
  | [] => none
  | c :: rest =>
    match closing? '\x27' (c :: rest) with
    | some text => some text
    | none =>
      match lineBreak? (c :: rest) with
      | some ending =>
        (readLongLiteral? ending.rest).map fun text => (ending.followedBy text).map ('\n' :: ·)
      | none =>
        if isPlain c then (readLongLiteral? rest).map fun text => (text.map (c :: ·)).behind c
        else none
termination_by s.length
decreasing_by
  · exact ending.shorter
  · exact Nat.lt_succ_self _

/-! ## Texts in quotes of any kind -/

/-- The text behind a line break, if one stands at its front. -/
def skipBreak (s : Text) : Remainder s :=
  match lineBreak? s with
  | some ending => ending.remainder
  | none => .all s

/-- A text in quotes. -/
def readQuoted? (s : Text) : Option (Scanned Text s) :=
  match s with
  | '\x22' :: '\x22' :: '\x22' :: rest =>
    (readLongBasic? (skipBreak rest).val).map fun text =>
      ((((skipBreak rest).scanned text).behind '\x22').behind '\x22').behind '\x22'
  | '\x27' :: '\x27' :: '\x27' :: rest =>
    (readLongLiteral? (skipBreak rest).val).map fun text =>
      ((((skipBreak rest).scanned text).behind '\x27').behind '\x27').behind '\x27'
  | '\x22' :: rest => (readBasic? rest).map fun text => text.behind '\x22'
  | '\x27' :: rest => (readLiteral? rest).map fun text => text.behind '\x27'
  | _ => none

end Sentential.Toml

import Sentential.Text.Decimal
import Sentential.Text.Scanned
import Sentential.Yaml.Place

/-!
# Scalars in quotes and plain scalars

A scalar stands in double quotes, in single quotes, or plain. A line break inside it folds, and a
line that begins or ends a document cannot stand in it.
-/

namespace Sentential.Yaml

open Text

/-! ## Quoted scalars -/

/-- The character that a letter behind a backslash stands for. -/
def shortEscape? (c : Char) : Option Char :=
  let table : List (Char × Char) :=
    [ ('0', '\x00'), ('a', '\x07'), ('b', '\x08'), ('t', '\t'), ('\t', '\t'), ('n', '\n'),
      ('v', '\x0b'), ('f', '\x0c'), ('r', '\r'), ('e', '\x1b'), (' ', ' '), ('\x22', '\x22'),
      ('/', '/'), ('\\', '\\'), ('N', '\u0085'), ('_', '\u00a0'), ('L', '\u2028'),
      ('P', '\u2029') ]
  table.lookup c

/-- The number of digits behind a letter that begins a code point. -/
def codeWidth? (c : Char) : Option Nat :=
  if c = 'x' then some 2
  else if c = 'u' then some 4
  else if c = 'U' then some 8
  else none

/-- The character of a code point in hexadecimal digits. -/
def codeChar? (digits : Text) : Option Char :=
  match digits.mapM hexValue? with
  | none => none
  | some values =>
    let code := values.foldl (fun n v => 16 * n + v) 0
    if code.isValidChar then some (Char.ofNat code) else none

/-- The text behind the white space at its front. -/
def skipWhite (s : Text) : Remainder s :=
  .dropWhile isWhite s

/-- The rest of a scalar in double quotes. A backslash before a line break joins the lines. -/
def readDouble? (s : Text) : Option (Scanned Text s) :=
  match s with
  | [] => none
  | ['\\'] => none
  | '\\' :: e :: rest =>
    if isBreak e then
      let white := rest.takeWhile isWhite
      if startsLine (e :: white) && atMarker (skipWhite rest).val then none
      else
        (readDouble? (skipWhite rest).val).map fun text =>
          ((((skipWhite rest).scanned text).map (white.filter isBreak ++ ·)).behind e).behind '\\'
    else
      match shortEscape? e, codeWidth? e with
      | some d, _ => (readDouble? rest).map fun text => ((text.map (d :: ·)).behind e).behind '\\'
      | none, some width =>
        if rest.length < width then none
        else
          match codeChar? (rest.take width) with
          | none => none
          | some d =>
            (readDouble? (Remainder.drop width rest).val).map fun text =>
              ((((Remainder.drop width rest).scanned text).map (d :: ·)).behind e).behind '\\'
      | none, none => none
  | c :: rest =>
    if c = '\x22' then some (.one [])
    else if isWhite c then
      let white := c :: rest.takeWhile isWhite
      if startsLine white && atMarker (skipWhite rest).val then none
      else
        (readDouble? (skipWhite rest).val).map fun text =>
          (((skipWhite rest).scanned text).map (foldWhite white ++ ·)).behind c
    else (readDouble? rest).map fun text => (text.map (c :: ·)).behind c
termination_by s.length
decreasing_by
  · exact Nat.lt_succ_of_lt ((skipWhite rest).lt_cons e)
  · exact Nat.lt_succ_of_lt (Nat.lt_succ_self _)
  · exact Nat.lt_succ_of_lt ((Remainder.drop width rest).lt_cons e)
  · exact (skipWhite rest).lt_cons c
  · exact Nat.lt_succ_self _

/-- The rest of a scalar in single quotes, where a quote is written twice. -/
def readSingle? (s : Text) : Option (Scanned Text s) :=
  match s with
  | [] => none
  | '\x27' :: '\x27' :: rest =>
    (readSingle? rest).map fun text => ((text.map ('\x27' :: ·)).behind '\x27').behind '\x27'
  | c :: rest =>
    if c = '\x27' then some (.one [])
    else if isWhite c then
      let white := c :: rest.takeWhile isWhite
      if startsLine white && atMarker (skipWhite rest).val then none
      else
        (readSingle? (skipWhite rest).val).map fun text =>
          (((skipWhite rest).scanned text).map (foldWhite white ++ ·)).behind c
    else (readSingle? rest).map fun text => (text.map (c :: ·)).behind c
termination_by s.length
decreasing_by
  · exact Nat.lt_succ_of_lt (Nat.lt_succ_self _)
  · exact (skipWhite rest).lt_cons c
  · exact Nat.lt_succ_self _

/-! ## Plain scalars -/

/-- Whether a character is a mark of flow style. -/
def isFlowMark (c : Char) : Bool :=
  c == ',' || c == '[' || c == ']' || c == '\x7b' || c == '\x7d'

/-- The characters with which a plain scalar does not begin, but for three of them before others. -/
def specialMarks : Text :=
  "-?:,[]\x7b\x7d#&*!|>\x27\x22%@\x60".toList

/-- Whether a plain scalar can begin with a text. -/
def beginsPlain (flow : Bool) (s : Text) : Bool :=
  match s with
  | [] => false
  | c :: rest =>
    !(isWhite c || specialMarks.contains c)
    || (c == '-' && !atGap rest)
    || (!flow && (c == '?' || c == ':') && !atGap rest)

/-- A stretch of a plain scalar up to white space or a mark that ends it, and the rest. In flow
style a colon cannot stand before another mark. -/
def plainWord? (flow : Bool) : Text → Option (Text × Text)
  | [] => some ([], [])
  | c :: rest =>
    if isWhite c then some ([], c :: rest)
    else if flow && c == ':' && rest.head?.any (fun d => isFlowMark d || d == '?') then none
    else if (c == ':' && atGap rest) || (flow && isFlowMark c) then some ([], c :: rest)
    else (plainWord? flow rest).map fun (word, last) => (c :: word, last)

/-- Whether a tab stands in white space behind a line break, to the left of a column. The column of
the place is known once there has been a break. -/
def tabsLeftOf (column : Nat) : Option Nat → Text → Bool
  | _, [] => false
  | place, c :: rest =>
    if isBreak c then tabsLeftOf column (some 0) rest
    else (c == '\t' && place.any (· < column)) || tabsLeftOf column (place.map (· + 1)) rest

/-- A plain scalar that has been read. -/
structure Plain where
  text : Text
  rest : Text
  /-- A line break has been passed at its end. -/
  crossed : Bool

/-- A plain scalar behind some white space, which counts if the scalar goes on. In block style its
lines are indented to a column. The first argument bounds the number of stretches. -/
def readPlain? (flow : Bool) (column : Nat) : Nat → Text → Text → Option Plain
  | 0, _, _ => none
  | stretches + 1, white, s =>
    if (startsLine white && atMarker s) || s.head? == some '#' then
      some ⟨[], s, white.any isBreak⟩
    else
      match plainWord? flow s with
      | none => none
      | some ([], _) => some ⟨[], s, white.any isBreak⟩
      | some (word, rest) =>
        let gap := rest.takeWhile isWhite
        let next := rest.dropWhile isWhite
        let text := foldWhite white ++ word
        if gap.isEmpty then some ⟨text, rest, false⟩
        else if tabsLeftOf column none gap then none
        else if !flow && gap.any isBreak && (gap.reverse.takeWhile isBlank).length < column then
          some ⟨text, next, true⟩
        else
          (readPlain? flow column stretches gap next).map fun more =>
            { more with text := text ++ more.text }

end Sentential.Yaml

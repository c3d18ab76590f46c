import Sentential.Text.Decimal
import Sentential.Yaml.Place

/-!
# Scalars in blocks of lines

A block scalar has a header, which tells how far its lines are indented and what becomes of the
line breaks at its end, and then its lines. If the header does not tell the indentation, the first
lines do. In a folded block a line feed between two lines becomes a space, unless one of them begins
with a blank.
-/

namespace Sentential.Yaml

open Text

/-- What becomes of the line breaks at the end of a block. -/
inductive Chomp where
  | strip
  | clip
  | keep
deriving DecidableEq, Repr

/-- What a sign in a header says of the breaks at the end. -/
def Chomp.ofChar? (c : Char) : Option Chomp :=
  if c = '+' then some .keep else if c = '-' then some .strip else none

/-- The header of a block. -/
structure Header where
  /-- The indentation of the lines, counted from that of the entry. -/
  indent? : Option Nat
  chomp : Chomp

/-- The digit at the front of a text, if one stands there. A zero cannot stand there. -/
def readIndent? (s : Text) : Option (Option Nat × Text) :=
  match s with
  | [] => some (none, [])
  | c :: rest =>
    if c = '0' then none
    else if isDigit c then some (some (c.toNat - '0'.toNat), rest)
    else some (none, c :: rest)

/-- The sign for the breaks at the front of a text, if one stands there. -/
def readChomp (s : Text) : Option Chomp × Text :=
  match s.head?.bind Chomp.ofChar? with
  | some chomp => (some chomp, s.drop 1)
  | none => (none, s)

/-- The header of a block and the lines behind it. -/
def readHeader? (s : Text) : Option (Header × Text) := do
  let (before?, s) := readChomp s
  let (indent?, s) ← readIndent? s
  let (behind?, s) :=
    if before?.isNone && indent?.isSome then readChomp s else (none, s)
  let s := s.dropWhile isBlank
  let s := if s.head? == some '#' then s.dropWhile (!isBreak ·) else s
  if !atLineEnd s then none
  return (⟨indent?, (before?.or behind?).getD .clip⟩, s.drop 1)

/-- The breaks of the empty lines at the front of a text, and what has been met behind them. -/
structure Margin where
  breaks : Text
  /-- The greatest column that the spaces at the front of a line have led to. -/
  widest : Nat
  /-- The column of the first character that has not been passed. -/
  column : Nat
  rest : Text

/-- Passes empty lines, and spaces up to an indentation if it is known. A tab cannot stand where the
indentation is looked for. -/
def readMargin? (indent? : Option Nat) (margin : Margin) : Text → Option Margin
  | [] => some { margin with widest := max margin.widest margin.column, rest := [] }
  | c :: rest =>
    let inside := indent?.all (margin.column < ·)
    if c = ' ' && inside then
      readMargin? indent? { margin with column := margin.column + 1 } rest
    else if c = '\t' && inside then none
    else
      let widest := max margin.widest margin.column
      if isBreak c then
        readMargin? indent?
          { margin with breaks := margin.breaks ++ [c], widest := widest, column := 0 } rest
      else some { margin with widest := widest, rest := c :: rest }

/-- A block while it is gathered. -/
structure Block where
  text : Text := []
  /-- The break at the end of the last line. -/
  feed : Text := []
  /-- The breaks of the empty lines behind it. -/
  empty : Text := []
  /-- The last line begins with a blank. -/
  blank : Bool := false

/-- A block with one more line. -/
def Block.add (folded : Bool) (block : Block) (line feed : Text) : Block :=
  let blank := line.head?.any isBlank
  let joint : Text :=
    if folded && block.feed == ['\n'] && !block.blank && !blank then
      if block.empty.isEmpty then [' '] else []
    else block.feed
  { text := block.text ++ joint ++ block.empty ++ line
    feed := feed
    empty := []
    blank := blank }

/-- The text of a finished block. -/
def Block.finish (chomp : Chomp) (block : Block) : Text :=
  match chomp with
  | .strip => block.text
  | .clip => block.text ++ block.feed
  | .keep => block.text ++ block.feed ++ block.empty

/-- Gathers the lines that are indented to a column. The first argument bounds their number. -/
def gather? (folded : Bool) (indent : Nat) :
    Nat → Block → Margin → Option (Block × Text)
  | 0, _, _ => none
  | lines + 1, block, margin =>
    let block := { block with empty := margin.breaks }
    if margin.column = indent ∧ margin.rest ≠ [] then do
      let line := margin.rest.takeWhile (!isBreak ·)
      let behind := margin.rest.dropWhile (!isBreak ·)
      let next ← readMargin? (some indent) ⟨[], 0, 0, []⟩ (behind.drop 1)
      gather? folded indent lines (block.add folded line (behind.take 1)) next
    else some (block, margin.rest)

/-- A block of lines below an entry at a column, from behind its first sign on, and the rest of the
text. -/
def readBlock? (folded : Bool) (column? : Option Nat) (s : Text) : Option (Text × Text) := do
  let (header, lines) ← readHeader? s
  let known? := header.indent?.map fun n => column?.getD 0 + n
  let margin ← readMargin? known? ⟨[], 0, 0, []⟩ lines
  let least := column?.elim 1 (· + 1)
  let indent := known?.getD (max margin.widest least)
  let (block, rest) ← gather? folded indent (lines.length + 1) {} margin
  return (block.finish header.chomp, rest)

end Sentential.Yaml

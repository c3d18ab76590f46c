import Sentential.Yaml.Block
import Sentential.Yaml.Scalar
import Sentential.Yaml.Token

/-!
# From text to tokens of YAML

What begins a token may turn out to be a key only when the colon behind it is met. So the reader
remembers the place where the last possible key began, and puts the token of the key there. A key
that is known by its colon alone stands on one line and is not too long, and where the entries of a
block stand nothing but such a key can begin. Lists and nested mappings are not read.
-/

namespace Sentential.Yaml

open Text

/-- The number of bytes from a key to its colon that are allowed. -/
def maxKeyBytes : Nat := 1024

/-- The place where a key may have begun. -/
structure Candidate where
  place : Place
  /-- The number of tokens before it. -/
  position : Nat
  /-- Nothing but a key can begin there. -/
  required : Bool
deriving DecidableEq, Repr

/-- What has been read and what is left. -/
structure State where
  rest : Text
  place : Place := {}
  tokens : List Token := []
  /-- The column of the entries of a block, inside of one. -/
  indent? : Option Nat := none
  /-- Inside of braces. -/
  flow : Bool := false
  /-- A key may begin here. -/
  keyAllowed : Bool := true
  /-- Where a key may have begun outside of braces. -/
  blockKey? : Option Candidate := none
  /-- Where a key may have begun inside of braces. -/
  flowKey? : Option Candidate := none

namespace State

/-- Passes the text up to a given rest. -/
def moveTo (st : State) (rest : Text) : State :=
  let passed := st.rest.take (st.rest.length - rest.length)
  { st with rest := rest, place := passed.foldl Place.next st.place }

/-- Passes some characters. -/
def skip (st : State) (count : Nat) : State :=
  st.moveTo (st.rest.drop count)

/-- Adds a token at the end. -/
def push (st : State) (token : Token) : State :=
  { st with tokens := st.tokens ++ [token] }

/-- Adds a token behind the given number of tokens. -/
def insertAt (st : State) (position : Nat) (token : Token) : State :=
  { st with tokens := st.tokens.take position ++ [token] ++ st.tokens.drop position }

/-- Tells if a key may begin at the next token. -/
def allowKey (st : State) (allowed : Bool) : State :=
  { st with keyAllowed := allowed }

/-! ## Keys -/

/-- Where a key may have begun, on the level of the next token. -/
def key? (st : State) : Option Candidate :=
  if st.flow then st.flowKey? else st.blockKey?

/-- Sets where a key may have begun. -/
def setKey (st : State) (key? : Option Candidate) : State :=
  if st.flow then { st with flowKey? := key? } else { st with blockKey? := key? }

/-- Gives up the possible key, which cannot be done if it has to be one. -/
def dropKey? (st : State) : Option State :=
  if st.key?.any (·.required) then none else some (st.setKey none)

/-- Remembers that a key may begin at the next token, if it may, and allows none right behind. -/
def saveKey? (st : State) : Option State :=
  if st.keyAllowed then do
    let required := !st.flow && st.indent? == some st.place.column
    let st ← st.dropKey?
    return (st.setKey (some ⟨st.place, st.tokens.length, required⟩)).allowKey false
  else some st

/-- Whether a possible key can end in a colon at the next token. -/
def reaches (st : State) (key : Candidate) : Bool :=
  key.place.line == st.place.line && st.place.byte ≤ key.place.byte + maxKeyBytes

/-! ## Blocks -/

/-- Ends the block whose entries stand to the right of a column, or any block. -/
def closeBlock (st : State) (column? : Option Nat) : State :=
  match st.indent? with
  | none => st
  | some indent =>
    if !st.flow && column?.all (· < indent) then { st.push .blockEnd with indent? := none } else st

/-- Begins a block with an entry at a column, unless the entry belongs to the block that is open.
A block inside of a block is not read. -/
def openBlock? (st : State) (column position : Nat) : Option State :=
  if st.flow then some st
  else
    match st.indent? with
    | none => some { st.insertAt position .blockStart with indent? := some column }
    | some indent => if indent < column then none else some st

end State

/-- The text behind white space and comments, and whether a key may begin there. A tab is passed
only where no key may begin. At the start of a line a byte order mark is passed. -/
def skipGap (flow keyAllowed lineStart comment : Bool) : Text → Text × Bool
  | [] => ([], keyAllowed)
  | c :: rest =>
    if isBreak c then skipGap flow (keyAllowed || !flow) true false rest
    else if comment then skipGap flow keyAllowed false true rest
    else if lineStart && c = '\ufeff' then skipGap flow keyAllowed false false rest
    else if c = ' ' || (c = '\t' && (flow || !keyAllowed)) then
      skipGap flow keyAllowed false false rest
    else if c = '#' then skipGap flow keyAllowed false true rest
    else (c :: rest, keyAllowed)

namespace State

/-- Passes white space and comments. -/
def passGap (st : State) : State :=
  let (rest, allowed) := skipGap st.flow st.keyAllowed (st.place.column == 0) false st.rest
  (st.moveTo rest).allowKey allowed

/-! ## One token -/

/-- Reads a directive. -/
def readDirective? (st : State) : Option State := do
  let st ← (st.closeBlock none).dropKey?
  let (token, rest) ← Yaml.readDirective? (st.rest.drop 1)
  return ((st.push token).moveTo rest).allowKey false

/-- Reads the line that begins or ends a document. -/
def readMarker? (st : State) (token : Token) : Option State := do
  let st ← (st.closeBlock none).dropKey?
  return ((st.push token).skip 3).allowKey false

/-- Reads an opening brace, which does not stand in braces. -/
def openFlow? (st : State) : Option State := do
  if st.flow then none
  let st ← st.saveKey?
  return (({ st with flow := true, flowKey? := none }.push .flowStart).skip 1).allowKey true

/-- Reads a closing brace. -/
def closeFlow? (st : State) : Option State := do
  if !st.flow then none
  let st ← st.dropKey?
  return (({ st with flow := false }.push .flowEnd).skip 1).allowKey false

/-- Reads a comma in braces. -/
def readComma? (st : State) : Option State := do
  if !st.flow then none
  let st ← st.dropKey?
  return ((st.push .flowEntry).skip 1).allowKey true

/-- Reads the sign of a key. -/
def readKeySign? (st : State) : Option State := do
  if !st.flow && !st.keyAllowed then none
  let st ← st.openBlock? st.place.column st.tokens.length
  let st ← st.dropKey?
  return ((st.push .key).skip 1).allowKey (!st.flow)

/-- Reads the colon before a value. -/
def readColon? (st : State) : Option State :=
  match st.key?.filter st.reaches with
  | some key => do
    let st := st.insertAt key.position .key
    let st ← st.openBlock? key.place.column key.position
    return (((st.setKey none).push .value).skip 1).allowKey false
  | none => do
    let st ← st.dropKey?
    if !st.flow && !st.keyAllowed then none
    let st ← st.openBlock? st.place.column st.tokens.length
    return ((st.push .value).skip 1).allowKey (!st.flow)

/-- Reads an anchor, or an alias of one. -/
def readAnchor? (st : State) (token : Text → Token) : Option State := do
  let st ← st.saveKey?
  let (name, rest) ← readName? (st.rest.drop 1)
  return ((st.push (token name)).moveTo rest).allowKey false

/-- Reads a tag. -/
def readTag? (st : State) : Option State := do
  let st ← st.saveKey?
  let (handle, rest) ← Yaml.readTag? st.flow (st.rest.drop 1)
  return ((st.push (.tag handle)).moveTo rest).allowKey false

/-- Reads a block of lines. -/
def readBlock? (st : State) (folded : Bool) : Option State := do
  let st ← st.dropKey?
  let (text, rest) ← Yaml.readBlock? folded st.indent? (st.rest.drop 1)
  return ((st.push (.scalar text)).moveTo rest).allowKey true

/-- Reads a scalar in quotes. -/
def readQuoted? (st : State) : Option State := do
  let st ← st.saveKey?
  let (text, rest) ←
    match st.rest with
    | '\x22' :: rest => (readDouble? rest).map fun piece => (piece.value, piece.rest)
    | _ :: rest => (readSingle? rest).map fun piece => (piece.value, piece.rest)
    | [] => none
  return ((st.push (.scalar text)).moveTo rest).allowKey false

/-- Reads a plain scalar. -/
def readPlain? (st : State) : Option State := do
  let st ← st.saveKey?
  let column := st.indent?.elim 0 (· + 1)
  let plain ← Yaml.readPlain? st.flow column (st.rest.length + 1) [] st.rest
  return ((st.push (.scalar plain.text)).moveTo plain.rest).allowKey plain.crossed

/-- Reads the token at the front of the rest. -/
def readToken? (st : State) : Option State :=
  match st.rest with
  | [] => none
  | c :: rest =>
    let lineStart := st.place.column == 0
    if lineStart && c = '%' then st.readDirective?
    else if lineStart && atMarker st.rest then
      st.readMarker? (if c = '-' then .documentStart else .documentEnd)
    else if c = '\x7b' then st.openFlow?
    else if c = '\x7d' then st.closeFlow?
    else if c = ',' then st.readComma?
    else if c = '?' && (st.flow || atGap rest) then st.readKeySign?
    else if c = ':' && (st.flow || atGap rest) then st.readColon?
    else if c = '*' then st.readAnchor? .alias
    else if c = '&' then st.readAnchor? .anchor
    else if c = '!' then st.readTag?
    else if c = '|' && !st.flow then st.readBlock? false
    else if c = '>' && !st.flow then st.readBlock? true
    else if c = '\x27' || c = '\x22' then st.readQuoted?
    else if beginsPlain st.flow st.rest then st.readPlain?
    else none

/-- Ends the text. -/
def finish? (st : State) : Option (List Token) := do
  let st ← (st.closeBlock none).dropKey?
  return st.tokens

/-- Reads all tokens. The first argument bounds their number. -/
def readAll? : Nat → State → Option (List Token)
  | 0, _ => none
  | tokens + 1, st =>
    let st := st.passGap
    let st := st.closeBlock (some st.place.column)
    if st.rest.isEmpty then st.finish? else st.readToken?.bind (readAll? tokens)

end State

/-- The tokens of a text. -/
def tokens? (s : Text) : Option (List Token) :=
  if s.all isAllowed then
    let s := plainBreaks s
    State.readAll? (s.length + 1) { rest := s }
  else none

end Sentential.Yaml

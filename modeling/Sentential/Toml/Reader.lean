import Sentential.Toml.Moment
import Sentential.Toml.Number
import Sentential.Toml.Quoted
import Sentential.Toml.Table

/-!
# Reading TOML

A document is a list of lines: headers of tables, headers of lists of tables, and keys with their
values. A value that has begun may go on over several lines, if it is a list or a text between three
quotes. Keys have less than 80 parts, and lists and tables in braces are nested less than 80 deep.
-/

namespace Sentential.Toml

open Text

/-- The bound on the parts of a key, and on the depth of lists and tables in braces. -/
def nestingLimit : Nat := 80

/-! ## Keys -/

/-- Whether a character can stand in a key without quotes. -/
def isKeyChar (c : Char) : Bool :=
  ('A' ≤ c && c ≤ 'Z') || ('a' ≤ c && c ≤ 'z') || isDigit c || c == '_' || c == '-'

/-- A part of a key: a word, or a text in quotes on one line. -/
def readName? (s : Text) : Option (Scanned Text s) :=
  match s with
  | [] => none
  | c :: rest =>
    if c = '\x22' then (readBasic? rest).map fun text => text.behind c
    else if c = '\x27' then (readLiteral? rest).map fun text => text.behind c
    else if isKeyChar c then
      some ((Remainder.dropWhile isKeyChar rest).piece c (c :: rest.takeWhile isKeyChar))
    else none

/-- A part of a key with the space around it. -/
def readPart? (s : Text) : Option (Scanned Text s) :=
  (readName? (skipSpace s).val).map fun name =>
    ((skipSpace s).scanned name).upTo (skipSpace name.rest)

/-- The parts of a key, with points between them. -/
def readParts? (s : Text) : Option (Scanned (List Text) s) :=
  match readPart? s with
  | none => none
  | some part =>
    match mark? '.' part.rest with
    | none => some (part.map fun name => [name])
    | some point =>
      let next := part.followedBy point
      (readParts? next.rest).map fun more => (next.followedBy more).map (part.value :: ·)
termination_by s.length
decreasing_by exact next.shorter

/-- A key. -/
def readKey? (s : Text) : Option (Scanned (List Text) s) :=
  (readParts? s).filter fun key => key.value.length < nestingLimit

/-! ## Words -/

/-- Whether a character can stand in a word, which is a value without quotes. -/
def isWordChar (c : Char) : Bool :=
  isKeyChar c || c == '+' || c == '.' || c == ':'

/-- A space with a time behind it. -/
def readTimePart? (s : Text) : Option (Scanned Text s) :=
  match s with
  | ' ' :: c :: rest =>
    if isDigit c then
      let word := (Remainder.dropWhile isWordChar rest).piece c (c :: rest.takeWhile isWordChar)
      some ((word.map (' ' :: ·)).behind ' ')
    else none
  | _ => none

/-- A word. If it is a date, it goes on with a time behind a space. -/
def readWord? (s : Text) : Option (Scanned Text s) :=
  match s with
  | [] => none
  | c :: rest =>
    if isWordChar c then
      let word := (Remainder.dropWhile isWordChar rest).piece c (c :: rest.takeWhile isWordChar)
      let isDate := (Date.read? word.value).any fun found => found.2.isEmpty
      match readTimePart? word.rest with
      | none => some word
      | some time =>
        if isDate then some ((word.followedBy time).map (word.value ++ ·)) else some word
    else none

/-- The value that a word spells. -/
def valueOfWord? (word : Text) : Option Setting :=
  if word = "true".toList then some (.bool true)
  else if word = "false".toList then some (.bool false)
  else
    match readInteger? word, Moment.read? word with
    | some n, _ => some (.integer n)
    | none, some moment => some (.text moment.text)
    | none, none => (readFraction? word).map .text

/-- A value that is neither a list nor a table. -/
def readSingle? (s : Text) : Option (Scanned Setting s) :=
  match readQuoted? s with
  | some text => some (text.map .text)
  | none =>
    match readWord? s with
    | none => none
    | some word => (valueOfWord? word.value).map fun value => word.map fun _ => value

/-! ## Lists and tables in braces -/

/-- A reader of values. -/
abbrev ValueReader := (s : Text) → Option (Scanned Setting s)

/-- The items of a list behind its bracket. A comma may stand behind the last one. -/
def readItems? (readItem? : ValueReader) (s : Text) : Option (Scanned (List Setting) s) :=
  let start := skipLines s
  match mark? ']' start.val with
  | some ending => some ((start.scanned ending).map fun _ => [])
  | none =>
    match readItem? start.val with
    | none => none
    | some item =>
      let whole := (start.scanned item).upTo (skipLines item.rest)
      match mark? ']' whole.rest with
      | some ending => some ((whole.followedBy ending).map fun _ => [item.value])
      | none =>
        match mark? ',' whole.rest with
        | none => none
        | some comma =>
          let next := whole.followedBy comma
          (readItems? readItem? next.rest).map fun items =>
            (next.followedBy items).map (item.value :: ·)
termination_by s.length
decreasing_by exact next.shorter

/-- A key and its value. -/
def readPair? (readItem? : ValueReader) (s : Text) :
    Option (Scanned (List Text × Setting) s) :=
  match readKey? s with
  | none => none
  | some key =>
    match mark? '=' key.rest with
    | none => none
    | some equals =>
      let start := (key.followedBy equals).upTo (skipSpace equals.rest)
      (readItem? start.rest).map fun item =>
        (start.followedBy item).map fun value => (key.value, value)

/-- The entries of a table in braces, with those that have been read before. -/
def readEntries? (readItem? : ValueReader) (table : Table) (s : Text) :
    Option (Scanned Table s) :=
  match readPair? readItem? s with
  | none => none
  | some pair =>
    let whole := pair.upTo (skipSpace pair.rest)
    match assign pair.value.1 pair.value.2 .header table with
    | none => none
    | some table =>
      match mark? '\x7d' whole.rest with
      | some ending => some ((whole.followedBy ending).map fun _ => table)
      | none =>
        match mark? ',' whole.rest with
        | none => none
        | some comma =>
          let next := whole.followedBy comma
          (readEntries? readItem? table next.rest).map fun entries => next.followedBy entries
termination_by s.length
decreasing_by exact next.shorter

/-- A table behind its brace. -/
def readTable? (readItem? : ValueReader) (s : Text) : Option (Scanned Table s) :=
  let start := skipSpace s
  match mark? '\x7d' start.val with
  | some ending => some ((start.scanned ending).map fun _ => [])
  | none => readEntries? readItem? [] s

/-- A value, in which lists and tables are nested to a certain depth. -/
def readValue? (depth : Nat) (s : Text) : Option (Scanned Setting s) :=
  match depth, s with
  | depth + 1, '[' :: rest =>
    (readItems? (readValue? depth) rest).map fun items => (items.map .list).behind '['
  | depth + 1, '\x7b' :: rest =>
    (readTable? (readValue? depth) rest).map fun table =>
      (table.map fun entries => .table (closeEntries entries)).behind '\x7b'
  | _, s => readSingle? s

/-! ## Lines -/

/-- What a line says. -/
inductive Line where
  | empty
  | header (path : List Text)
  | series (path : List Text)
  | pair (path : List Text) (value : Setting)

/-- The path in a header, behind its brackets, and as many brackets behind it. -/
def readPath? (closing : Text) (s : Text) : Option (Scanned (List Text) s) :=
  (readKey? s).bind fun path =>
    if closing.isPrefixOf path.rest then
      some (path.upTo (Remainder.drop closing.length path.rest))
    else none

/-- A header, or a key with its value. -/
def readStatement? (s : Text) : Option (Scanned Line s) :=
  match s with
  | '[' :: '[' :: rest =>
    (readPath? "]]".toList rest).map fun path => ((path.map .series).behind '[').behind '['
  | '[' :: rest => (readPath? "]".toList rest).map fun path => (path.map .header).behind '['
  | s =>
    (readPair? (readValue? (nestingLimit - 1)) s).map fun pair =>
      pair.map fun (path, value) => .pair path value

/-- A line and its end. -/
def readLine? (s : Text) : Option (Line × LineEnd s) :=
  match lineEnd? s with
  | some ending => some (.empty, ending)
  | none =>
    match readStatement? (skipSpace s).val with
    | none => none
    | some statement =>
      let line := (skipSpace s).scanned statement
      (lineEnd? line.rest).map fun ending => (line.value, LineEnd.behind line ending)

/-- The lines of a text. -/
def readLines? (s : Text) : Option (List Line) :=
  match readLine? s with
  | none => none
  | some (line, .last) => some [line]
  | some (line, .next ending) => (readLines? ending.rest).map (line :: ·)
termination_by s.length
decreasing_by exact ending.shorter

/-! ## Documents -/

/-- A document after some of its lines: its tables and the path of the one that is open. -/
structure Draft where
  root : Table := []
  current : List Text := []

/-- A document after one more line. -/
def Draft.add? (draft : Draft) : Line → Option Draft
  | .empty => some draft
  | .header path => (openTable path draft.root).map fun root => ⟨root, path⟩
  | .series path => (openSeries path draft.root).map fun root => ⟨root, path⟩
  | .pair path value =>
    (editAt false (assign path value) draft.current .header draft.root).map fun root =>
      { draft with root := root }

/-- A text without the byte order mark at its front. -/
def dropMark (s : Text) : Text :=
  match s with
  | '\ufeff' :: rest => rest
  | s => s

/-- The entries of the document that a text spells. -/
def read? (s : Text) : Option (List (Text × Setting)) := do
  let lines ← readLines? (dropMark s)
  let draft ← lines.foldlM Draft.add? {}
  return closeEntries draft.root

end Sentential.Toml

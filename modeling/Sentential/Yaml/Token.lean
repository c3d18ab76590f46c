import Sentential.Text.Decimal
import Sentential.Yaml.Place

/-!
# Tokens of YAML

The tokens of which documents without nested lists and mappings are made, and the readers of those
that are named: anchors, aliases, tags and directives.
-/

namespace Sentential.Yaml

open Text

/-- A token. -/
inductive Token where
  | documentStart
  | documentEnd
  /-- The directive that tells the version. -/
  | version
  /-- The directive that introduces the handle of tags. -/
  | handle (handle : Text)
  | blockStart
  | blockEnd
  | flowStart
  | flowEnd
  | flowEntry
  | key
  | value
  | alias (name : Text)
  | anchor (name : Text)
  /-- A tag with its handle, which is empty if the tag needs none. -/
  | tag (handle : Text)
  | scalar (text : Text)
deriving DecidableEq, Repr

/-- Whether a character can stand in a name. -/
def isNameChar (c : Char) : Bool :=
  ('A' ≤ c && c ≤ 'Z') || ('a' ≤ c && c ≤ 'z') || isDigit c || c == '_' || c == '-'

/-- The name of an anchor and the rest of the text, which begins with white space or a mark. -/
def readName? (s : Text) : Option (Text × Text) :=
  let name := s.takeWhile isNameChar
  let rest := s.dropWhile isNameChar
  let ends := atGap rest || rest.head?.any fun c => "?:,]\x7d%@\x60".toList.contains c
  if name.isEmpty || !ends then none else some (name, rest)

/-! ## Tags -/

/-- The byte that is written behind a percent sign with two hexadecimal digits. -/
def readByte? (s : Text) : Option (Nat × Text) :=
  match s with
  | '%' :: a :: b :: rest =>
    match hexValue? a, hexValue? b with
    | some x, some y => some (16 * x + y, rest)
    | _, _ => none
  | _ => none

/-- The number of bytes of a character by the first of them. -/
def byteWidth? (byte : Nat) : Option Nat :=
  if byte < 0x80 then some 1
  else if 0xc0 ≤ byte ∧ byte < 0xe0 then some 2
  else if 0xe0 ≤ byte ∧ byte < 0xf0 then some 3
  else if 0xf0 ≤ byte ∧ byte < 0xf8 then some 4
  else none

/-- The text behind so many further bytes of a character. -/
def skipFurther? : Nat → Text → Option Text
  | 0, s => some s
  | more + 1, s => do
    let (byte, rest) ← readByte? s
    if 0x80 ≤ byte ∧ byte < 0xc0 then skipFurther? more rest else none

/-- The text behind a character written in bytes. -/
def skipEscape? (s : Text) : Option Text := do
  let (byte, rest) ← readByte? s
  let width ← byteWidth? byte
  skipFurther? (width - 1) rest

/-- Whether a character can stand in a tag. Some marks can do so only between angle brackets. -/
def isTagChar (bracketed : Bool) (c : Char) : Bool :=
  isNameChar c || ";/?:@&=+$.!~*\x27()".toList.contains c
  || (bracketed && (c == ',' || c == '[' || c == ']'))

/-- The text behind the characters of a tag at its front. The first argument bounds their
number. -/
def skipTagChars? (bracketed : Bool) : Nat → Text → Option Text
  | 0, s => some s
  | chars + 1, s =>
    match s with
    | [] => some []
    | c :: rest =>
      if c = '%' then (skipEscape? s).bind (skipTagChars? bracketed chars)
      else if isTagChar bracketed c then skipTagChars? bracketed chars rest
      else some s

/-- The text behind the characters of a tag at its front, of which there has to be one. -/
def skipTagText? (bracketed : Bool) (s : Text) : Option Text := do
  let rest ← skipTagChars? bracketed s.length s
  if rest.length = s.length then none else some rest

/-- The handle of a tag, from behind its exclamation mark on, and the text behind the tag. -/
def readTag? (flow : Bool) (s : Text) : Option (Text × Text) := do
  let (handle, rest) ←
    match s with
    | '<' :: inner =>
      match ← skipTagText? true inner with
      | '>' :: rest => some ([], rest)
      | _ => none
    | _ =>
      let word := s.takeWhile isNameChar
      match s.dropWhile isNameChar with
      | '!' :: behind => do
        let rest ← skipTagText? false behind
        some (['!'] ++ word ++ ['!'], rest)
      | behind => do
        let rest ← skipTagChars? false behind.length behind
        if rest.length = s.length then some ([], rest) else some (['!'], rest)
  if atGap rest || (flow && rest.head? == some ',') then some (handle, rest) else none

/-! ## Directives -/

/-- A number of at most nine digits and the rest of the text. -/
def readVersionPart? (s : Text) : Option (Nat × Text) :=
  let digits := s.takeWhile isDigit
  if digits.isEmpty || digits.length > 9 then none
  else some (digitsValue digits, s.dropWhile isDigit)

/-- The directive behind a percent sign and the rest of the text. The version is 1.1 or 1.2. -/
def readDirective? (s : Text) : Option (Token × Text) := do
  let name := s.takeWhile isNameChar
  let behind := s.dropWhile isNameChar
  if !atGap behind then none
  let content := behind.dropWhile isBlank
  let (token, rest) ←
    if name = "YAML".toList then do
      let (major, rest) ← readVersionPart? content
      match rest with
      | '.' :: rest =>
        let (minor, rest) ← readVersionPart? rest
        if major = 1 ∧ (minor = 1 ∨ minor = 2) then some (Token.version, rest) else none
      | _ => none
    else if name = "TAG".toList then
      match content with
      | '!' :: inner => do
        let word := inner.takeWhile isNameChar
        let (handle, rest) ←
          match inner.dropWhile isNameChar with
          | '!' :: rest => some (['!'] ++ word ++ ['!'], rest)
          | rest => if word.isEmpty then some (['!'], rest) else none
        if !rest.head?.any isBlank then none
        let rest ← skipTagText? true (rest.dropWhile isBlank)
        if atGap rest then some (Token.handle handle, rest) else none
      | _ => none
    else none
  let rest := rest.dropWhile isBlank
  let rest := if rest.head? == some '#' then rest.dropWhile (!isBreak ·) else rest
  if atLineEnd rest then some (token, rest) else none

end Sentential.Yaml

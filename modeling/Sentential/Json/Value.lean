import Sentential.Text.Basic

/-!
# JSON values and their text

Values keep the order of their fields, and a number keeps its written form. A value is written
either without any space (`compact`) or with one field or item per line, two spaces deeper than
what holds it (`pretty`). Strings escape the double quote, the backslash and the controls below
U+0020, and nothing else.
-/

namespace Sentential.Json

/-- A JSON value. -/
inductive Value where
  | null
  | bool (b : Bool)
  | number (text : Text)
  | string (text : Text)
  | array (items : List Value)
  | object (fields : List (Text × Value))
deriving Repr

/-- A character inside a JSON string. -/
def escapeChar (c : Char) : Text :=
  if c = '\x22' then ['\\', '\x22']
  else if c = '\\' then ['\\', '\\']
  else if c = '\x08' then ['\\', 'b']
  else if c = '\x0c' then ['\\', 'f']
  else if c = '\n' then ['\\', 'n']
  else if c = '\r' then ['\\', 'r']
  else if c = '\t' then ['\\', 't']
  else if c.toNat < 0x20 then
    ['\\', 'u', '0', '0', Nat.digitChar (c.toNat / 16), Nat.digitChar (c.toNat % 16)]
  else [c]

/-- A text as a JSON string. -/
def quoted (s : Text) : Text :=
  '\x22' :: s.flatMap escapeChar ++ ['\x22']

/-- A line feed and the spaces of a level. -/
def newline (level : Nat) : Text :=
  '\n' :: List.replicate (2 * level) ' '

namespace Value

mutual

/-- The text of a value without spaces. -/
def compact : Value → Text
  | .null => "null".toList
  | .bool true => "true".toList
  | .bool false => "false".toList
  | .number text => text
  | .string text => quoted text
  | .array [] => "[]".toList
  | .array (item :: more) => '[' :: item.compact ++ compactItems more ++ [']']
  | .object [] => "\x7b\x7d".toList
  | .object ((key, value) :: more) =>
    '\x7b' :: quoted key ++ [':'] ++ value.compact ++ compactFields more ++ ['\x7d']

/-- The items behind the first one. -/
def compactItems : List Value → Text
  | [] => []
  | item :: more => ',' :: item.compact ++ compactItems more

/-- The fields behind the first one. -/
def compactFields : List (Text × Value) → Text
  | [] => []
  | (key, value) :: more => ',' :: quoted key ++ [':'] ++ value.compact ++ compactFields more

end

mutual

/-- The text of a value on lines of its own, at a level. -/
def prettyAt (level : Nat) : Value → Text
  | .null => "null".toList
  | .bool true => "true".toList
  | .bool false => "false".toList
  | .number text => text
  | .string text => quoted text
  | .array [] => "[]".toList
  | .array (item :: more) =>
    '[' :: newline (level + 1) ++ item.prettyAt (level + 1) ++ prettyItems (level + 1) more
      ++ newline level ++ [']']
  | .object [] => "\x7b\x7d".toList
  | .object ((key, value) :: more) =>
    '\x7b' :: newline (level + 1) ++ quoted key ++ [':', ' '] ++ value.prettyAt (level + 1)
      ++ prettyFields (level + 1) more ++ newline level ++ ['\x7d']

/-- The items behind the first one. -/
def prettyItems (level : Nat) : List Value → Text
  | [] => []
  | item :: more => ',' :: newline level ++ item.prettyAt level ++ prettyItems level more

/-- The fields behind the first one. -/
def prettyFields (level : Nat) : List (Text × Value) → Text
  | [] => []
  | (key, value) :: more =>
    ',' :: newline level ++ quoted key ++ [':', ' '] ++ value.prettyAt level
      ++ prettyFields level more

end

/-- The text of a value on lines of its own. -/
def pretty (v : Value) : Text :=
  v.prettyAt 0

end Value

end Sentential.Json

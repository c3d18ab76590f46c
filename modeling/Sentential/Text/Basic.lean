/-!
# Texts

A text is the list of its characters. Every rule of the library reads a text from left to right, so
a list is the shape in which its rules are stated and proved; strings are met only where texts
enter and leave the program.

This module holds the runs of a text (`runs`), its cuts at a separator (`splitOn`), membership of a
code point in a sorted table of ranges (`inRanges`), its length in bytes, and the decimal text of a
number.
-/

namespace Sentential

/-- A text, as the list of its characters. -/
abbrev Text := List Char

namespace Text

/-- A property of all characters of a text is decided character by character. -/
instance (priority := high) decidableForallMem (p : Char → Prop) [DecidablePred p] (s : Text) :
    Decidable (∀ c ∈ s, p c) :=
  List.decidableBAll p s

/-- Whether a code point lies in one of the ranges, which stand in increasing order. -/
def inRanges (code : Nat) : List (Nat × Nat) → Bool
  | [] => false
  | (low, high) :: more =>
    if code < low then false
    else if code ≤ high then true
    else inRanges code more

/-- The longest stretches of characters with a property, from left to right. -/
def runs (p : Char → Bool) : Text → List Text
  | [] => []
  | c :: rest =>
    if p c then
      match rest.head?.any p, runs p rest with
      | true, run :: more => (c :: run) :: more
      | _, found => [c] :: found
    else runs p rest

/-- Puts a character in front of the first of some pieces. -/
def consFirst (c : Char) : List Text → List Text
  | [] => [[c]]
  | piece :: more => (c :: piece) :: more

/-- The pieces of a text between the places of a separator. A place is taken from the left as soon
as it is met, and the first argument counts the characters of it that are still to be passed. -/
def splitFrom (separator : Text) : Nat → Text → List Text
  | _, [] => [[]]
  | skip + 1, _ :: rest => splitFrom separator skip rest
  | 0, c :: rest =>
    if separator.isPrefixOf (c :: rest) then [] :: splitFrom separator (separator.length - 1) rest
    else consFirst c (splitFrom separator 0 rest)

/-- The pieces of a text between the places of a separator, which is not empty. -/
def splitOn (separator text : Text) : List Text :=
  splitFrom separator 0 text

/-- The number of bytes of a text in UTF-8. -/
def byteLength (s : Text) : Nat :=
  s.foldr (fun c n => c.utf8Size + n) 0

/-- The decimal digits of a number. -/
def ofNat (n : Nat) : Text :=
  Nat.toDigits 10 n

end Text

end Sentential

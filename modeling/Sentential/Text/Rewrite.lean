import Sentential.Text.WordChar

/-!
# Rewriting a text

A pattern looks at one place of a text, knowing the character before it, and tells how much it
takes there and what is to be written instead. `Pattern.rewrite` walks a text from left to right
and lets the pattern write at the first place where it takes something, then goes on behind what
was taken. A pattern always takes at least one character, so every step passes one.

The patterns for phrases are written while the program runs, and the engine for written patterns may
refuse one (`Engine`), whatever the text is that is to be rewritten.
-/

namespace Sentential.Text

/-- What a pattern does at a place. -/
structure Hit where
  /-- The number of characters taken besides the first. -/
  more : Nat
  /-- What is written instead. -/
  text : Text
deriving Repr, DecidableEq

/-- A pattern: the character before a place and the text from there on decide. -/
abbrev Pattern := Option Char → Text → Option Hit

namespace Pattern

/-- Rewrites from a place on, after passing the given number of characters taken before. -/
def rewriteFrom (p : Pattern) : Nat → Option Char → Text → Text
  | _, _, [] => []
  | skip + 1, _, c :: rest => rewriteFrom p skip (some c) rest
  | 0, before, c :: rest =>
    match p before (c :: rest) with
    | some hit => hit.text ++ rewriteFrom p hit.more (some c) rest
    | none => c :: rewriteFrom p 0 (some c) rest

/-- Writes the new text at every place of the pattern, from left to right. -/
def rewrite (p : Pattern) (s : Text) : Text :=
  rewriteFrom p 0 none s

/-- The first pattern where it takes something, else the second. -/
def or (p q : Pattern) : Pattern := fun before s => (p before s).or (q before s)

/-- A phrase wherever it stands. -/
def literal (phrase new : Text) : Pattern := fun _ s =>
  if phrase.isPrefixOf s then some ⟨phrase.length - 1, new⟩ else none

/-- A phrase that stands between two word boundaries, its letters compared after `fold`. -/
def wholeBy (fold : Char → Char) (phrase new : Text) : Pattern := fun before s =>
  let taken := s.take phrase.length
  if boundary before s.head? && taken.map fold == phrase
      && boundary taken.getLast? (s.drop phrase.length).head? then
    some ⟨phrase.length - 1, new⟩
  else none

/-- A phrase that stands between two word boundaries. -/
def whole (phrase new : Text) : Pattern :=
  wholeBy id phrase new

end Pattern

/-! ## Engines -/

/-- An engine for written patterns. Which patterns it refuses, and in what words, is up to the
engine. -/
class Engine where
  /-- Why a written pattern is refused, if it is. -/
  refusal? : Text → Option Text

/-- An engine that refuses patterns for their size only. A pattern takes 32 bytes for each byte that
is written. -/
abbrev Engine.limited (room : Nat) : Engine where
  refusal? written :=
    if room < 32 * byteLength written then
      some ("Compiled regex exceeds size limit of ".toList ++ ofNat room ++ " bytes.".toList)
    else none

/-- The characters with a meaning of their own in a written pattern. -/
def metaChars : Text :=
  "\\.+*?()|[]^$#&-~".toList ++ ['{', '}']

/-- The written pattern for a phrase between two word boundaries. -/
def writtenWhole (phrase : Text) : Text :=
  "\\b".toList ++ phrase.flatMap (fun c => if c ∈ metaChars then ['\\', c] else [c])
    ++ "\\b".toList

end Sentential.Text

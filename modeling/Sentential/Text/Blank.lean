import Sentential.Text.Basic

/-!
# Blanks

The blank characters are those with the White_Space property. `tidy` leaves one space between the
words of a text and none at its ends; `trim` only clears the ends.
-/

namespace Sentential.Text

/-- The code points of blanks, in order. -/
def blankRanges : List (Nat × Nat) := [
  (0x9, 0xD), (0x20, 0x20), (0x85, 0x85), (0xA0, 0xA0), (0x1680, 0x1680), (0x2000, 0x200A),
  (0x2028, 0x2029), (0x202F, 0x202F), (0x205F, 0x205F), (0x3000, 0x3000)]

/-- Whether a character is a blank. -/
def isBlank (c : Char) : Bool :=
  inRanges c.toNat blankRanges

/-- Whether a text holds nothing but blanks. -/
def isBlankText (s : Text) : Bool :=
  s.all isBlank

/-- The words of a text: its longest stretches without a blank. -/
def words (s : Text) : List Text :=
  runs (fun c => !isBlank c) s

/-- Words set one space apart. -/
def unwords (ws : List Text) : Text :=
  [' '].intercalate ws

/-- Every stretch of blanks as one space, and none at the ends. -/
def tidy (s : Text) : Text :=
  unwords (words s)

/-- A text without the blanks at its end. -/
def trimEnd (s : Text) : Text :=
  (s.reverse.dropWhile isBlank).reverse

/-- A text without the blanks at its two ends. -/
def trim (s : Text) : Text :=
  trimEnd (s.dropWhile isBlank)

end Sentential.Text

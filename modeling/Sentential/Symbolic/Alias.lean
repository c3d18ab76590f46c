import Sentential.Text.Blank
import Sentential.Text.Rewrite

/-!
# Other spellings of the connectives

`<->`, `<=>`, `->` and the words `xor`, `iff` and `implies`, which stand as whole words and in any
case, are other spellings of `↔`, `→` and `⊕`. `mainSpelling` replaces them, one spelling after the
other, and tidies the blanks.
-/

namespace Sentential.Symbolic

open Text

/-- The letters of a word without their case. The long s counts as an s. -/
def foldLetter (c : Char) : Char :=
  if c = 'ſ' then 's' else c.toLower

/-- A connective written as a word. -/
def wordAlias (word : Text) (glyph : Char) : Pattern :=
  .wholeBy foldLetter word [glyph]

/-- The other spellings, in the order in which they are replaced. -/
def aliases : List Pattern :=
  [ (Pattern.literal "<->".toList ['↔']).or (.literal "<=>".toList ['↔']),
    .literal "->".toList ['→'],
    wordAlias "xor".toList '⊕',
    wordAlias "iff".toList '↔',
    wordAlias "implies".toList '→' ]

/-- A text in which every connective has its main spelling and blanks are single spaces. -/
def mainSpelling (s : Text) : Text :=
  tidy (aliases.foldl (fun s p => p.rewrite s) s)

end Sentential.Symbolic

import Sentential.Text.Blank
import Sentential.Text.Lower
import Sentential.Text.Rewrite

/-!
# The normal form of a sentence

A sentence in normal form is in lower case, without punctuation and with single spaces, and has
`e` for `mas`, `se e somente se` for `ssi` and `não` for `nao`.
-/

namespace Sentential.Sentence

open Text

/-- The marks that count as blanks. -/
def punctuation : Text :=
  ".,;:!?".toList

/-- A text with a space for every mark. -/
def dropPunctuation (s : Text) : Text :=
  s.map fun c => if punctuation.contains c then ' ' else c

/-- Informal words, each with what is written for it. -/
def informalWords : List Pattern :=
  [ .whole "mas".toList " e ".toList,
    .whole "ssi".toList " se e somente se ".toList,
    .whole "nao".toList " não ".toList ]

/-- The normal form of a sentence. -/
def normal (s : Text) : Text :=
  tidy (informalWords.foldl (fun s p => p.rewrite s) (dropPunctuation (lower s)))

end Sentential.Sentence

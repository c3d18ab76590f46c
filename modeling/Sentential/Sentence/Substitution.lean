import Sentential.Dictionary.Basic
import Sentential.Text.Lower
import Sentential.Text.Rewrite

/-!
# Labels for phrases

The phrases of a dictionary that stand in a sentence as whole words are replaced by their labels,
longer phrases before shorter ones so that no short phrase takes a part of a longer one. Phrases of
one length are taken in the order of the dictionary, and blank ones not at all. A phrase whose
pattern the engine refuses is passed over.
-/

namespace Sentential.Sentence

open Text

/-- The entries of a dictionary in the order in which their phrases are replaced. -/
def replacements (d : Dictionary) : List (Text × Text) :=
  (d.entries.filter fun entry => !isBlankText entry.2).mergeSort
    fun a b => b.2.length ≤ a.2.length

variable [Engine]

/-- Why the engine refuses the pattern for a phrase, if it does. -/
def refusal? (phrase : Text) : Option Text :=
  Engine.refusal? (writtenWhole (lower phrase))

/-- A text with a label for the phrase of an entry, unless the pattern for it is refused. -/
def putLabel (s : Text) (entry : Text × Text) : Text :=
  match refusal? entry.2 with
  | some _ => s
  | none => (Pattern.whole (lower entry.2) ([' '] ++ entry.1 ++ [' '])).rewrite s

/-- A text with labels for the phrases of a dictionary. -/
def substitute (d : Dictionary) (s : Text) : Text :=
  (replacements d).foldl putLabel s

end Sentential.Sentence

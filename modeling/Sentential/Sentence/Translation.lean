import Sentential.Sentence.Normal
import Sentential.Sentence.Rule
import Sentential.Sentence.Substitution

/-!
# From sentences to symbolic text

A sentence is brought into normal form, labels are put for the phrases of a dictionary, and the
rules are applied. What nothing matches stays as it is, so the outcome need not be a formula.
-/

namespace Sentential.Sentence

/-- The symbolic text of a sentence. -/
def translate [Text.Engine] (d : Dictionary) (s : Text) : Text :=
  Text.tidy (applyRules (substitute d (normal s)))

end Sentential.Sentence

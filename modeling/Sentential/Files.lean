import Sentential.Text.Basic

/-!
# Files

What the program can see of the files around it: for each name, whether there is a file and what it
holds.
-/

namespace Sentential

/-- What a file holds. -/
inductive FileContent where
  /-- Text in UTF-8. -/
  | text (s : Text)
  /-- Anything else. -/
  | binary
deriving DecidableEq, Repr

/-- The files that can be read, by name. -/
abbrev Files := Text → Option FileContent

end Sentential

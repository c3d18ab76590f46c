import Sentential.Dictionary.Basic
import Sentential.Yaml.Reader
import Sentential.Yaml.Writer

/-!
# Dictionaries as YAML

A dictionary is a mapping with an entry for each label, in order. Reading inserts the entries one
after the other.
-/

namespace Sentential.Dictionary

/-- The YAML text of a dictionary. -/
def yaml (d : Dictionary) : Text :=
  Yaml.mapping d.entries

/-- The dictionary that YAML text spells. -/
def readYaml? (s : Text) : Option Dictionary :=
  (Yaml.read? s).map ofList

end Sentential.Dictionary

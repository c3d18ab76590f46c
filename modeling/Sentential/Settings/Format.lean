import Sentential.Text.Basic

/-!
# Output formats

The forms in which formulas and dictionaries can be written, and their names.
-/

namespace Sentential

/-- A form in which formulas are written. -/
inductive FormulaFormat where
  | symbolic
  | natural
  | treeviz
  | json
deriving DecidableEq, Repr

namespace FormulaFormat

/-- All forms. -/
def all : List FormulaFormat :=
  [.symbolic, .natural, .treeviz, .json]

/-- The name of a form. -/
def name : FormulaFormat → Text
  | .symbolic => "symbolic".toList
  | .natural => "natural".toList
  | .treeviz => "treeviz".toList
  | .json => "json".toList

/-- The form of a name. -/
def ofName? (name : Text) : Option FormulaFormat :=
  all.find? fun format => format.name == name

/-- What is said of a name that no form has. -/
def unknownMessage (name : Text) : Text :=
  "Unknown format '".toList ++ name ++ "'. Available formats: ".toList
    ++ ", ".toList.intercalate (all.map FormulaFormat.name)

end FormulaFormat

/-- A form in which dictionaries are written. -/
inductive DictionaryFormat where
  | json
  | yaml
deriving DecidableEq, Repr

namespace DictionaryFormat

/-- All forms. -/
def all : List DictionaryFormat :=
  [.json, .yaml]

/-- The name of a form. -/
def name : DictionaryFormat → Text
  | .json => "json".toList
  | .yaml => "yaml".toList

/-- The form of a name. -/
def ofName? (name : Text) : Option DictionaryFormat :=
  all.find? fun format => format.name == name

/-- What is said of a name that no form has. -/
def unknownMessage (name : Text) : Text :=
  "Unknown dictionary format '".toList ++ name ++ "'. Available formats: ".toList
    ++ ", ".toList.intercalate (all.map DictionaryFormat.name)

end DictionaryFormat

end Sentential

import Sentential.Dictionary.Basic
import Sentential.Files
import Sentential.Path
import Sentential.Settings.Format
import Sentential.Settings.Place
import Sentential.Toml.Reader

/-!
# Settings

Settings are built up in layers: built-in values first, then files in the order in which they were
added, then single values that override all files, wherever they were added. The single values are
hashed by their places, and the last one for a place counts. Only the outcome is checked, so a bad
value does no harm if a later layer replaces it.
-/

namespace Sentential

/-- The settings of the program. -/
structure Settings where
  /-- The form in which formulas are written. -/
  format : FormulaFormat
  /-- The form in which dictionaries are written. -/
  dictionaryFormat : DictionaryFormat
  /-- The labels and phrases of the dictionary to start with. -/
  initial : List (Text × Text)
deriving DecidableEq, Repr

/-- What is added to the settings. -/
inductive Layer where
  /-- A file, which has to exist and to hold text if it is required. -/
  | file (name : Text) (required : Bool)
  /-- A value for a place. -/
  | override (place : Text) (value : Setting)

/-- Why there are no settings. -/
inductive SettingsError where
  | missingFile (name : Text)
  | unreadableFile (name : Text)
  | malformedFile (name : Text)
  | badPlace (place : Text)
  | badValue
deriving DecidableEq, Repr

namespace Settings

/-! ## From values to settings -/

/-- The fields of a group of settings, by name, or in order if the group is given as a list. -/
def field? (names : List Text) (name : Text) : Setting → Option Setting
  | .table entries => entries.lookup name
  | .list items => (names.zip items).lookup name
  | _ => none

/-- The text of a single value. -/
def text? : Setting → Option Text
  | .text s => some s
  | .integer n => some (toString n).toList
  | .bool true => some "true".toList
  | .bool false => some "false".toList
  | _ => none

/-- The name of a choice, in lower case. A table with one key names it by its key. -/
def choice? : Setting → Option Text
  | .text s => some (Text.lower s)
  | .table [(key, _)] => some (Text.lower key)
  | _ => none

/-- A label and its phrase. -/
def entry? (s : Setting) : Option (Text × Text) := do
  let names := ["label".toList, "phrase".toList]
  let label ← field? names "label".toList s
  let phrase ← field? names "phrase".toList s
  return (← text? label, ← text? phrase)

/-- The settings that a tree of values holds. -/
def ofSetting? (root : Setting) : Option Settings := do
  let output ← field? [] "output".toList root
  let dictionary ← field? [] "dictionary".toList root
  let names := ["format".toList, "dictionary_format".toList]
  let format ← field? names "format".toList output
  let dictionaryFormat ← field? names "dictionary_format".toList output
  let entries ← field? ["default".toList] "default".toList dictionary
  match entries with
  | .list items =>
    return {
      format := ← FormulaFormat.ofName? (← choice? format)
      dictionaryFormat := ← DictionaryFormat.ofName? (← choice? dictionaryFormat)
      initial := ← items.mapM entry? }
  | _ => none

/-! ## Layers -/

/-- A label and its phrase as a value. -/
def entrySetting (label phrase : String) : Setting :=
  .table [("label".toList, .text label.toList), ("phrase".toList, .text phrase.toList)]

/-- The built-in values. -/
def builtIn : Setting :=
  .table
    [ ("output".toList, .table
        [ ("format".toList, .text "symbolic".toList),
          ("dictionary_format".toList, .text "json".toList) ]),
      ("dictionary".toList, .table
        [ ("default".toList, .list
            [ entrySetting "A" "está chovendo",
              entrySetting "B" "levarei guarda-chuva",
              entrySetting "C" "a rua está molhada" ]) ]) ]

/-- A file by its name, or else by its name with `.toml` behind it. -/
def findFile (files : Files) (name : Text) : Option FileContent :=
  (files name).or ((Path.extend? name ".toml".toList).bind files)

/-- Merges an entry of a file. A key that writes a place stands for that place. -/
def mergeEntry (root : Setting) (entry : Text × Setting) : Setting :=
  let key := Text.lower entry.1
  Setting.setAt entry.2 ((Setting.readPlace? key).getD [.key key]) root

section
variable [Hashing]

/-- Merges the entries of a file, in the order in which its table lists them. -/
def mergeEntries (root : Setting) (entries : List (Text × Setting)) : Setting :=
  (Hashing.listed (Setting.hashedEntries entries)).foldl mergeEntry root

/-- Merges a file. One that is not required is passed over if it is missing or holds no text, but
not if its text is malformed. -/
def mergeFile (files : Files) (name : Text) (required : Bool) (root : Setting) :
    Except SettingsError Setting :=
  match findFile files name with
  | none => if required then .error (.missingFile name) else .ok root
  | some .binary => if required then .error (.unreadableFile name) else .ok root
  | some (.text s) =>
    match Toml.read? s with
    | none => .error (.malformedFile name)
    | some entries => .ok (mergeEntries root entries)

/-- Merges the files among some layers, in order. -/
def mergeFiles (files : Files) (root : Setting) : List Layer → Except SettingsError Setting
  | [] => .ok root
  | .file name required :: more => do
    mergeFiles files (← mergeFile files name required root) more
  | .override _ _ :: more => mergeFiles files root more

/-- The overriding values among some layers, each with its place. Of the values for one place only
the last one counts. -/
def overrides : List Layer → Except SettingsError (List (List Setting.Turn × Setting))
  | [] => .ok []
  | .file _ _ :: more => overrides more
  | .override place value :: more =>
    match Setting.readPlace? (Text.lower place) with
    | none => .error (.badPlace place)
    | some turns => do
      let later ← overrides more
      return if turns ∈ later.map Prod.fst then later else (turns, value) :: later

/-- Sets overriding values at their places, in the order in which they are listed. -/
def override (root : Setting) (given : List (List Setting.Turn × Setting)) : Setting :=
  (Hashing.listed given).foldl (fun root entry => Setting.setAt entry.2 entry.1 root) root

/-- The settings that arise from the built-in values and some layers. -/
def load (files : Files) (layers : List Layer) : Except SettingsError Settings := do
  let given ← overrides layers
  let merged ← mergeFiles files builtIn layers
  match ofSetting? (override merged given) with
  | some settings => .ok settings
  | none => .error .badValue

end

/-- The dictionary to start with. -/
def dictionary (settings : Settings) : Dictionary :=
  Dictionary.ofList settings.initial

end Settings

end Sentential

import Sentential.CommandLine.Command
import Sentential.Dictionary.Json
import Sentential.Dictionary.Yaml
import Sentential.Formula.Canonical
import Sentential.Formula.Json
import Sentential.Formula.Outline
import Sentential.Path
import Sentential.Sentence.Clause
import Sentential.Sentence.Reading
import Sentential.Sentence.Translation
import Sentential.Settings.Basic
import Sentential.Symbolic.Parser

/-!
# Running a command

A run reads the arguments, then the settings, then does what the command asks for, and the first
thing that goes wrong is what it tells. The name of a form is checked before any file is read, and
a formula before the dictionary that its phrases come from; for a translation the dictionary comes
first. A dictionary file is read only if the output needs it.
-/

namespace Sentential.CommandLine

/-- Why a command has no result. -/
inductive Failure where
  | formula (cause : Symbolic.ReadError)
  | unknownFormat (name : Text)
  | unknownDictionaryFormat (name : Text)
  | settings (cause : SettingsError)
  | unreadable (name : Text)
  | json (fault : Json.Fault)
  | yaml
deriving DecidableEq, Repr

/-- The name of the program and its version. -/
def versionLine : Text :=
  "logica 0.1.0".toList

/-- The file of settings that is read if it is there. -/
def settingsFile : Text :=
  "logica.toml".toList

/-- The layer that a form named on the command line adds to the settings. -/
def formatLayer : Command → Except Failure (List Layer)
  | .parse _ (some name) _ =>
    match FormulaFormat.ofName? name with
    | some format => .ok [.override "output.format".toList (.text format.name)]
    | none => .error (.unknownFormat name)
  | .dictionary _ (some name) =>
    match DictionaryFormat.ofName? name with
    | some format => .ok [.override "output.dictionary_format".toList (.text format.name)]
    | none => .error (.unknownDictionaryFormat name)
  | _ => .ok []

/-- The settings of a run: the built-in ones, then the usual file, then a file that was named, then
a form that was named. -/
def settings [Hashing] (files : Files) (invocation : Invocation) : Except Failure Settings := do
  let named ← formatLayer invocation.command
  let config : List Layer := invocation.config.toList.map fun name => .file name true
  (Settings.load files ([.file settingsFile false] ++ config ++ named)).mapError .settings

/-- The formula that a text spells. -/
def formula (s : Text) : Except Failure Formula :=
  (Symbolic.read s).mapError .formula

/-- The dictionary of a file, which is in YAML or JSON by the ending of its name, or that of the
settings if no file is named. -/
def dictionary (files : Files) (settings : Settings) (name? : Option Text) :
    Except Failure Dictionary :=
  match name? with
  | none => .ok settings.dictionary
  | some name =>
    match files name with
    | some (.text s) =>
      if (Path.ending? name).any fun ending => ending = "yaml".toList || ending = "yml".toList then
        match Dictionary.readYaml? s with
        | some d => .ok d
        | none => .error .yaml
      else (Dictionary.readJson s).mapError .json
    | _ => .error (.unreadable name)

/-- What a command prints, without the line feed at the end. -/
def perform [Text.Engine] (files : Files) (settings : Settings) : Command → Except Failure Text
  | .parse source _ dict => do
    let f ← formula source
    match settings.format with
    | .symbolic => return f.canonical
    | .natural => return f.reading (← dictionary files settings dict).phrase?
    | .treeviz => return Text.trimEnd (f.outline (← dictionary files settings dict).phrase?)
    | .json => return f.toJson.pretty
  | .realize source dict => do
    let f ← formula source
    return f.reading (← dictionary files settings dict).phrase?
  | .dictionary sentence _ =>
    let d := Sentence.learn sentence
    match settings.dictionaryFormat with
    | .json => .ok d.toJson.pretty
    | .yaml => .ok (Text.trimEnd d.yaml)
  | .translate sentence dict check => do
    let translated := Sentence.translate (← dictionary files settings dict) sentence
    if check then return (← formula translated).canonical else return translated

/-- How a run ends. -/
inductive Outcome where
  /-- The command prints a text. -/
  | printed (output : Text)
  /-- The command has no result. -/
  | failed (cause : Failure)
  /-- The arguments ask for help. -/
  | helped
  /-- The arguments make no sense. -/
  | misused (cause : Misuse)
deriving DecidableEq, Repr

/-- Runs the program among some files. -/
def run [Hashing] [Text.Engine] (files : Files) (arguments : List Text) : Outcome :=
  match readArguments arguments with
  | .error .help => .helped
  | .error .version => .printed versionLine
  | .error (.misuse cause) => .misused cause
  | .ok invocation =>
    match settings files invocation >>= fun s => perform files s invocation.command with
    | .ok output => .printed output
    | .error cause => .failed cause

/-! ## The outside of the program -/

/-- The engine of the program has ten mebibytes of room for a pattern. -/
instance : Text.Engine :=
  .limited (10 * 1024 * 1024)

/-- The program takes the entries of tables as they are written. -/
instance : Hashing :=
  .asWritten

end Sentential.CommandLine

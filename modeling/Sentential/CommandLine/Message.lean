import Sentential.CommandLine.Run

/-!
# Messages of the command line

What is said of a run that has no result, and the status with which the program ends.
-/

namespace Sentential

open Text

/-- The wording of a reason why there are no settings. -/
def SettingsError.message : SettingsError → Text
  | .missingFile name => "configuration file ".toList ++ quote name ++ " not found".toList
  | .unreadableFile name => "configuration file ".toList ++ quote name ++ " is not UTF-8".toList
  | .malformedFile name => "configuration file ".toList ++ quote name ++ " is not TOML".toList
  | .badPlace place => "invalid key ".toList ++ quote place
  | .badValue => "a value is missing or of the wrong kind".toList

namespace CommandLine

/-- The wording of a failure. -/
def Failure.message : Failure → Text
  | .formula cause => "Formula error: ".toList ++ cause.message
  | .unknownFormat name => FormulaFormat.unknownMessage name
  | .unknownDictionaryFormat name => DictionaryFormat.unknownMessage name
  | .settings cause => "Configuration error: ".toList ++ cause.message
  | .unreadable name => "I/O error: cannot read ".toList ++ quote name
  | .json .unfinished => "JSON error: the text ends too early".toList
  | .json .malformed => "JSON error: the text is malformed".toList
  | .json .mistyped => "JSON error: a dictionary maps strings to strings".toList
  | .yaml => "YAML error: a dictionary is a mapping of scalars".toList

/-- The line that tells of a failure. -/
def Failure.report (cause : Failure) : Text :=
  "Error: ".toList ++ cause.message ++ ['\n']

/-- The wording of a misuse. -/
def Misuse.message : Misuse → Text
  | .unknownOption option => "unknown option ".toList ++ quote option
  | .repeatedOption option => "option --".toList ++ option.word ++ " is given twice".toList
  | .missingValue option => "option --".toList ++ option.word ++ " needs a value".toList
  | .needlessValue option => "option --".toList ++ option.word ++ " takes no value".toList
  | .missingCommand => "a command is missing".toList
  | .unknownCommand name => "unknown command ".toList ++ quote name
  | .missingOperand => "an operand is missing".toList
  | .extraArgument argument => "unexpected argument ".toList ++ quote argument

/-- How to use the program. -/
def usage : Text :=
  "Usage: logica [-c FILE] COMMAND

  parse FORMULA [-f symbolic|natural|treeviz|json] [-d FILE]
  realize FORMULA [-d FILE]
  dictionary TEXT [-f json|yaml]
  translate TEXT [-d FILE] [--check]
".toList

/-- The text for standard output. -/
def Outcome.output : Outcome → Text
  | .printed output => output ++ ['\n']
  | .helped => usage
  | .failed _ => []
  | .misused _ => []

/-- The text for standard error. -/
def Outcome.report : Outcome → Text
  | .failed cause => cause.report
  | .misused cause => "error: ".toList ++ cause.message ++ "\n\n".toList ++ usage
  | .printed _ => []
  | .helped => []

/-- The status with which the program ends. -/
def Outcome.status : Outcome → Nat
  | .printed _ => 0
  | .helped => 0
  | .failed _ => 1
  | .misused _ => 2

end CommandLine

end Sentential

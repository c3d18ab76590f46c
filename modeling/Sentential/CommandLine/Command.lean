import Sentential.CommandLine.Option

/-!
# Commands

The command line names one command with one operand, a formula or a sentence. Options stand before
and behind the operand, and the file of settings may be given before the command as well; if it is
given on both sides, the one behind counts.
-/

namespace Sentential.CommandLine

/-- What is to be done. -/
inductive Command where
  /-- Reads a formula and writes it in a form. -/
  | parse (formula : Text) (format dict : Option Text)
  /-- Reads a formula and writes it as a sentence. -/
  | realize (formula : Text) (dict : Option Text)
  /-- Learns a dictionary from a sentence. -/
  | dictionary (sentence : Text) (format : Option Text)
  /-- Translates a sentence to a formula, and reads the formula to check it if asked to. -/
  | translate (sentence : Text) (dict : Option Text) (check : Bool)
deriving DecidableEq, Repr

/-- A command and the file of settings to use with it. -/
structure Invocation where
  config : Option Text
  command : Command
deriving DecidableEq, Repr

/-- The names of the commands. -/
inductive CommandName where
  | parse
  | realize
  | dictionary
  | translate
deriving DecidableEq, Repr

namespace CommandName

/-- All names. -/
def all : List CommandName :=
  [.parse, .realize, .dictionary, .translate]

/-- The spelling of a name. -/
def text : CommandName → Text
  | .parse => "parse".toList
  | .realize => "realize".toList
  | .dictionary => "dictionary".toList
  | .translate => "translate".toList

/-- The name of a spelling. -/
def ofText? (s : Text) : Option CommandName :=
  all.find? fun name => name.text == s

/-- The options of a command. -/
def options : CommandName → List Switch
  | .parse => [.format, .dict, .config, .help]
  | .realize => [.dict, .config, .help]
  | .dictionary => [.format, .config, .help]
  | .translate => [.dict, .check, .config, .help]

/-- A command with its operand and its options. -/
def command (operand : Text) (given : Given) : CommandName → Command
  | .parse => .parse operand (given.lookup .format) (given.lookup .dict)
  | .realize => .realize operand (given.lookup .dict)
  | .dictionary => .dictionary operand (given.lookup .format)
  | .translate => .translate operand (given.lookup .dict) (given.lookup .check).isSome

end CommandName

/-- The options that can stand before a command. -/
def leadingOptions : List Switch :=
  [.config, .help, .version]

/-- The operand and the options of a command. -/
def readOperand (name : CommandName) (arguments : List Text) : Except Stop (Text × Given) := do
  match ← readOptions name.options [] none arguments with
  | (_, []) => .error (.misuse .missingOperand)
  | (given, first :: rest) =>
    if Argument.ofText first = .escape then
      match rest with
      | [] => .error (.misuse .missingOperand)
      | [operand] => return (operand, given)
      | _ :: extra :: _ => .error (.misuse (.extraArgument extra))
    else
      match ← readOptions name.options given none rest with
      | (given, []) => return (first, given)
      | (given, next :: more) =>
        if Argument.ofText next = .escape then
          match more with
          | [] => return (first, given)
          | extra :: _ => .error (.misuse (.extraArgument extra))
        else .error (.misuse (.extraArgument next))

/-- The names behind the command for help: one command at most. -/
def readHelp (names : List Text) : Stop :=
  let known (name : Text) : Bool := (CommandName.ofText? name).isSome || name == "help".toList
  match names with
  | [] => .help
  | [name] => if known name then .help else .misuse (.unknownCommand name)
  | name :: extra :: _ =>
    if known name then .misuse (.extraArgument extra) else .misuse (.unknownCommand name)

/-- What the arguments ask for. -/
def readArguments (arguments : List Text) : Except Stop Invocation := do
  match ← readOptions leadingOptions [] none arguments with
  | (_, []) => .error (.misuse .missingCommand)
  | (leading, first :: rest) =>
    if Argument.ofText first = .escape then
      match rest with
      | [] => .error (.misuse .missingCommand)
      | extra :: _ => .error (.misuse (.extraArgument extra))
    else if first = "help".toList then .error (readHelp rest)
    else
      match CommandName.ofText? first with
      | none => .error (.misuse (.unknownCommand first))
      | some name =>
        let (operand, given) ← readOperand name rest
        return {
          config := (given.lookup .config).or (leading.lookup .config)
          command := name.command operand given }

end Sentential.CommandLine

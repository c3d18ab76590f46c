import Sentential.Text.Basic

/-!
# Options of the command line

An argument is a long option, a cluster of options of one letter each, the sign that no more
options follow, or plain. An option with a value finds it behind an equals sign, in the rest of
its cluster, or in the next argument, which has to be plain. No option is given twice, and no
value to an option that takes none.
-/

namespace Sentential.CommandLine

/-- An option. -/
inductive Switch where
  | config
  | format
  | dict
  | check
  | help
  | version
deriving DecidableEq, Repr

namespace Switch

/-- The word of an option behind two hyphens. -/
def word : Switch → Text
  | .config => "config".toList
  | .format => "format".toList
  | .dict => "dict".toList
  | .check => "check".toList
  | .help => "help".toList
  | .version => "version".toList

/-- The letter of an option behind one hyphen. -/
def letter? : Switch → Option Char
  | .config => some 'c'
  | .format => some 'f'
  | .dict => some 'd'
  | .check => none
  | .help => some 'h'
  | .version => some 'V'

/-- Whether an option takes a value. -/
def takesValue : Switch → Bool
  | .config => true
  | .format => true
  | .dict => true
  | .check => false
  | .help => false
  | .version => false

end Switch

/-- What is wrong with some arguments. -/
inductive Misuse where
  | unknownOption (option : Text)
  | repeatedOption (option : Switch)
  | missingValue (option : Switch)
  | needlessValue (option : Switch)
  | missingCommand
  | unknownCommand (name : Text)
  | missingOperand
  | extraArgument (argument : Text)
deriving DecidableEq, Repr

/-- Why arguments are read no further. -/
inductive Stop where
  | help
  | version
  | misuse (cause : Misuse)
deriving DecidableEq, Repr

/-- The options given so far, each with its value or an empty text. -/
abbrev Given := List (Switch × Text)

namespace Given

/-- Adds an option. One that asks for information ends the reading. -/
def add (given : Given) (option : Switch) (value : Text) : Except Stop Given :=
  match option with
  | .help => .error .help
  | .version => .error .version
  | _ =>
    if (given.lookup option).isSome then .error (.misuse (.repeatedOption option))
    else .ok (given ++ [(option, value)])

end Given

/-- A kind of argument. -/
inductive Argument where
  | plain (s : Text)
  | escape
  | long (word : Text) (value : Option Text)
  | cluster (letters : Text)
deriving DecidableEq, Repr

/-- The kind of an argument. A hyphen by itself is plain. -/
def Argument.ofText (s : Text) : Argument :=
  match s with
  | ['-'] => .plain s
  | ['-', '-'] => .escape
  | '-' :: '-' :: rest =>
    match rest.dropWhile (· != '=') with
    | [] => .long rest none
    | _ :: value => .long (rest.takeWhile (· != '=')) (some value)
  | '-' :: letters => .cluster letters
  | _ => .plain s

/-- Adds a long option. The result tells, too, if the option still waits for its value. -/
def readLong (allowed : List Switch) (given : Given) (word : Text) (value : Option Text) :
    Except Stop (Given × Option Switch) :=
  match allowed.find? (fun option => option.word == word), value with
  | none, _ => .error (.misuse (.unknownOption word))
  | some option, some value =>
    if option.takesValue then do return (← given.add option value, none)
    else .error (.misuse (.needlessValue option))
  | some option, none =>
    if option.takesValue then .ok (given, some option)
    else do return (← given.add option [], none)

/-- Adds the options of a cluster. The result tells, too, if the last one still waits for its
value. -/
def readCluster (allowed : List Switch) (given : Given) :
    Text → Except Stop (Given × Option Switch)
  | [] => .ok (given, none)
  | letter :: rest =>
    match allowed.find? fun option => option.letter? == some letter with
    | none => .error (.misuse (.unknownOption [letter]))
    | some option =>
      if option.takesValue then
        match rest with
        | [] => .ok (given, some option)
        | '=' :: value => do return (← given.add option value, none)
        | value => do return (← given.add option value, none)
      else do readCluster allowed (← given.add option []) rest

/-- The options at the front of some arguments, and the rest, which is empty or begins with a plain
argument or the sign that no more options follow. -/
def readOptions (allowed : List Switch) (given : Given) (waiting : Option Switch) :
    List Text → Except Stop (Given × List Text)
  | [] =>
    match waiting with
    | none => .ok (given, [])
    | some option => .error (.misuse (.missingValue option))
  | argument :: rest =>
    match waiting, Argument.ofText argument with
    | some option, .plain value => do readOptions allowed (← given.add option value) none rest
    | some option, _ => .error (.misuse (.missingValue option))
    | none, .long word value => do
      let (given, waiting) ← readLong allowed given word value
      readOptions allowed given waiting rest
    | none, .cluster letters => do
      let (given, waiting) ← readCluster allowed given letters
      readOptions allowed given waiting rest
    | none, _ => .ok (given, argument :: rest)

end Sentential.CommandLine

import Sentential.CommandLine.Message

/-!
# The program

The program reads the files that its arguments can lead to, runs, and prints what the run has to
say.
-/

open Sentential Sentential.CommandLine

/-- The paths of the files that a run can look at. -/
def candidates (invocation : Invocation) : List Text :=
  let dict : Option Text :=
    match invocation.command with
    | .parse _ _ dict => dict
    | .realize _ dict => dict
    | .dictionary _ _ => none
    | .translate _ dict _ => dict
  let settings := settingsFile :: invocation.config.toList
  settings ++ settings.filterMap (fun path => Path.extend? path ".toml".toList) ++ dict.toList

/-- A file and its path, if it can be read. -/
def readFile? (path : Text) : IO (Option (Text × FileContent)) := do
  try
    let bytes ← IO.FS.readBinFile (String.ofList path)
    match String.fromUTF8? bytes with
    | some s => return some (path, .text s.toList)
    | none => return some (path, .binary)
  catch _ => return none

/-- Runs the program on its arguments. -/
def main (arguments : List String) : IO UInt32 := do
  let arguments := arguments.map String.toList
  let paths := match readArguments arguments with
    | .ok invocation => candidates invocation
    | .error _ => []
  let found ← paths.filterMapM readFile?
  let outcome := run (fun path => found.lookup path) arguments
  IO.print (String.ofList outcome.output)
  IO.eprint (String.ofList outcome.report)
  return outcome.status.toUInt32

import Sentential.Text.Basic

/-!
# Paths

A path names a file by its parts, with slashes between them. Empty parts and points by themselves
lead nowhere and count as nothing.
-/

namespace Sentential.Path

open Text

/-- The parts of a path that lead somewhere. -/
def parts (path : Text) : List Text :=
  (splitOn ['/'] path).filter fun part => !part.isEmpty && part != ['.']

/-- The name of the file that a path leads to, unless it ends by going up. -/
def name? (path : Text) : Option Text :=
  (parts path).getLast?.filter (· != ['.', '.'])

/-- What stands behind the last point of a file name, unless nothing stands before it. -/
def ending? (path : Text) : Option Text := do
  let name ← name? path
  let reversed := name.reverse
  match reversed.dropWhile (· != '.') with
  | _ :: _ :: _ => some (reversed.takeWhile (· != '.')).reverse
  | _ => none

/-- A path whose file name has more characters behind it. -/
def extend? (path more : Text) : Option Text := do
  let _ ← name? path
  let root : Text := if path.head? == some '/' then ['/'] else []
  return root ++ ['/'].intercalate (parts path) ++ more

end Sentential.Path

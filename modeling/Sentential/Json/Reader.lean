import Sentential.Json.Scanner
import Sentential.Json.Value

/-!
# Reading JSON text

Lists and objects are read by loops over a given reader of what stands in them, so that a reader
of wanted values stops at an unwanted one before it looks at the text behind it. `readValue` reads
values of every kind and holds the nesting of lists and objects to a number of levels.
-/

namespace Sentential.Json

open Text

/-- A reader takes a value from the front of a text. -/
abbrev Reader (α : Type) := (s : Text) → Except Fault (Scanned α s)

/-- The items of a list from one of them on, up to the closing bracket. -/
def readItems {α : Type} (item : Reader α) (s : Text) : Except Fault (Scanned (List α) s) :=
  match item s with
  | .error fault => .error fault
  | .ok first =>
    match nextChar? first.rest with
    | none => .error .unfinished
    | some mark =>
      if mark.value = ']' then .ok ((first.followedBy mark).map fun _ => [first.value])
      else if mark.value = ',' then
        match readItems item mark.rest with
        | .error fault => .error fault
        | .ok more => .ok ((first.followedBy (mark.followedBy more)).map (first.value :: ·))
      else .error .malformed
termination_by s.length
decreasing_by exact Nat.lt_trans mark.shorter first.shorter

/-- The items of a list, behind its opening bracket. -/
def readList {α : Type} (item : Reader α) (s : Text) : Except Fault (Scanned (List α) s) :=
  match nextChar? s with
  | none => readItems item s
  | some mark => if mark.value = ']' then .ok (mark.map fun _ => []) else readItems item s

/-- A key and the colon behind it. -/
def readKey (s : Text) : Except Fault (Scanned Text s) :=
  match nextChar? s with
  | none => .error .unfinished
  | some quote =>
    if quote.value = '\x22' then
      match readString quote.rest with
      | .error fault => .error fault
      | .ok key =>
        match nextChar? key.rest with
        | none => .error .unfinished
        | some mark =>
          if mark.value = ':' then
            .ok ((quote.followedBy (key.followedBy mark)).map fun _ => key.value)
          else .error .malformed
    else .error .malformed

/-- The fields of an object from one of them on, up to the closing brace. -/
def readFields {α : Type} (value : Reader α) (s : Text) :
    Except Fault (Scanned (List (Text × α)) s) :=
  match readKey s with
  | .error fault => .error fault
  | .ok key =>
    match value key.rest with
    | .error fault => .error fault
    | .ok content =>
      match nextChar? content.rest with
      | none => .error .unfinished
      | some mark =>
        let field := key.followedBy content
        if mark.value = '\x7d' then
          .ok ((field.followedBy mark).map fun _ => [(key.value, content.value)])
        else if mark.value = ',' then
          match readFields value mark.rest with
          | .error fault => .error fault
          | .ok more =>
            .ok ((field.followedBy (mark.followedBy more)).map ((key.value, content.value) :: ·))
        else .error .malformed
termination_by s.length
decreasing_by exact Nat.lt_trans mark.shorter (key.followedBy content).shorter

/-- The fields of an object, behind its opening brace. -/
def readObject {α : Type} (value : Reader α) (s : Text) :
    Except Fault (Scanned (List (Text × α)) s) :=
  match nextChar? s with
  | none => readFields value s
  | some mark => if mark.value = '\x7d' then .ok (mark.map fun _ => []) else readFields value s

/-- A value that is neither a list nor an object. -/
def readScalar (s : Text) : Except Fault (Scanned Value s) :=
  match nextChar? s with
  | none => .error .unfinished
  | some mark =>
    let word (tail : Text) (value : Value) : Except Fault (Scanned Value s) :=
      match skipWord tail mark.rest with
      | .error fault => .error fault
      | .ok after => .ok ((mark.upTo after).map fun _ => value)
    if mark.value = '\x22' then
      match readString mark.rest with
      | .error fault => .error fault
      | .ok text => .ok ((mark.followedBy text).map .string)
    else if mark.value = '-' ∨ isDigit mark.value then
      match readNumber (skipSpace s).val with
      | .error fault => .error fault
      | .ok number => .ok (((skipSpace s).scanned number).map .number)
    else if mark.value = 'n' then word "ull".toList .null
    else if mark.value = 't' then word "rue".toList (.bool true)
    else if mark.value = 'f' then word "alse".toList (.bool false)
    else .error .malformed

/-- A value in which lists and objects nest to at most the given number of levels. -/
def readValue (levels : Nat) (s : Text) : Except Fault (Scanned Value s) :=
  match nextChar? s with
  | none => .error .unfinished
  | some mark =>
    if mark.value = '[' then
      match levels with
      | 0 => .error .malformed
      | levels + 1 =>
        match readList (readValue levels) mark.rest with
        | .error fault => .error fault
        | .ok items => .ok ((mark.followedBy items).map .array)
    else if mark.value = '\x7b' then
      match levels with
      | 0 => .error .malformed
      | levels + 1 =>
        match readObject (readValue levels) mark.rest with
        | .error fault => .error fault
        | .ok fields => .ok ((mark.followedBy fields).map .object)
    else readScalar s

/-- What a reader makes of a whole text. -/
def readWhole {α : Type} (reader : Reader α) (s : Text) : Except Fault α :=
  match reader s with
  | .error fault => .error fault
  | .ok whole =>
    match nextChar? whole.rest with
    | none => .ok whole.value
    | some _ => .error .malformed

/-- The number of levels at which the lists and objects of a text may nest. -/
def maxLevels : Nat := 127

/-- The value that a text spells. -/
def read (s : Text) : Except Fault Value :=
  readWhole (readValue maxLevels) s

end Sentential.Json

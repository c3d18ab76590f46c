import Sentential.Dictionary.Basic
import Sentential.Json.Reader

/-!
# Dictionaries as JSON

A dictionary is an object with a string for each label, in the order of the entries. Reading
inserts the fields one after the other, so a repeated label keeps its place and takes the last
phrase. The first fault from the left counts: a value of another kind is told as soon as it has
been read, a list or an object at its bracket.
-/

namespace Sentential.Dictionary

open Json Text

/-- The JSON value of a dictionary. -/
def toJson (d : Dictionary) : Value :=
  .object (d.entries.map fun entry => (entry.1, .string entry.2))

/-- What is wrong with a text where a value of another kind is wanted. -/
def faultOf (s : Text) : Fault :=
  match nextChar? s with
  | none => .unfinished
  | some mark =>
    if mark.value = '[' ∨ mark.value = '\x7b' then .mistyped
    else
      match readScalar s with
      | .ok _ => .mistyped
      | .error fault => fault

/-- A phrase. -/
def readPhrase (s : Text) : Except Fault (Scanned Text s) :=
  match nextChar? s with
  | none => .error .unfinished
  | some mark =>
    if mark.value = '\x22' then
      match readString mark.rest with
      | .error fault => .error fault
      | .ok phrase => .ok (mark.followedBy phrase)
    else .error (faultOf s)

/-- The labels and phrases of an object. -/
def readPairs (s : Text) : Except Fault (Scanned (List (Text × Text)) s) :=
  match nextChar? s with
  | none => .error .unfinished
  | some mark =>
    if mark.value = '\x7b' then
      match readObject readPhrase mark.rest with
      | .error fault => .error fault
      | .ok pairs => .ok (mark.followedBy pairs)
    else .error (faultOf s)

/-- The dictionary that JSON text spells. -/
def readJson (s : Text) : Except Fault Dictionary :=
  match readWhole readPairs s with
  | .error fault => .error fault
  | .ok pairs => .ok (ofList pairs)

end Sentential.Dictionary

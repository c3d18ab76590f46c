import Sentential.Formula.Basic
import Sentential.Json.Reader

/-!
# Formulas as JSON

A formula is an object whose field `type` names the kind of its node, with the parts of the node
as further fields:

    {"type":"not","operand":{"type":"atom","name":"A"}}

Reading takes the fields in any order and passes over those that do not belong to the node, but a
field of the node may stand only once. It also takes a list in which the kind comes first and
the parts follow in order, a connective given as an object with its name as the only key and
nothing as its value, and, below the topmost node, a kind given by its number.
-/

namespace Sentential.Formula

open Json

/-- The JSON value of a formula. -/
def toJson : Formula → Value
  | .atom name => .object [("type".toList, .string "atom".toList), ("name".toList, .string name)]
  | .not operand =>
    .object [("type".toList, .string "not".toList), ("operand".toList, operand.toJson)]
  | .binary op left right =>
    .object
      [ ("type".toList, .string "binary".toList), ("op".toList, .string op.name),
        ("left".toList, left.toJson), ("right".toList, right.toJson) ]

/-- The kinds of nodes. -/
inductive NodeKind where
  | atom
  | not
  | binary
deriving DecidableEq, Repr

/-- The kind that a value names, by its number only if numbers are allowed. -/
def NodeKind.ofJson? (numbered : Bool) : Value → Option NodeKind
  | .string text =>
    if text = "atom".toList then some .atom
    else if text = "not".toList then some .not
    else if text = "binary".toList then some .binary
    else none
  | .number text =>
    if !numbered then none
    else if text = ['0'] then some .atom
    else if text = ['1'] then some .not
    else if text = ['2'] then some .binary
    else none
  | _ => none

/-- The connective that a value names. -/
def connective? : Value → Option Connective
  | .string name => Connective.ofName? name
  | .object [(name, .null)] => Connective.ofName? name
  | .object [(name, .object [])] => Connective.ofName? name
  | _ => none

/-- The text that a value holds. -/
def text? : Value → Option Text
  | .string text => some text
  | _ => none

/-- A part of a node: its value, and the formula that the value spells, if it does. -/
abbrev Part := Value × Option Formula

/-- The formula of a kind whose parts are found by name. -/
def assemble (part? : Text → Option Part) : NodeKind → Option Formula
  | .atom => do
    let name ← part? "name".toList
    return .atom (← text? name.1)
  | .not => do
    let operand ← part? "operand".toList
    return .not (← operand.2)
  | .binary => do
    let op ← part? "op".toList
    let left ← part? "left".toList
    let right ← part? "right".toList
    return .binary (← connective? op.1) (← left.2) (← right.2)

/-- The part of a name that stands exactly once among some fields. -/
def theField? (fields : List (Text × Part)) (name : Text) : Option Part :=
  match fields.filter fun field => field.1 == name with
  | [(_, part)] => some part
  | _ => none

/-- The formula of an object with the given fields. -/
def ofFields (numbered : Bool) (fields : List (Text × Part)) : Option Formula := do
  let kind ← NodeKind.ofJson? numbered (← theField? fields "type".toList).1
  assemble (theField? fields) kind

/-- The formula of a list with the given items. -/
def ofItems (numbered : Bool) : List Part → Option Formula
  | [] => none
  | kind :: parts =>
    match NodeKind.ofJson? numbered kind.1, parts with
    | some .atom, [name] => assemble (theField? [("name".toList, name)]) .atom
    | some .not, [operand] => assemble (theField? [("operand".toList, operand)]) .not
    | some .binary, [op, left, right] =>
      assemble
        (theField? [("op".toList, op), ("left".toList, left), ("right".toList, right)]) .binary
    | _, _ => none

mutual

/-- The formula that a value below the topmost one spells. -/
def ofInnerJson : Value → Option Formula
  | .object fields => ofFields true (fieldParts fields)
  | .array items => ofItems true (itemParts items)
  | _ => none

/-- The fields with the formulas they spell. -/
def fieldParts : List (Text × Value) → List (Text × Part)
  | [] => []
  | (name, value) :: more => (name, value, ofInnerJson value) :: fieldParts more

/-- The items with the formulas they spell. -/
def itemParts : List Value → List Part
  | [] => []
  | value :: more => (value, ofInnerJson value) :: itemParts more

end

/-- The formula that a whole value spells. -/
def ofJson? : Value → Option Formula
  | .object fields => ofFields false (fieldParts fields)
  | .array items => ofItems false (itemParts items)
  | _ => none

/-- The formula that JSON text spells. -/
def readJson? (s : Text) : Option Formula :=
  match Json.read s with
  | .ok value => ofJson? value
  | .error _ => none

end Sentential.Formula

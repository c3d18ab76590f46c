import Sentential.Entries
import Sentential.Yaml.Lexer

/-!
# Reading a mapping of texts from YAML

A text is read that holds one document at most, and in it a mapping of scalars, in block or flow
style. Every scalar counts as its text, whatever its tag, and an alias as the scalar of its anchor.
A document without content is the empty mapping.
-/

namespace Sentential.Yaml

/-- The entries of a mapping. -/
abbrev Entries := List (Text × Text)

/-- What stands for a key or a value. -/
inductive Node where
  | text (s : Text)
  /-- Whatever the anchor of a number stands at. -/
  | alias (number : Nat)
deriving DecidableEq, Repr

/-- The anchors that have been met. -/
structure Anchors where
  /-- The numbers of the names. A name gets the number of names before it, also if it had one. -/
  numbers : List (Text × Nat) := []
  /-- The scalars at the anchors by their numbers, the last ones first. -/
  scalars : List (Nat × Option Text) := []

/-- The anchors after one more at a scalar, or at a mapping. -/
def Anchors.add (anchors : Anchors) (name : Text) (scalar? : Option Text) : Anchors :=
  let number := anchors.numbers.length
  { numbers := Entries.put name number anchors.numbers
    scalars := (number, scalar?) :: anchors.scalars }

/-- The text of a node when all anchors are known. -/
def Node.text? (anchors : Anchors) : Node → Option Text
  | .text s => some s
  | .alias number => (anchors.scalars.lookup number).join

/-! ## Nodes -/

/-- What stands before a node: an anchor, a tag, or both in any order. -/
structure Properties where
  anchor? : Option Text := none
  tagged : Bool := false

/-- The properties at the front of some tokens, and the rest. The handle of a tag has to be
known. -/
def readProperties? (handles : List Text) (tokens : List Token) :
    Option (Properties × List Token) :=
  let known (handle : Text) : Bool := handle.isEmpty || handles.contains handle
  match tokens with
  | .anchor name :: .tag handle :: rest =>
    if known handle then some (⟨some name, true⟩, rest) else none
  | .tag handle :: .anchor name :: rest =>
    if known handle then some (⟨some name, true⟩, rest) else none
  | .anchor name :: rest => some (⟨some name, false⟩, rest)
  | .tag handle :: rest => if known handle then some (⟨none, true⟩, rest) else none
  | _ => some ({}, tokens)

/-- Whether there are any properties. -/
def Properties.any (properties : Properties) : Bool :=
  properties.anchor?.isSome || properties.tagged

/-- The anchors after those among some properties. -/
def Properties.addTo (properties : Properties) (scalar? : Option Text) (anchors : Anchors) :
    Anchors :=
  match properties.anchor? with
  | none => anchors
  | some name => anchors.add name scalar?

/-- A scalar or an alias, the anchors after it, and the rest of the tokens. Properties by themselves
stand before an empty scalar. -/
def readNode? (handles : List Text) (anchors : Anchors) (tokens : List Token) :
    Option (Node × Anchors × List Token) := do
  match tokens with
  | .alias name :: rest => return (.alias (← anchors.numbers.lookup name), anchors, rest)
  | _ =>
    let (properties, rest) ← readProperties? handles tokens
    match rest with
    | .scalar s :: rest => return (.text s, properties.addTo (some s) anchors, rest)
    | .blockStart :: _ => none
    | .flowStart :: _ => none
    | _ =>
      if properties.any then return (.text [], properties.addTo (some []) anchors, rest)
      else none

/-- A node, or an empty scalar if one of the given tokens comes next. -/
def readNodeUnless? (ends : List Token) (handles : List Text) (anchors : Anchors)
    (tokens : List Token) : Option (Node × Anchors × List Token) :=
  match tokens with
  | [] => none
  | token :: _ =>
    if ends.contains token then some (.text [], anchors, tokens)
    else readNode? handles anchors tokens

/-! ## Mappings -/

/-- A mapping that has been read: its entries, all anchors, and the rest of the tokens. -/
structure Mapping where
  entries : List (Node × Node)
  anchors : Anchors
  rest : List Token

/-- The entries of a block. The first argument bounds their number. -/
def readBlockEntries? (handles : List Text) : Nat → Anchors → List Token → Option Mapping
  | 0, _, _ => none
  | entries + 1, anchors, tokens => do
    let ends : List Token := [.key, .value, .blockEnd]
    match tokens with
    | .blockEnd :: rest => return ⟨[], anchors, rest⟩
    | .key :: rest =>
      let (key, anchors, rest) ← readNodeUnless? ends handles anchors rest
      let (value, anchors, rest) ←
        match rest with
        | .value :: rest => readNodeUnless? ends handles anchors rest
        | _ => some (.text [], anchors, rest)
      let more ← readBlockEntries? handles entries anchors rest
      return { more with entries := (key, value) :: more.entries }
    | _ => none

/-- The entries in braces. Between two of them stands a comma, and one may stand behind the last.
The first argument bounds their number. -/
def readFlowEntries? (handles : List Text) : Nat → Anchors → List Token → Option Mapping
  | 0, _, _ => none
  | entries + 1, anchors, tokens => do
    let ends : List Token := [.flowEntry, .flowEnd]
    match tokens with
    | .flowEnd :: rest => return ⟨[], anchors, rest⟩
    | _ =>
      let (key, anchors, rest) ←
        match tokens with
        | .key :: rest => readNodeUnless? (.value :: ends) handles anchors rest
        | _ => readNode? handles anchors tokens
      let (value, anchors, rest) ←
        match tokens, rest with
        | .key :: _, .value :: rest => readNodeUnless? ends handles anchors rest
        | _, _ => some (.text [], anchors, rest)
      let more ←
        match rest with
        | .flowEntry :: rest => readFlowEntries? handles entries anchors rest
        | .flowEnd :: rest => some ⟨[], anchors, rest⟩
        | _ => none
      return { more with entries := (key, value) :: more.entries }

/-! ## Documents -/

/-- The mapping of a document and the rest of the tokens. -/
def readRoot? (handles : List Text) (tokens : List Token) : Option Mapping := do
  let (properties, rest) ← readProperties? handles tokens
  let anchors := properties.addTo none {}
  match rest with
  | .blockStart :: rest => readBlockEntries? handles rest.length anchors rest
  | .flowStart :: rest => readFlowEntries? handles rest.length anchors rest
  | .alias _ :: _ => none
  | .scalar _ :: _ => none
  | _ => if properties.any then return ⟨[], anchors, rest⟩ else none

/-- The handles that the directives before a document introduce, and the tokens behind them. The
version is told once at most, and no handle is introduced twice. -/
def readDirectives? : Bool → List Text → List Token → Option (List Text × List Token)
  | versioned, handles, .version :: rest =>
    if versioned then none else readDirectives? true handles rest
  | versioned, handles, .handle handle :: rest =>
    if handles.contains handle then none else readDirectives? versioned (handle :: handles) rest
  | _, handles, rest => some (handles, rest)

/-- Whether a token stands outside of the content of documents. -/
def Token.isOuter : Token → Bool
  | .documentStart => true
  | .documentEnd => true
  | .version => true
  | .handle _ => true
  | _ => false

/-- The mapping of the first document of some tokens, and those behind it. -/
def readDocument? (tokens : List Token) : Option Mapping :=
  let usual : List Text := [['!'], ['!', '!']]
  match tokens with
  | [] => some ⟨[], {}, []⟩
  | .documentEnd :: _ => none
  | first :: _ =>
    if first.isOuter then
      match readDirectives? false [] tokens with
      | some (handles, .documentStart :: content) =>
        if content.head?.all Token.isOuter then some ⟨[], {}, content⟩
        else readRoot? (usual ++ handles) content
      | _ => none
    else readRoot? usual tokens

/-- The entries of the mapping that a text spells. -/
def read? (s : Text) : Option Entries := do
  let mapping ← readDocument? (← tokens? s)
  if !mapping.rest.all (· == .documentEnd) then none
  mapping.entries.mapM fun (key, value) => do
    return (← key.text? mapping.anchors, ← value.text? mapping.anchors)

end Sentential.Yaml

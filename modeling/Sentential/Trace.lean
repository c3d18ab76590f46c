import Sentential.Sentence.Clause
import Sentential.Sentence.Translation
import Sentential.Symbolic.Parser

/-!
# Trace records

What the library does can be followed in records. An event tells what has happened, and its record
gives it a level, the part of the library it belongs to, and a wording.
-/

namespace Sentential.Trace

/-- How much a record matters. -/
inductive Level where
  | debug
  | trace
deriving DecidableEq, Repr

/-- The name of a level. -/
def Level.name : Level → Text
  | .debug => "DEBUG".toList
  | .trace => "TRACE".toList

/-- A step of reading, learning or translating. -/
inductive Event where
  | lexed (count : Nat) (spelling : Text)
  | invalidSymbol (symbol : Char) (offset : Nat)
  | refused (cause : Symbolic.ReadError)
  | parsed (source : Text) (depth : Nat)
  | extracted (clauses : List Text) (sentence : Text)
  | skipped (phrase cause : Text)
  | substituted (phrase label : Text)
  | rewrote (rule before after : Text)
deriving DecidableEq, Repr

/-- A record of an event. -/
structure Record where
  level : Level
  target : Text
  message : Text
deriving DecidableEq, Repr

/-- Quoted texts in brackets, with a comma between them. -/
def quotedList (texts : List Text) : Text :=
  ['['] ++ ", ".toList.intercalate (texts.map Text.quote) ++ [']']

namespace Event

/-- The level of an event. -/
def level : Event → Level
  | .invalidSymbol _ _ => .debug
  | .refused _ => .debug
  | .skipped _ _ => .debug
  | _ => .trace

/-- The part of the library that an event belongs to. -/
def target : Event → Text
  | .lexed _ _ => "logica::lexing".toList
  | .invalidSymbol _ _ => "logica::lexing".toList
  | .refused _ => "logica::parsing".toList
  | .parsed _ _ => "logica::parsing".toList
  | .extracted _ _ => "logica::nl".toList
  | .skipped _ _ => "logica::nl".toList
  | .substituted _ _ => "logica::nl".toList
  | .rewrote _ _ _ => "logica::nl".toList

/-- The wording of an event. -/
def message : Event → Text
  | .lexed count spelling =>
    "Lexed ".toList ++ Text.ofNat count ++ " tokens from ".toList ++ Text.quote spelling
  | .invalidSymbol symbol offset =>
    "Invalid symbol ".toList ++ Text.quoteChar symbol ++ " at ".toList ++ Text.ofNat offset
  | .refused cause => "Parse failed: ".toList ++ cause.message
  | .parsed source depth =>
    "Parsed ".toList ++ Text.quote source ++ " to depth ".toList ++ Text.ofNat depth
  | .extracted clauses sentence =>
    "Extracted clauses ".toList ++ quotedList clauses ++ " from ".toList ++ Text.quote sentence
  | .skipped phrase cause =>
    "Skipping phrase ".toList ++ Text.quote phrase ++ ": ".toList ++ cause
  | .substituted phrase label =>
    "Substituted ".toList ++ Text.quote phrase ++ " with ".toList ++ label
  | .rewrote rule before after =>
    "Rule ".toList ++ rule ++ " rewrote ".toList ++ Text.quote before ++ " to ".toList
      ++ Text.quote after

/-- The record of an event. -/
def record (event : Event) : Record :=
  ⟨event.level, event.target, event.message⟩

end Event

/-- The events of reading a formula. -/
def reading (s : Text) : List Event :=
  match Symbolic.tokenize s with
  | .ok lexemes =>
    let lexed := Event.lexed lexemes.length (Symbolic.mainSpelling s)
    match Symbolic.parse (lexemes.map Symbolic.Lexeme.token) with
    | .ok f => [lexed, .parsed s f.depth]
    | .error cause => [lexed, .refused cause]
  | .error (.invalidSymbol symbol offset) => [.invalidSymbol symbol offset]
  | .error _ => []

/-- The events of finding the clauses of a sentence. -/
def extracting (s : Text) : List Event :=
  [.extracted (Sentence.clauses s) s]

/-- The events of putting labels for phrases, one for each phrase that was met or passed over. -/
def substituting [Text.Engine] (s : Text) : List (Text × Text) → List Event
  | [] => []
  | entry :: more =>
    match Sentence.refusal? entry.2 with
    | some cause => .skipped entry.2 cause :: substituting s more
    | none =>
      let after := Sentence.putLabel s entry
      if after = s then substituting s more
      else .substituted entry.2 entry.1 :: substituting after more

/-- The events of applying rules, one for each rule that changed the text. -/
def rewriting (s : Text) : List Sentence.Rule → List Event
  | [] => []
  | rule :: more =>
    let after := rule.apply s
    if after = s then rewriting s more
    else .rewrote rule.name s after :: rewriting after more

/-- The events of translating a sentence. -/
def translating [Text.Engine] (d : Dictionary) (s : Text) : List Event :=
  let sentence := Sentence.normal s
  substituting sentence (Sentence.replacements d)
    ++ rewriting (Sentence.substitute d sentence) Sentence.rules

end Sentential.Trace

import Sentential.Text.Blank
import Sentential.Text.Rewrite

/-!
# Rules from words to signs

Six rules turn the connectives of a sentence into signs. A rule finds a place, and some stretches of
text there, and writes its template with the stretches filled in. The rules are applied in order,
and the order counts: an ambiguous sentence comes out differently if it is changed.
-/

namespace Sentential.Sentence

open Text

/-- A piece of a template. -/
inductive Piece where
  /-- Text that is written as it is. -/
  | text (s : Text)
  /-- The stretch of a number, counted from 1. -/
  | stretch (number : Nat)
deriving DecidableEq, Repr

/-- A template as it is shown. -/
def templateText (template : List Piece) : Text :=
  template.flatMap fun
    | .text s => s
    | .stretch number => ['$', '\x7b'] ++ ofNat number ++ ['\x7d']

/-- A template with its stretches filled in. -/
def fill (template : List Piece) (stretches : List Text) : Text :=
  template.flatMap fun
    | .text s => s
    | .stretch number => (stretches[number - 1]?).getD []

/-- What a rule has found at a place. -/
structure Found where
  /-- The number of characters taken besides the first. -/
  more : Nat
  /-- The stretches of text that are kept. -/
  stretches : List Text
deriving DecidableEq, Repr

/-- A rule: where it applies and what it writes. -/
structure Rule where
  name : Text
  template : List Piece
  find : Option Char → Text → Option Found

/-- The pattern of a rule. -/
def Rule.pattern (rule : Rule) : Pattern := fun before s =>
  (rule.find before s).map fun found => ⟨found.more, fill rule.template found.stretches⟩

/-- Applies a rule from left to right. -/
def Rule.apply (rule : Rule) (s : Text) : Text :=
  rule.pattern.rewrite s

/-! ## Finding places -/

/-- A text behind a word or phrase at its front. -/
def behind? (phrase s : Text) : Option Text :=
  if phrase.isPrefixOf s then some (s.drop phrase.length) else none

/-- A text behind the blanks at its front, of which there has to be one. -/
def behindBlanks? (s : Text) : Option Text :=
  if s.head?.any isBlank then some (s.dropWhile isBlank) else none

/-- The word characters at the front of a text, of which there has to be one, and the rest. -/
def word? (s : Text) : Option (Text × Text) :=
  if s.head?.any isWordChar then some (s.takeWhile isWordChar, s.dropWhile isWordChar) else none

/-- What was found in a text of which the given rest has not been taken. -/
def foundUpTo (s rest : Text) (stretches : List Text) : Found :=
  ⟨s.length - rest.length - 1, stretches⟩

/-- A phrase as whole words, with no stretches. -/
def findWhole (phrase : Text) (before : Option Char) (s : Text) : Option Found :=
  (Pattern.whole phrase [] before s).map fun hit => ⟨hit.more, []⟩

/-- The words for a negation and one word behind them, which is the stretch. -/
def findNegation (before : Option Char) (s : Text) : Option Found := do
  if !boundary before s.head? then none
  let rest ← behindBlanks? (← behind? "não é verdade que".toList s)
  let (operand, rest) ← word? rest
  return foundUpTo s rest [operand]

/-- The word `ou` before each of two words, which are the stretches. -/
def findExclusiveOr (before : Option Char) (s : Text) : Option Found := do
  if !boundary before s.head? then none
  let (left, rest) ← word? (← behindBlanks? (← behind? "ou".toList s))
  let (right, rest) ← word? (← behindBlanks? (← behind? "ou".toList (← behindBlanks? rest)))
  return foundUpTo s rest [left, right]

/-- The word `e` behind a blank, which is taken too. -/
def findConjunction (_before : Option Char) (s : Text) : Option Found :=
  match s with
  | blank :: 'e' :: rest =>
    if isBlank blank && boundary (some 'e') rest.head? then some ⟨1, []⟩ else none
  | _ => none

/-- The conclusion at the front of a text: what stands behind `então` and the blanks that follow
it. If there is nothing but blanks behind the word, the last of them is the conclusion, for it
cannot be empty. -/
def conclusion? (s : Text) : Option Text := do
  let rest ← behind? "então".toList (s.dropWhile isBlank)
  match ← behindBlanks? rest with
  | [] => if rest.length ≥ 2 then rest.getLast?.map ([·]) else none
  | conclusion => some conclusion

/-- The shortest stretch of a text that a conclusion follows, after a stretch that has been passed
already and is given backwards. -/
def conditionFrom (passed : Text) (s : Text) : Option (Text × Text) :=
  match conclusion? s with
  | some conclusion => some (passed.reverse, conclusion)
  | none =>
    match s with
    | [] => none
    | c :: rest => conditionFrom (c :: passed) rest

/-- The condition at the front of a text, of at least one character, and the conclusion. -/
def condition? (s : Text) : Option (Text × Text) :=
  match s with
  | [] => none
  | c :: rest => conditionFrom [c] rest

/-- The word `se`, a condition, the word `então` and a conclusion, which takes the rest of the
text. The blanks behind `se` are no part of the condition, unless it can be had only by leaving
it the last of several. -/
def findConditional (before : Option Char) (s : Text) : Option Found := do
  if !boundary before s.head? then none
  let rest ← behind? "se".toList s
  let start ← behindBlanks? rest
  let (condition, conclusion) ←
    (condition? start).or <|
      if rest.length - start.length ≥ 2 then
        condition? (rest.drop (rest.length - start.length - 1))
      else none
  return foundUpTo s [] [condition, conclusion]

/-! ## The six rules -/

/-- A negation before a word. -/
def negationRule : Rule where
  name := "negation".toList
  template := [.text " ¬".toList, .stretch 1, .text " ".toList]
  find := findNegation

/-- The words for an equivalence. -/
def biconditionalRule : Rule where
  name := "biconditional".toList
  template := [.text " ↔ ".toList]
  find := findWhole "se e somente se".toList

/-- A conditional, whose condition and conclusion become groups. -/
def conditionalRule : Rule where
  name := "conditional".toList
  template :=
    [.text " ( ".toList, .stretch 1, .text " ) → ( ".toList, .stretch 2, .text " ) ".toList]
  find := findConditional

/-- An exclusive disjunction of two words, which become groups. -/
def exclusiveOrRule : Rule where
  name := "exclusive-or".toList
  template := [.text " (".toList, .stretch 1, .text ") ⊕ (".toList, .stretch 2, .text ") ".toList]
  find := findExclusiveOr

/-- The word of a conjunction. -/
def conjunctionRule : Rule where
  name := "conjunction".toList
  template := [.text " ∧ ".toList]
  find := findConjunction

/-- The word of a disjunction. -/
def disjunctionRule : Rule where
  name := "disjunction".toList
  template := [.text " ∨ ".toList]
  find := findWhole "ou".toList

/-- The rules in the order in which they are applied. -/
def rules : List Rule :=
  [negationRule, biconditionalRule, conditionalRule, exclusiveOrRule, conjunctionRule,
    disjunctionRule]

/-- Applies all rules in order. -/
def applyRules (s : Text) : Text :=
  rules.foldl (fun s rule => rule.apply s) s

end Sentential.Sentence

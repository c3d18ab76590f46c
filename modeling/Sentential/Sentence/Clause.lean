import Sentential.Dictionary.Basic
import Sentential.Sentence.Normal

/-!
# The clauses of a sentence

A sentence in normal form is cut at its connectives. Each connective is tried on all fragments that
the ones before it have left, and every fragment is set between two spaces first, so that a
connective at its start or end is met as well. A fragment without its blanks and without a negation
at its front is a clause; empty ones and repetitions are left out. A dictionary is learnt from a
sentence by labelling its clauses in order.
-/

namespace Sentential.Sentence

open Text

/-- The connectives at which a sentence is cut, in the order in which they are tried. -/
def connectives : List Text :=
  [ " se e somente se ".toList,
    " se ".toList,
    " então ".toList,
    " somente se ".toList,
    " e ".toList,
    " ou ".toList ]

/-- The fragments that are left when each of some fragments is cut at a connective. -/
def cutAt (fragments : List Text) (connective : Text) : List Text :=
  fragments.flatMap fun fragment => splitOn connective ([' '] ++ fragment ++ [' '])

/-- The fragments of a sentence in normal form. -/
def fragments (s : Text) : List Text :=
  connectives.foldl cutAt [s]

/-- A text without a word or phrase at its front, if it is there. -/
def dropFront (phrase s : Text) : Text :=
  if phrase.isPrefixOf s then s.drop phrase.length else s

/-- A fragment without a negation at its front. -/
def dropNegation (s : Text) : Text :=
  if "não ".toList.isPrefixOf s then
    dropFront "é verdade que ".toList (s.drop "não ".toList.length)
  else s

/-- The clause of a fragment, which may be empty. -/
def clauseOf (fragment : Text) : Text :=
  trim (dropNegation (tidy fragment))

/-- The clauses of a sentence in the order of their first places. -/
def clauses (s : Text) : List Text :=
  (((fragments (normal s)).map clauseOf).filter fun clause => !clause.isEmpty).eraseDups

/-- The labels of some phrases from a place on, each with its phrase. -/
def labelled (index : Nat) : List Text → List (Text × Text)
  | [] => []
  | phrase :: more => (Dictionary.labelAt index, phrase) :: labelled (index + 1) more

/-- The dictionary of the clauses of a sentence. -/
def learn (s : Text) : Dictionary :=
  Dictionary.ofList (labelled 0 (clauses s))

end Sentential.Sentence

import Sentential.Text.Basic

/-!
# Propositional formulas

Formulas are built from named atoms with negation and five connectives. Every node has a rank that
tells how tightly it binds: `↔` 1, `→` 2, `∨` and `⊕` 3, `∧` 4, `¬` 5, and an atom 9.
-/

namespace Sentential

/-- The connectives between two formulas. -/
inductive Connective where
  | and
  | or
  | xor
  | imp
  | iff
deriving DecidableEq, Repr

namespace Connective

/-- All connectives, the tighter ones first. -/
def all : List Connective :=
  [.and, .or, .xor, .imp, .iff]

/-- How tightly a connective binds. -/
def precedence : Connective → Nat
  | .iff => 1
  | .imp => 2
  | .or => 3
  | .xor => 3
  | .and => 4

/-- The sign of a connective. -/
def glyph : Connective → Char
  | .and => '∧'
  | .or => '∨'
  | .xor => '⊕'
  | .imp => '→'
  | .iff => '↔'

/-- The name of a connective. -/
def name : Connective → Text
  | .and => "AND".toList
  | .or => "OR".toList
  | .xor => "XOR".toList
  | .imp => "IMP".toList
  | .iff => "IFF".toList

/-- The connective of a name. -/
def ofName? (name : Text) : Option Connective :=
  all.find? fun op => op.name == name

end Connective

/-- A propositional formula. -/
inductive Formula where
  | atom (name : Text)
  | not (operand : Formula)
  | binary (op : Connective) (left right : Formula)
deriving DecidableEq, Repr

namespace Formula

/-- How tightly a negation binds. -/
def notPrecedence : Nat := 5

/-- The rank of an atom, above every operator. -/
def atomPrecedence : Nat := 9

/-- How tightly the outermost operator binds. -/
def precedence : Formula → Nat
  | .atom _ => atomPrecedence
  | .not _ => notPrecedence
  | .binary op _ _ => op.precedence

/-- Whether a formula is a single atom. -/
def isAtom : Formula → Bool
  | .atom _ => true
  | _ => false

/-- The name of the kind of the outermost node. -/
def kind : Formula → Text
  | .atom _ => "ATOM".toList
  | .not _ => "NOT".toList
  | .binary op _ _ => op.name

/-- The height of the tree; an atom has depth 1. -/
def depth : Formula → Nat
  | .atom _ => 1
  | .not operand => 1 + operand.depth
  | .binary _ left right => 1 + max left.depth right.depth

/-- The names at the leaves, from left to right. -/
def leaves : Formula → List Text
  | .atom name => [name]
  | .not operand => operand.leaves
  | .binary _ left right => left.leaves ++ right.leaves

/-- Adds the names at the leaves to some names, from left to right, unless they are there. -/
def collectAtoms (names : List Text) : Formula → List Text
  | .atom name => if names.contains name then names else names ++ [name]
  | .not operand => collectAtoms names operand
  | .binary _ left right => collectAtoms (collectAtoms names left) right

/-- The names of the atoms, each once, in the order of their first places. -/
def atoms (f : Formula) : List Text :=
  collectAtoms [] f

end Formula

end Sentential

import Sentential.Entries
import Sentential.Text.Lower

/-!
# Values of settings

Settings are a tree of tables and lists. A later layer is merged into an earlier one: tables are
merged key by key, with keys in lower case, and anything else replaces what was there before. A
single place of the tree can be set as well.

Tables that are read are hashed, so their entries are merged in an order that the text does not tell
(`Hashing`). It matters where two keys of a table are the same in lower case.
-/

namespace Sentential

/-- A value of a setting. -/
inductive Setting where
  | text (s : Text)
  | integer (n : Int)
  | bool (b : Bool)
  | missing
  | list (items : List Setting)
  | table (entries : List (Text × Setting))
deriving Repr

namespace Setting

/-- The entries of a table; nothing else has any. -/
def entries : Setting → List (Text × Setting)
  | .table entries => entries
  | _ => []

/-- The items of a list; nothing else has any. -/
def items : Setting → List Setting
  | .list items => items
  | _ => []

/-- The value under a key. -/
def child? (key : Text) (s : Setting) : Option Setting :=
  s.entries.lookup key

/-- The value under a key, which is an empty table if there is none. -/
def child (key : Text) (s : Setting) : Setting :=
  (s.child? key).getD (.table [])

/-- A table with a value under a key. What was no table before becomes one. -/
def put (s : Setting) (key : Text) (value : Setting) : Setting :=
  .table (Entries.put key value s.entries)

mutual

/-- A value with a later one merged into it. -/
def merge (old : Setting) : Setting → Setting
  | .table entries => old.mergeEntries entries
  | new => new

/-- A value with the entries of a later table merged into it. -/
def mergeEntries (old : Setting) : List (Text × Setting) → Setting
  | [] => old
  | (key, new) :: more =>
    (old.put (Text.lower key) ((old.child (Text.lower key)).merge new)).mergeEntries more

end

/-! ## Places -/

/-- A step on the way to a place: to the value under a key or to an item of a list. Items are
counted from 0, or from the end and from −1. -/
inductive Turn where
  | key (name : Text)
  | item (index : Int)
deriving DecidableEq, Repr

/-- The place of an item in a list of the given length, unless it lies before the first. -/
def position? (index : Int) (length : Nat) : Option Nat :=
  if 0 ≤ index then some index.toNat
  else if index.natAbs ≤ length then some (length - index.natAbs)
  else none

/-- A list with an item set. Items that were skipped are missing, and what was no list before
becomes one. -/
def setItem (s : Setting) (index : Int) (value : Setting) : Setting :=
  match position? index s.items.length with
  | some i =>
    .list ((s.items ++ List.replicate (i + 1 - s.items.length) Setting.missing).set i value)
  | none => s

/-- The value of an item. -/
def item (index : Int) (s : Setting) : Setting :=
  match position? index s.items.length with
  | some i => (s.items[i]?).getD .missing
  | none => .missing

/-- Sets the value at a place. It is merged into what is under a key, but replaces an item. -/
def setAt (value : Setting) : List Turn → Setting → Setting
  | [], s => s.merge value
  | [.item index], s => s.setItem index value
  | .key name :: more, s => s.put name (setAt value more (s.child name))
  | .item index :: more, s => s.setItem index (setAt value more (s.item index))

end Setting

/-! ## Hashed tables -/

/-- The orders in which hashed tables list their entries. Nothing is known of them but that they
list each entry once. -/
class Hashing where
  /-- The entries of a table, as they are listed. -/
  listed {κ : Type} : List (κ × Setting) → List (κ × Setting)
  /-- No entry is lost or listed twice. -/
  perm {κ : Type} (entries : List (κ × Setting)) : (listed entries).Perm entries

/-- Hashed tables that list their entries in the order in which they were written. -/
abbrev Hashing.asWritten : Hashing where
  listed entries := entries
  perm entries := .refl entries

namespace Setting

variable [Hashing]

mutual

/-- A value in which all tables are hashed. -/
def hashed : Setting → Setting
  | .list items => .list (hashedItems items)
  | .table entries => .table (Hashing.listed (hashedEntries entries))
  | single => single

/-- The items of a list with their tables hashed. -/
def hashedItems : List Setting → List Setting
  | [] => []
  | item :: more => item.hashed :: hashedItems more

/-- The entries of a table with the tables in them hashed. -/
def hashedEntries : List (Text × Setting) → List (Text × Setting)
  | [] => []
  | (key, value) :: more => (key, value.hashed) :: hashedEntries more

end

end Setting

end Sentential

import Sentential.Entries
import Sentential.Text.Blank

/-!
# Dictionaries

A dictionary gives phrases to labels. Its entries keep the order in which their labels were first
inserted, and no label has two entries, which the type records. Labels for new phrases are the
letters `A` to `Z`; a list of phrases that is longer than the alphabet goes on with `P27`, `P28`, …
-/

namespace Sentential

/-- An ordered list of labels, each with its phrase. -/
structure Dictionary where
  /-- The labels and their phrases. -/
  entries : List (Text × Text) := []
  /-- No label stands twice. -/
  distinct : (Entries.keys entries).Nodup := by exact List.nodup_nil
deriving DecidableEq

namespace Dictionary

/-- The letters that serve as labels. -/
def letters : Text :=
  "ABCDEFGHIJKLMNOPQRSTUVWXYZ".toList

/-- The letter at a place, or behind the letters a label with a number. -/
def labelWith (index number : Nat) : Text :=
  match letters[index]? with
  | some letter => [letter]
  | none => 'P' :: Text.ofNat number

/-- The label of the phrase at a place, counted from 0. -/
def labelAt (index : Nat) : Text :=
  labelWith index (index + 1)

/-- The label of the phrase at a place that is a machine word. The number of the last one is 0. -/
def wordLabel (index : UInt64) : Text :=
  labelWith index.toNat (index + 1).toNat

/-- The dictionary without entries. -/
def empty : Dictionary := {}

/-- The labels in order. -/
def labels (d : Dictionary) : List Text :=
  Entries.keys d.entries

/-- The number of entries. -/
def size (d : Dictionary) : Nat :=
  d.entries.length

/-- The phrase of a label, even a blank one. -/
def get? (d : Dictionary) (label : Text) : Option Text :=
  d.entries.lookup label

/-- The phrase to show for a label. A blank one counts as missing. -/
def phrase? (d : Dictionary) (label : Text) : Option Text :=
  (d.get? label).filter fun phrase => !Text.isBlankText phrase

/-- Whether a label has an entry. -/
def contains (d : Dictionary) (label : Text) : Bool :=
  (d.get? label).isSome

/-- Gives a phrase to a label, which keeps its place if it has one. -/
def insert (d : Dictionary) (label phrase : Text) : Dictionary where
  entries := Entries.put label phrase d.entries
  distinct := Entries.nodup_keys_put d.distinct

/-- The place of the first entry of a label. -/
def place? (d : Dictionary) (label : Text) : Option Nat :=
  d.entries.findIdx? fun entry => entry.1 == label

/-- Removes the entry at a place. -/
def removeAt (d : Dictionary) (place : Nat) : Dictionary where
  entries := d.entries.eraseIdx place
  distinct := ((List.eraseIdx_sublist d.entries place).map Prod.fst).nodup d.distinct

/-- Removes the first entry of a label and tells its phrase, if there is one. -/
def remove (d : Dictionary) (label : Text) : Option Text × Dictionary :=
  match d.place? label with
  | none => (none, d)
  | some place => (d.entries[place]?.map Prod.snd, d.removeAt place)

/-- The dictionary without the entry of a label. -/
def erase (d : Dictionary) (label : Text) : Dictionary :=
  (d.remove label).2

/-- The dictionary that arises when the given entries are inserted one after the other. -/
def ofList (entries : List (Text × Text)) : Dictionary :=
  entries.foldl (fun d entry => d.insert entry.1 entry.2) empty

/-- The first letter that is no label yet. -/
def freeLetter? (d : Dictionary) : Option Char :=
  letters.find? fun letter => !d.contains [letter]

/-- One line for each entry. -/
def listing (d : Dictionary) : Text :=
  d.entries.flatMap fun entry => entry.1 ++ ": ".toList ++ entry.2 ++ ['\n']

end Dictionary

end Sentential

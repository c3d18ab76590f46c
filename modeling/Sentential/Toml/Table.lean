import Sentential.Settings.Value

/-!
# Tables under construction

A table can be opened once by a header; headers of tables below it open it by the way, which leaves
room for a header of its own. A table opened by the points of a key can be extended by such keys
alone. Values, lists and inline tables are closed. `Node.close` forgets all this.
-/

namespace Sentential.Toml

/-- What has opened a table. -/
inductive Origin where
  /-- A header of its own. -/
  | header
  /-- The header of a table below it. -/
  | parent
  /-- A key with points. -/
  | dotted
deriving DecidableEq, Repr

/-- A node of a document under construction. -/
inductive Node where
  | leaf (value : Setting)
  | table (origin : Origin) (entries : List (Text × Node))
  /-- A list of tables, the last of which is open. -/
  | series (tables : List (List (Text × Node)))

/-- The entries of a table. -/
abbrev Table := List (Text × Node)

mutual

/-- The value of a finished node. -/
def Node.close : Node → Setting
  | .leaf value => value
  | .table _ entries => .table (closeEntries entries)
  | .series tables => .list (closeTables tables)

/-- The values of finished entries. -/
def closeEntries : List (Text × Node) → List (Text × Setting)
  | [] => []
  | (key, node) :: more => (key, node.close) :: closeEntries more

/-- The values of finished tables. -/
def closeTables : List (List (Text × Node)) → List Setting
  | [] => []
  | entries :: more => .table (closeEntries entries) :: closeTables more

end

/-- Changes the table at the end of a path, opening tables on the way, by the points of a key or by
a header. Of a list of tables the last one is meant. -/
def editAt (dotted : Bool) (change : Origin → Table → Option Table) :
    List Text → Origin → Table → Option Table
  | [], origin, entries => change origin entries
  | key :: more, _, entries =>
    let opened := if dotted then Origin.dotted else Origin.parent
    match entries.lookup key with
    | none => do
      let inner ← editAt dotted change more opened []
      return Entries.put key (.table opened inner) entries
    | some (.leaf _) => none
    | some (.series tables) => do
      let inner ← editAt dotted change more .header (tables.getLast?.getD [])
      return Entries.put key (.series (tables.dropLast ++ [inner])) entries
    | some (.table origin table) =>
      if dotted && origin == .header then none
      else do
        let inner ← editAt dotted change more origin table
        return Entries.put key (.table origin inner) entries

/-- A table with a new value under a key, which may have points. -/
def assign (path : List Text) (value : Setting) : Origin → Table → Option Table :=
  let keys := path.dropLast
  editAt true
    (fun origin entries =>
      match path.getLast? with
      | none => none
      | some key =>
        if (origin == .dotted) == keys.isEmpty then none
        else if (entries.lookup key).isSome then none
        else some (Entries.put key (.leaf value) entries))
    keys

/-- A document with the table of a header opened. -/
def openTable (path : List Text) : Table → Option Table :=
  editAt false
    (fun _ entries =>
      match path.getLast? with
      | none => none
      | some key =>
        match entries.lookup key with
        | none => some (Entries.put key (.table .header []) entries)
        | some (.table .parent table) => some (Entries.put key (.table .header table) entries)
        | some _ => none)
    path.dropLast .header

/-- A document with one more table opened at the end of a list of tables. -/
def openSeries (path : List Text) : Table → Option Table :=
  editAt false
    (fun _ entries =>
      match path.getLast? with
      | none => none
      | some key =>
        match entries.lookup key with
        | none => some (Entries.put key (.series [[]]) entries)
        | some (.series tables) => some (Entries.put key (.series (tables ++ [[]])) entries)
        | some _ => none)
    path.dropLast .header

end Sentential.Toml

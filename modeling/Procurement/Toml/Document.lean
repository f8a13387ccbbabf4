import Procurement.Toml.Basic

/-!
# Documents under construction

A settings file builds up its tables piece by piece: by headers, by headers of
tables in a list, and by keys with several parts. What brought a table about
decides what may still be added to it, so it is remembered until the file ends.
-/

namespace Procurement.Toml

/-- What brought a table about. -/
inductive Making where
  /-- A header of its own, or the start of the document. -/
  | header
  /-- The header of a table inside it. -/
  | implied
  /-- A key with several parts. -/
  | dotted
  deriving DecidableEq, Repr

/-- A value, table or list of tables in a document under construction. -/
inductive Node where
  | value (value : Toml)
  | table (making : Making) (entries : List (String × Node))
  /-- Tables that each have a header, in their order, by their entries. -/
  | tables (elements : List (List (String × Node)))

/-- The entries of a table under construction. -/
abbrev Nodes := List (String × Node)

mutual

/-- The value that a finished node stands for. -/
def Node.finish : Node → Toml
  | .value value => value
  | .table _ entries => .table (finishEntries entries)
  | .tables elements => .array (finishTables elements)

/-- The entries of a finished table. -/
def finishEntries : List (String × Node) → List (String × Toml)
  | [] => []
  | (key, node) :: entries => (key, node.finish) :: finishEntries entries

/-- The items of a finished list of tables. -/
def finishTables : List (List (String × Node)) → List Toml
  | [] => []
  | entries :: elements => .table (finishEntries entries) :: finishTables elements

end

/-- Changes the table at the end of a path, going through the last of the tables in a
list and making tables that are missing. Keys with several parts do not lead into a
table that has a header. -/
def changeAt (byKey : Bool) (change : Making → Nodes → Option Nodes) :
    List String → Making → Nodes → Option Nodes
  | [], making, entries => change making entries
  | key :: path, _, entries =>
    match entries.lookup key with
    | none => do
      let making := if byKey then Making.dotted else .implied
      pure (putEntry key (.table making (← changeAt byKey change path making [])) entries)
    | some (.value _) => none
    | some (.table making inner) => do
      if byKey && making = .header then none
      else pure (putEntry key (.table making (← changeAt byKey change path making inner)) entries)
    | some (.tables elements) => do
      let inner ← changeAt byKey change path .header (← elements.getLast?)
      pure (putEntry key (.tables (elements.dropLast ++ [inner])) entries)

/-- Adds the value of a key to a table, which must not have the key. A key with several
parts adds only to tables that such keys brought about, a key with one part only to others. -/
def addValue? (path : List String) (key : String) (value : Toml) (making : Making)
    (entries : Nodes) : Option Nodes :=
  let add (making : Making) (entries : Nodes) : Option Nodes :=
    if decide (making = .dotted) = path.isEmpty then none
    else if (entries.lookup key).isSome then none
    else some (entries ++ [(key, .value value)])
  changeAt true add path making entries

/-- Opens the table with the given header. -/
def openTable? (path : List String) (key : String) (root : Nodes) : Option Nodes :=
  let start (_ : Making) (entries : Nodes) : Option Nodes :=
    match entries.lookup key with
    | none => some (entries ++ [(key, .table .header [])])
    | some (.table .implied inner) => some (putEntry key (.table .header inner) entries)
    | some _ => none
  changeAt false start path .header root

/-- Opens one more table in the list with the given header. -/
def openElement? (path : List String) (key : String) (root : Nodes) : Option Nodes :=
  let start (_ : Making) (entries : Nodes) : Option Nodes :=
    match entries.lookup key with
    | none => some (entries ++ [(key, .tables [[]])])
    | some (.tables elements) => some (putEntry key (.tables (elements ++ [[]])) entries)
    | some _ => none
  changeAt false start path .header root

/-- Adds the value of a key to the table under the given header. -/
def addUnder? (header path : List String) (key : String) (value : Toml) (root : Nodes) :
    Option Nodes :=
  changeAt false (addValue? path key value) header .header root

end Procurement.Toml

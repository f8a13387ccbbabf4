import Procurement.Tables.Form

/-!
# Databases in files

What a file keeps of a database between runs: the tables, which may still be
lacking, and whether changes go to a log first.
-/

namespace Procurement

/-- A database as a file keeps it. -/
structure KeptDatabase where
  tables : Option Tables := none
  /-- Whether changes go to a log before they go to the file. -/
  logged : Bool := false

namespace KeptDatabase

/-- The text of the file. A database that has nothing to keep leaves it empty. -/
def text (kept : KeptDatabase) : String :=
  match kept.tables, kept.logged with
  | none, false => ""
  | none, true => (Json.array [.bool true]).write
  | some tables, logged => (Json.array [.bool logged, JsonForm.toJson tables]).write

/-- The database that a text keeps, if it keeps one. -/
def ofText? (text : String) : Option KeptDatabase :=
  if text = "" then some {}
  else
    match Json.read? text with
    | some (.array [.bool true]) => some { logged := true }
    | some (.array [.bool logged, tables]) => do
      pure { tables := some (← JsonForm.ofJson? tables), logged }
    | _ => none

end KeptDatabase

end Procurement

import Procurement.Database.Kept
import Procurement.Database.Location
import Procurement.Files
import Procurement.Settings.Basic
import Procurement.Toml.Basic

/-!
# Databases in a directory

A directory holds text files and databases. A database is opened by the address
in the settings; a file that is missing is made, but no folder is. Unless the
settings say otherwise, missing tables are made on the way.
-/

namespace Procurement

/-- A directory with files and databases. -/
structure Directory where
  files : Files := {}
  databases : List (String × KeptDatabase) := []

/-- An open database. -/
structure Database where
  /-- The path of the file in its directory; `none` for data that is not kept. -/
  path : Option String
  readOnly : Bool
  kept : KeptDatabase

/-- Makes the tables of a database that lacks them. -/
def Database.migrate? (db : Database) : Option Database :=
  match db.kept.tables with
  | some _ => some db
  | none => if db.readOnly then none else some { db with kept.tables := some {} }

namespace Directory

/-- The greatest number of milliseconds that one can wait for a database. -/
def longestWait : UInt64 := 2147483647

/-- All files of a directory, those of databases included. -/
def allFiles (d : Directory) : Files :=
  { d.files with
    texts := d.files.texts ++ d.databases.map fun (path, kept) => (path, kept.text) }

/-- The database in a file that is there, which must not hold anything else. -/
def found? (d : Directory) (path text : String) : Option KeptDatabase :=
  match d.databases.lookup path with
  | some kept => some kept
  | none => if text = "" then some {} else none

/-- The greatest number of bytes in the name of a file. -/
def longestName : Nat := 255

/-- The greatest number of bytes in a path inside the directory. -/
def longestPath : Nat := 480

/-- Where the parts of a path lead if two points take back the part before them, whether
there is such a folder or not. No part leads on from a file. -/
def stepsTo? (files : Files) : List String → List String → Option (List String)
  | steps, [] => some steps
  | steps, part :: parts =>
    if part = "" ∨ part = "." then stepsTo? files steps parts
    else if part = ".." then
      let back :=
        if steps = [""] then steps
        else if steps.all (· = "..") then steps ++ [part]
        else steps.dropLast
      stepsTo? files back parts
    else if (files.text? steps).isSome ∨ longestName < part.utf8ByteSize ∨
        longestPath < ("/".intercalate (steps ++ [part])).utf8ByteSize then none
    else stepsTo? files (steps ++ [part]) parts

/-- Whether files can be made in a folder. The folders around the directory are taken to be
there, and nothing is made at the root of all. -/
def canHold (files : Files) (folder : List String) : Bool :=
  folder.all (· = "..") || (folder ≠ [""] && files.hasFolder folder)

/-- The number of bytes behind the name of a file for the name of its journal. -/
def journalSpace : Nat := 8

/-- The steps to the file of a database. Its name leaves space for that of its journal
unless nothing changes the file. -/
def fileSteps? (files : Files) (path : String) (immutable : Bool) : Option (List String) := do
  let steps ← stepsTo? files (pathStart path) (partsOfPath path)
  let name ← steps.getLast?
  let space := if immutable then 0 else journalSpace
  if name ≠ ".." && canHold files steps.dropLast && !files.hasFolder steps &&
      name.utf8ByteSize + space ≤ longestName then
    some steps
  else none

/-- The directory with what a database holds now. -/
def keep (d : Directory) (db : Database) : Directory :=
  match db.path with
  | some path => { d with databases := putEntry path db.kept d.databases }
  | none => d

/-- The database in the file at the end of the given steps, which is made if it is missing and
may be made. -/
def openFile? (d : Directory) (location : Location) (steps : List String) : Option Database := do
  let path := "/".intercalate steps
  let kept ← match d.allFiles.text? steps with
    | some text => d.found? path text
    | none => if location.access = .create then some {} else none
  pure { path := some path, readOnly := location.readOnly, kept }

/-- Has the changes of a database go to a log if they can. A log that is there must be
readable. -/
def withLog? (location : Location) (wanted : Bool) (db : Database) : Option Database :=
  if location.immutable then some db
  else if !location.canLog then (if db.kept.logged then none else some db)
  else if db.kept.logged || !wanted then some db
  else if db.readOnly then none
  else some { db with kept.logged := true }

/-- Whether an address speaks of data in memory; for such data no log is wanted. -/
def speaksOfMemory (url : String) : Bool := 1 < (url.splitOn ":memory:").length

/-- Opens the database that the settings name. The directory changes even if that fails
after a file was made. -/
def openDatabase (d : Directory) (settings : DatabaseSettings) : Option Database × Directory :=
  let location := (Address.ofUrl? settings.url).bind Location.ofAddress?
  match (if longestWait < settings.busyTimeout then none else location) with
  | none => (none, d)
  | some location =>
    let opened := match location.path with
      | none => some { path := none, readOnly := location.readOnly, kept := {} }
      | some path =>
        (fileSteps? d.allFiles path location.immutable).bind (d.openFile? location)
    match opened with
    | none => (none, d)
    | some made =>
      match withLog? location (!speaksOfMemory settings.url) made with
      | none => (none, d.keep made)
      | some db =>
        match (if settings.autoMigrate then db.migrate? else some db) with
        | none => (none, d.keep db)
        | some db => (some db, d.keep db)

end Directory

end Procurement

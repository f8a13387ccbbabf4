import Procurement.Database.Address
import Procurement.Text.Decimal

/-!
# Where a database is

The name of a database is the path of a file, or says in a longer form where the
file is and how to open it. The data of a database may also live no longer than
the program that uses it.
-/

namespace Procurement

open Procurement.Text

/-- What may be done with a file. -/
inductive Access where
  | read
  /-- Reading and writing a file that is there. -/
  | write
  /-- Reading and writing a file, which is made if it is missing. -/
  | create
  deriving DecidableEq, Repr

/-- How much an access allows; an access contains those that allow less. -/
def Access.rank : Access → Nat
  | read => 0
  | write => 1
  | create => 2

/-- Where a database is, and how it is opened. -/
structure Location where
  /-- The path of the file; `none` for data that is not kept. -/
  path : Option String
  access : Access
  /-- Nothing changes the file while it is open. -/
  immutable : Bool
  /-- Whether changes can go to a log before they go to the file. -/
  canLog : Bool
  deriving DecidableEq, Repr

/-- Whether nothing can be written. -/
def Location.readOnly (location : Location) : Bool :=
  location.access = .read || location.immutable

/-- A name of a database in its parts: a path and parameters. -/
structure DatabaseName where
  path : String
  parameters : List (String × String)

namespace DatabaseName

/-- The text of bytes, which need not be one. -/
def textOf (bytes : List UInt8) : String :=
  match String.fromUTF8? ⟨bytes.toArray⟩ with
  | some text => text
  | none => String.ofList (bytes.map fun b => Char.ofNat b.toNat)

/-- A part of a name with its percent signs resolved, up to the first null character. -/
def partOf (text : List Char) : String :=
  textOf ((percentDecoded (bytesOf text)).takeWhile (· ≠ 0))

/-- A text up to the first null character. -/
def upToNull (text : String) : String := String.ofList (text.toList.takeWhile (· ≠ '\x00'))

/-- The path and parameters behind the mark of a long form. No machine may be named but
the own one. Parameters without a name do not count. -/
def ofLongForm? (text : List Char) : Option DatabaseName := do
  let text ← match text with
    | '/' :: '/' :: rest =>
      let machine := rest.takeWhile (· ≠ '/')
      if machine = [] ∨ machine = "localhost".toList then some (rest.drop machine.length)
      else none
    | text => some text
  let text := text.takeWhile (· ≠ '#')
  let path := text.takeWhile (· ≠ '?')
  let given := parts '&' (String.ofList (text.drop (path.length + 1)))
  let parameters := given.map fun text =>
    let name := text.toList.takeWhile (· ≠ '=')
    (partOf name, partOf (text.toList.drop (name.length + 1)))
  pure ⟨partOf path, parameters.filter (·.1 ≠ "")⟩

/-- What starts a name in the long form. -/
def longMark : List Char := "file:".toList

/-- The path and parameters for an address. If the address says how files are reached, its
name is a path as it is; otherwise it has no null character and may be in the long form. -/
def ofAddress? (address : Address) : Option DatabaseName :=
  let name := address.name.toList
  let immutable := if address.immutable then [("immutable", "true")] else []
  match address.fileSystem with
  | some fileSystem =>
    some ⟨upToNull address.name, immutable ++ [("vfs", upToNull fileSystem)]⟩
  | none =>
    if address.immutable then some ⟨upToNull address.name, immutable⟩
    else if name.contains '\x00' then none
    else if longMark.isPrefixOf name then ofLongForm? (name.drop longMark.length)
    else some ⟨address.name, []⟩

/-- Whether the word for a parameter says yes: a number up to 31 bits whose last eight are
not all zero, or a word. -/
def affirms (word : String) : Bool :=
  match (takeDigits word.length word.toList).1 with
  | [] => ["on", "yes", "true"].contains (String.ofList (word.toList.map Char.toLower))
  | ds =>
    let n := numberOfDigits 10 ds
    n ≤ 2147483647 && n % 256 ≠ 0

/-- Whether the parameter with the given name says yes. -/
def asks (name : DatabaseName) (key : String) : Bool := (name.parameters.lookup key).any affirms

end DatabaseName

/-- How the parameters of a name have a database opened. -/
structure Opening where
  access : Access
  inMemory : Bool
  /-- The name of the way to reach files. -/
  fileSystem : String := "unix"

namespace Opening

/-- The opening with another access, if that is no more than the one so far. Data in memory
allows any. -/
def withAccess? (opening : Opening) (access : Access) : Option Opening :=
  if opening.inMemory ∨ access.rank ≤ opening.access.rank then
    some { opening with access, inMemory := false }
  else none

/-- The opening changed by a parameter, unless the parameter has no such value. -/
def withParameter? (opening : Opening) : String × String → Option Opening
  | ("vfs", name) => some { opening with fileSystem := name }
  | ("cache", value) => if value = "shared" ∨ value = "private" then some opening else none
  | ("mode", "ro") => opening.withAccess? .read
  | ("mode", "rw") => opening.withAccess? .write
  | ("mode", "rwc") => opening.withAccess? .create
  | ("mode", "memory") => some { opening with access := .create, inMemory := true }
  | ("mode", _) => none
  | _ => some opening

/-- The ways to reach files that there are, and whether they can keep a log of changes. -/
def fileSystems : List (String × Bool) :=
  [("unix", true), ("unix-excl", true), ("unix-dotfile", false), ("unix-none", false),
    ("memdb", false)]

end Opening

/-- The location for an address. -/
def Location.ofAddress? (address : Address) : Option Location := do
  let name ← DatabaseName.ofAddress? address
  let start : Opening :=
    { access := if address.readOnly then .read else .create, inMemory := address.inMemory }
  let opening ← name.parameters.foldlM Opening.withParameter? start
  let canLog ← Opening.fileSystems.lookup opening.fileSystem
  let immutable := name.asks "immutable"
  if opening.inMemory ∨ name.path = ":memory:" ∨ name.path = "" then
    pure ⟨none, opening.access, false, false⟩
  else if opening.fileSystem = "memdb" then pure ⟨none, opening.access, immutable, false⟩
  else pure ⟨some name.path, opening.access, immutable, canLog && !name.asks "nolock"⟩

end Procurement

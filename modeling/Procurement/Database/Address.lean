import Procurement.Text.Parts
import Procurement.Text.Percent

/-!
# Addresses of databases

An address names a database and says behind a question mark how it is opened.
In front of the name there may be marks of what kind of address it is, any number
of times.
-/

namespace Procurement

open Procurement.Text

/-- What an address of a database asks for. -/
structure Address where
  /-- The name of the database. -/
  name : String
  readOnly : Bool := false
  inMemory : Bool := false
  /-- Nothing changes the file while it is open. -/
  immutable : Bool := false
  /-- The name of the way to reach files. -/
  fileSystem : Option String := none
  deriving DecidableEq, Repr

namespace Address

/-- A text without any number of copies of a mark at its front. -/
def stripAll (mark : List Char) : Nat → List Char → List Char
  | 0, text => text
  | fuel + 1, text =>
    if mark.isPrefixOf text then stripAll mark fuel (text.drop mark.length) else text

/-- The text with its percent signs resolved; the mark of a lost character where that gives
no text. -/
def decoded (text : List Char) : String := (percentDecoded? text).getD "\uFFFD"

/-- The name and value of a parameter, in which a plus sign stands for a space. -/
def parameterOf (text : List Char) : String × String :=
  let spaced := text.map fun c => if c = '+' then ' ' else c
  let name := spaced.takeWhile (· ≠ '=')
  (decoded name, decoded (spaced.drop (name.length + 1)))

/-- The address changed by a parameter, if the parameter has a meaning. -/
def withParameter? (address : Address) : String × String → Option Address
  | ("mode", "ro") => some { address with readOnly := true }
  | ("mode", "rw") | ("mode", "rwc") => some address
  | ("mode", "memory") => some { address with inMemory := true }
  | ("cache", "private") | ("cache", "shared") => some address
  | ("immutable", "true") | ("immutable", "1") => some { address with immutable := true }
  | ("immutable", "false") | ("immutable", "0") => some { address with immutable := false }
  | ("vfs", name) => some { address with fileSystem := some name }
  | _ => none

/-- What the text of an address asks for. -/
def ofUrl? (url : String) : Option Address := do
  let text := url.toList
  let text := stripAll "sqlite:".toList text.length text
  let text := stripAll "//".toList text.length text
  let name := text.takeWhile (· ≠ '?')
  let parameters := parts '&' (String.ofList (text.drop (name.length + 1)))
  let given := (parameters.filter (· ≠ "")).map fun text => parameterOf text.toList
  given.foldlM withParameter? { name := ← percentDecoded? name }

end Address

end Procurement

import Procurement.Text.Parts

/-!
# Files and paths

A directory holds files with texts, and folders. A path leads from the directory
to something in it by parts with slashes between them. The parts are followed one
by one through folders that exist; an empty part and a point lead nowhere, and
two points lead back. A path that starts with a slash does not start from the
directory but from the root of all; its steps start with an empty name.
-/

namespace Procurement

/-- The steps to where a path starts. -/
def pathStart (path : String) : List String := if path.startsWith "/" then [""] else []

/-- The parts of a path, between its slashes. -/
def partsOfPath (path : String) : List String := Text.parts '/' path

/-- The names on the way along a path. -/
def pathSteps (path : String) : List String :=
  pathStart path ++ (partsOfPath path).filter fun part => part ≠ "" && part ≠ "."

/-- What a directory holds. -/
structure Files where
  /-- The texts of files, by their paths. -/
  texts : List (String × String) := []
  /-- Folders that may hold no file, by their steps. -/
  folders : List (List String) := []

namespace Files

/-- The text of the file at the end of the given steps; of several the last one. -/
def text? (files : Files) (steps : List String) : Option String :=
  ((files.texts.filter fun file => pathSteps file.1 == steps).getLast?).map Prod.snd

/-- Whether there is a folder at the end of the given steps. -/
def hasFolder (files : Files) (steps : List String) : Bool :=
  let leadsInto (other : List String) : Bool := steps.isPrefixOf other && steps != other
  steps.isEmpty || steps == [""] ||
    files.folders.any (fun folder => folder == steps || leadsInto folder) ||
    files.texts.any fun file => leadsInto (pathSteps file.1)

/-- Follows parts of a path from where some steps have led. -/
def follow? (files : Files) : List String → List String → Option (List String)
  | steps, [] => some steps
  | steps, part :: parts =>
    if !files.hasFolder steps then none
    else if part = "" ∨ part = "." then files.follow? steps parts
    else if part = ".." then
      if steps.isEmpty then none
      else files.follow? (if steps = [""] then steps else steps.dropLast) parts
    else files.follow? (steps ++ [part]) parts

/-- The text of the file that a path leads to. -/
def read? (files : Files) (path : String) : Option String :=
  (files.follow? (pathStart path) (partsOfPath path)).bind files.text?

/-- A directory with a text written to the file that a path leads to. The folders on the way
must exist, and there must be no folder in the place of the file. -/
def write? (files : Files) (path text : String) : Option Files :=
  match files.follow? (pathStart path) (partsOfPath path) with
  | some steps =>
    if files.hasFolder steps then none
    else some { files with texts := files.texts ++ [("/".intercalate steps, text)] }
  | none => none

/-- A directory itself is a folder. -/
theorem hasFolder_nil (files : Files) : files.hasFolder [] = true := rfl

end Files

end Procurement

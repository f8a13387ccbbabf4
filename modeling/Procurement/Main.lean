import Procurement.CommandLine.Help
import Procurement.CommandLine.Run
import Procurement.Json.Pretty
import Procurement.Tables.Form

/-!
# The program

Reads the files and variables that a run goes by, runs, and writes back what the
run left in its database.
-/

namespace Procurement.Program

/-- The text of a file, if it can be read. -/
def readText? (name : String) : IO (Option String) := do
  try
    let text ← IO.FS.readFile name
    pure (some text)
  catch _ => pure none

/-- Whether there is anything with the given name. -/
def isThere (name : String) : IO Bool := do
  try
    let _ ← IO.FS.realPath name
    pure true
  catch _ => pure false

/-- The steps to where a path leads. -/
def stepsOf (path : String) : List String :=
  (Directory.stepsTo? {} (pathStart path) (partsOfPath path)).getD []

/-- The folders that a path leads through, as far as they are there. -/
def foldersOn (path : String) : IO (List (List String)) := do
  let parts := partsOfPath path
  let ways := (List.range parts.length).map fun n => "/".intercalate (parts.take n)
  let found ← ways.filterM isThere
  pure (found.map stepsOf)

/-- What can be found along paths. -/
def readFiles (paths : List String) : IO Files := do
  let texts ← paths.mapM fun path => do
    let text ← readText? path
    pure (text.map fun text => ("/".intercalate (stepsOf path), text))
  pure { texts := texts.filterMap id, folders := (← paths.mapM foldersOn).flatten }

/-- The environment, as far as it matters. -/
def readEnvironment : IO Environment := do
  let names := "RUST_LOG" :: Invocation.threadVariable :: settingVariables
  let found ← names.mapM fun name => do
    let value ← IO.getEnv name
    pure (value.map fun value => (name, value))
  pure (found.filterMap id)

/-- The paths of the files that settings and variables may be read from. -/
def settingsPaths (invocation : Invocation) : List String :=
  let path := invocation.config.getD Settings.defaultName
  ".env" :: path :: FileFormats.toml.all.filterMap fun format => withEnding? format.ending path

/-- The directory with the database file that the settings name. -/
def withDatabase (d : Directory) (settings : Settings) : IO Directory := do
  let location := (Address.ofUrl? settings.database.url).bind Location.ofAddress?
  match location.bind Location.path with
  | none => pure d
  | some path =>
    let shortened := "/".intercalate (stepsOf path)
    let found ← readFiles [shortened]
    let d := { d with files.folders := found.folders ++ d.files.folders }
    match found.texts with
    | [] => pure d
    | (_, text) :: _ =>
      match KeptDatabase.ofText? text with
      | some kept => pure { d with databases := [(shortened, kept)] }
      | none => pure { d with files.texts := d.files.texts ++ [(shortened, text)] }

/-- Writes all databases of a directory back to their files. -/
def keepAll (d : Directory) : IO Unit :=
  d.databases.forM fun (path, kept) => IO.FS.writeFile path kept.text

/-- Shows how a run ended. -/
def report (outcome : Outcome) : IO UInt32 := do
  match outcome with
  | .explained => IO.println helpText
  | .misused => IO.eprintln helpText
  | .printed value => IO.println value.pretty
  | .failed message => IO.eprintln ("Error: " ++ message)
  | .aborted => pure ()
  pure outcome.code.toUInt32

/-- Runs with the given arguments. -/
def run (arguments : List String) : IO UInt32 := do
  match Invocation.ofArguments arguments with
  | .error _ => report (({} : Directory).run [] arguments).1
  | .ok invocation =>
    let files ← readFiles (settingsPaths invocation)
    let outer ← readEnvironment
    let directory ← match invocation.prepare files outer with
      | .ok settings => withDatabase { files } settings
      | .error _ => pure { files }
    let (outcome, after) := directory.run outer arguments
    keepAll after
    report outcome

end Procurement.Program

/-- The program. -/
def main (arguments : List String) : IO UInt32 := Procurement.Program.run arguments

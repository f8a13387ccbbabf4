import Procurement.Files
import Procurement.Settings.Environment
import Procurement.Toml.Reader

/-!
# Settings files

Settings are kept in a file with one section for each group. A file has a format,
which its ending tells. A file is found under its path, or under its path with
the ending of a known format behind it; a file found under its very path must
have such an ending.
-/

namespace Procurement

/-- A format that settings files may have: the ending of their names, and how a text in it
is read. -/
structure FileFormat where
  ending : String
  read? : String → Option Toml

/-- The format that settings are written in. -/
def FileFormat.toml : FileFormat := { ending := "toml", read? := Toml.read? }

/-- The formats that are known, in the order in which their files are looked for. -/
structure FileFormats where
  all : List FileFormat
  /-- Each format has an ending of its own. -/
  distinct : (all.map FileFormat.ending).Nodup
  /-- What is written can be read. -/
  toml_mem : FileFormat.toml ∈ all

namespace FileFormats

/-- Just the format that settings are written in. -/
def toml : FileFormats where
  all := [FileFormat.toml]
  distinct := by decide
  toml_mem := List.mem_singleton_self _

/-- The format of files with the given ending. -/
def ofEnding? (formats : FileFormats) (ending : String) : Option FileFormat :=
  formats.all.find? fun format => format.ending = ending

end FileFormats

/-- The ending of the last name in a path: what stands behind its last point, unless
nothing stands in front of that point. -/
def fileEnding? (path : String) : Option String :=
  let base := path.toList.reverse.takeWhile (· ≠ '/')
  let ending := base.takeWhile (· ≠ '.')
  if ending.length + 1 < base.length then some (String.ofList ending.reverse) else none

/-- A path with an ending behind its last name. -/
def withEnding? (ending path : String) : Option String :=
  let parts := ((partsOfPath path).reverse.dropWhile fun part => part = "" || part = ".").reverse
  match parts.getLast? with
  | some name => if name = ".." then none else some ("/".intercalate parts ++ "." ++ ending)
  | none => none

namespace Files

/-- The text of the file of a format that a path without its ending leads to. -/
def textIn? (files : Files) (path : String) (format : FileFormat) : Option String :=
  (withEnding? format.ending path).bind files.read?

/-- The settings file with the given path: its format and its text. -/
def settingsFile? (files : Files) (path : String) (formats : FileFormats) :
    Option (FileFormat × String) :=
  match files.read? path with
  | some text => do
    let format ← formats.ofEnding? (← fileEnding? path)
    pure (format, text)
  | none => formats.all.findSome? fun format => (files.textIn? path format).map (format, ·)

end Files

namespace Settings

/-- The layer of settings in the file with the given path. -/
def fileLayer (files : Files) (path : String) (formats : FileFormats) :
    Except SettingsFault Layer :=
  match (files.settingsFile? path formats).bind fun (format, text) => format.read? text with
  | some value => pure value.entries
  | none => throw .unreadable

/-- The settings in the file with the given path, with defaults for what it leaves out. -/
def ofFile (files : Files) (path : String) (formats : FileFormats := .toml) :
    Except SettingsFault Settings := do
  ofLayers [← fileLayer files path formats]

/-- The name of the settings file of a directory, without its ending. -/
def defaultName : String := "tender-market"

/-- Whether a directory has something in the place of its settings file. -/
def hasDefaultFile (files : Files) : Bool :=
  let steps := [defaultName ++ ".toml"]
  (files.text? steps).isSome || files.hasFolder steps

/-- The settings that hold in a directory and an environment: those of the environment,
then those of the directory's settings file if there is one, then the defaults. -/
def load (files : Files) (environment : Environment) (formats : FileFormats := .toml) :
    Except SettingsFault Settings := do
  let ofDirectory ←
    if hasDefaultFile files then
      (fun layer => [layer]) <$> fileLayer files defaultName formats
    else pure []
  ofLayers (ofDirectory ++ [environment.layer])

end Settings

end Procurement

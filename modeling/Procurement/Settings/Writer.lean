import Procurement.Files
import Procurement.Settings.Basic
import Procurement.Toml.Quoted

/-!
# Writing settings files

A settings file has one section for each group, with one line for each setting
and a blank line between sections. A time limit that is not set has no line. The
numbers in such a file have a sign, so the greatest of 64-bit numbers without
sign cannot be written.
-/

namespace Procurement.Settings

open Procurement.Text

/-- The greatest number that a settings file can hold. -/
def greatestNumber : UInt64 := 9223372036854775807

/-- The line that sets a value. -/
def lineText (key : String) (value : List Char) : List Char :=
  key.toList ++ [' ', '=', ' '] ++ value ++ ['\n']

/-- The section of a group of settings. -/
def sectionText (name : String) (lines : List (List Char)) : List Char :=
  '[' :: name.toList ++ [']', '\n'] ++ lines.flatten

/-- The word for a truth value. -/
def boolText (value : Bool) : List Char := if value then "true".toList else "false".toList

/-- The sections of the settings, in their order. -/
def sectionTexts (s : Settings) : List (List Char) :=
  let timeout := match s.decisions.timeout with
    | some timeout => [lineText "decision_timeout_ms" (digits timeout.toNat)]
    | none => []
  [sectionText "database"
      [lineText "url" (Toml.writeText s.database.url []),
        lineText "max_connections" (digits s.database.maxConnections.toNat),
        lineText "auto_migrate" (boolText s.database.autoMigrate),
        lineText "busy_timeout_ms" (digits s.database.busyTimeout.toNat)],
    sectionText "observability"
      [lineText "log_level" (Toml.writeText s.log.level []),
        lineText "json_logs" (boolText s.log.json)],
    sectionText "pagination"
      [lineText "default_limit" (signedDigits s.pages.defaultLimit.toInt)],
    sectionText "workflow" timeout]

/-- The text of a settings file, if all numbers can be written. -/
def text? (s : Settings) : Option String :=
  if s.database.busyTimeout ≤ greatestNumber ∧ s.decisions.timeout.all (· ≤ greatestNumber) then
    some (String.ofList (['\n'].intercalate s.sectionTexts))
  else none

/-- A directory with settings saved to the file with the given path, if they can be written. -/
def save? (s : Settings) (files : Files) (path : String) : Option Files :=
  s.text?.bind (files.write? path)

end Procurement.Settings

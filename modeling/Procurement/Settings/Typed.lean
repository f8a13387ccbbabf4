import Procurement.Settings.Basic
import Procurement.Text.Case
import Procurement.Text.Decimal
import Procurement.Toml.Basic

/-!
# Settings from untyped values

A value is taken for a setting of another type where that makes sense: words
for yes and no are booleans and the numbers one and zero, numbers are booleans
by being zero or not, floats are rounded, and anything but a list or table has a
text.
-/

namespace Procurement

open Procurement.Text

namespace Toml

/-- What a word for yes or no says, in any case of its letters. -/
def affirmation? (text : String) : Option Bool :=
  match lower text with
  | "true" | "on" | "yes" => some true
  | "false" | "off" | "no" => some false
  | _ => none

/-- The boolean that a value stands for. -/
def asBool? : Toml → Option Bool
  | boolean value => some value
  | integer value => some (value != 0)
  | float value => some value.isNonzero
  | string "1" => some true
  | string "0" => some false
  | string text => affirmation? text
  | moment _ | array _ | table _ | missing => none

/-- The whole number within bounds that a value stands for. Floats are rounded to the
nearest, ties away from zero, and beyond the bounds to the bounds. Where nothing is below
zero, a text has no minus sign, not even in front of a zero. -/
def asInteger? (least greatest : Int) : Toml → Option Int
  | boolean value => some (if value then 1 else 0)
  | integer value => if least ≤ value ∧ value ≤ greatest then some value else none
  | float value => some (value.toInteger least greatest)
  | string text =>
    match affirmation? text with
    | some value => some (if value then 1 else 0)
    | none =>
      if least = 0 ∧ text.toList.head? = some '-' then none
      else (readInteger? text.toList).filter fun n => least ≤ n ∧ n ≤ greatest
  | moment _ | array _ | table _ | missing => none

/-- The 64-bit number with sign that a value stands for. -/
def asInt64? (value : Toml) : Option Int64 :=
  (value.asInteger? (-9223372036854775808) 9223372036854775807).map Int64.ofInt

/-- The 64-bit number without sign that a value stands for. -/
def asUInt64? (value : Toml) : Option UInt64 :=
  (value.asInteger? 0 18446744073709551615).map fun n => n.toNat.toUInt64

/-- The 32-bit number without sign that a value stands for. -/
def asUInt32? (value : Toml) : Option UInt32 := do
  let n ← value.asUInt64?
  if n ≤ 4294967295 then some n.toUInt32 else none

/-- The text that a value stands for. -/
def asText? : Toml → Option String
  | boolean value => some (if value then "true" else "false")
  | integer value => some (String.ofList (signedDigits value))
  | float value => some (String.ofList value.text)
  | string text | moment text => some text
  | array _ | table _ | missing => none

/-- The values of the named keys in a table, where some may lack, or the items of a list in
their order, where none may. -/
def settings? (keys : List String) : Toml → Option (List (Option Toml))
  | table entries => some (keys.map fun key => entries.lookup key)
  | array items => if items.length < keys.length then none else some (items.map some)
  | _ => none

end Toml

/-- The settings of the database, as a table or list. -/
def DatabaseSettings.ofToml? (value : Toml) : Option DatabaseSettings := do
  match ← value.settings? ["url", "max_connections", "auto_migrate", "busy_timeout_ms"] with
  | some url :: some maxConnections :: some autoMigrate :: some busyTimeout :: _ =>
    pure
      { url := ← url.asText?
        maxConnections := ← maxConnections.asUInt32?
        autoMigrate := ← autoMigrate.asBool?
        busyTimeout := ← busyTimeout.asUInt64? }
  | _ => none

/-- The settings of the log, as a table or list. -/
def LogSettings.ofToml? (value : Toml) : Option LogSettings := do
  match ← value.settings? ["log_level", "json_logs"] with
  | some level :: some json :: _ => pure { level := ← level.asText?, json := ← json.asBool? }
  | _ => none

/-- The settings of listings, as a table or list. -/
def PageSettings.ofToml? (value : Toml) : Option PageSettings := do
  match ← value.settings? ["default_limit"] with
  | some defaultLimit :: _ => pure { defaultLimit := ← defaultLimit.asInt64? }
  | _ => none

/-- The settings of decisions, as a table or list. Without a value there is no time limit. -/
def DecisionSettings.ofToml? (value : Toml) : Option DecisionSettings := do
  match ← value.settings? ["decision_timeout_ms"] with
  | none :: _ | some .missing :: _ => pure { timeout := none }
  | some timeout :: _ => pure { timeout := some (← timeout.asUInt64?) }
  | [] => none

/-- The settings in a table of sections. -/
def Settings.ofToml? (value : Toml) : Option Settings := do
  pure
    { database := ← DatabaseSettings.ofToml? (← value.get? "database")
      log := ← LogSettings.ofToml? (← value.get? "observability")
      pages := ← PageSettings.ofToml? (← value.get? "pagination")
      decisions := ← DecisionSettings.ofToml? (← value.get? "workflow") }

/-- Settings as a table of sections, without a time limit that is not set. -/
def Settings.toToml (s : Settings) : Toml :=
  let timeout := match s.decisions.timeout with
    | some timeout => [("decision_timeout_ms", Toml.integer timeout.toNat)]
    | none => []
  .table
    [("database", .table
        [("url", .string s.database.url),
          ("max_connections", .integer s.database.maxConnections.toNat),
          ("auto_migrate", .boolean s.database.autoMigrate),
          ("busy_timeout_ms", .integer s.database.busyTimeout.toNat)]),
      ("observability", .table
        [("log_level", .string s.log.level), ("json_logs", .boolean s.log.json)]),
      ("pagination", .table [("default_limit", .integer s.pages.defaultLimit.toInt)]),
      ("workflow", .table timeout)]

end Procurement

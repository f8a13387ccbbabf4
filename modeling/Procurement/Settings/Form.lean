import Procurement.Json.Form
import Procurement.Settings.Basic

/-!
# Settings as JSON

Each group of settings is an object, or an array of its settings in their order.
The time limit for decisions may be null, and in an object it may be left out.
-/

namespace Procurement

namespace Json

/-- A 32-bit number without sign. -/
def uint32? (value : Json) : Option UInt32 := (value.natBelow? 4294967296).map Nat.toUInt32

/-- A 64-bit number without sign. -/
def uint64? (value : Json) : Option UInt64 :=
  (value.natBelow? 18446744073709551616).map Nat.toUInt64

/-- A number, or null for none. -/
def optionalUInt64? : Json → Option (Option UInt64)
  | null => some none
  | value => value.uint64?.map some

/-- A number, or null for none. -/
def ofOptionalUInt64 : Option UInt64 → Json
  | none => null
  | some n => integer n.toNat

end Json

instance : JsonForm DatabaseSettings where
  toJson s := .object
    [("url", .string s.url), ("max_connections", .integer s.maxConnections.toNat),
      ("auto_migrate", .bool s.autoMigrate), ("busy_timeout_ms", .integer s.busyTimeout.toNat)]
  ofJson? value := do
    match ← value.fields? ["url", "max_connections", "auto_migrate", "busy_timeout_ms"] with
    | [url, maxConnections, autoMigrate, busyTimeout] =>
      pure
        { url := ← url.string?
          maxConnections := ← maxConnections.uint32?
          autoMigrate := ← autoMigrate.bool?
          busyTimeout := ← busyTimeout.uint64? }
    | _ => none

instance : JsonForm LogSettings where
  toJson s := .object [("log_level", .string s.level), ("json_logs", .bool s.json)]
  ofJson? value := do
    match ← value.fields? ["log_level", "json_logs"] with
    | [level, json] => pure { level := ← level.string?, json := ← json.bool? }
    | _ => none

instance : JsonForm PageSettings where
  toJson s := .object [("default_limit", .integer s.defaultLimit.toInt)]
  ofJson? value := do
    match ← value.fields? ["default_limit"] with
    | [defaultLimit] => pure { defaultLimit := Int64.ofInt (← defaultLimit.int64?) }
    | _ => none

instance : JsonForm DecisionSettings where
  toJson s := .object [("decision_timeout_ms", .ofOptionalUInt64 s.timeout)]
  ofJson? value := do
    match value with
    | .object members =>
      match members.filter fun member => member.1 == "decision_timeout_ms" with
      | [] => pure { timeout := none }
      | [(_, timeout)] => pure { timeout := ← timeout.optionalUInt64? }
      | _ => none
    | .array [timeout] => pure { timeout := ← timeout.optionalUInt64? }
    | _ => none

instance : JsonForm Settings where
  toJson s := .object
    [("database", JsonForm.toJson s.database), ("observability", JsonForm.toJson s.log),
      ("pagination", JsonForm.toJson s.pages), ("workflow", JsonForm.toJson s.decisions)]
  ofJson? value := do
    match ← value.fields? ["database", "observability", "pagination", "workflow"] with
    | [database, log, pages, decisions] =>
      pure
        { database := ← JsonForm.ofJson? database
          log := ← JsonForm.ofJson? log
          pages := ← JsonForm.ofJson? pages
          decisions := ← JsonForm.ofJson? decisions }
    | _ => none

end Procurement

import Procurement.Settings.Layer

/-!
# Settings from the environment

A variable sets a value if its name starts with the marketplace's mark. The rest
of the name is the path of the value, with double underscores between its parts.
The text of a variable is taken for a boolean or a number if it reads as one.
-/

namespace Procurement

open Procurement.Text

/-- Variables with their values. -/
abbrev Environment := List (String × String)

/-- What names of variables that are settings start with, in lower case. -/
def variableMark : List Char := "tender_market__".toList

/-- A text with points in place of double underscores. -/
def pointed : List Char → List Char
  | '_' :: '_' :: rest => '.' :: pointed rest
  | c :: rest => c :: pointed rest
  | [] => []

/-- The path of the value that a variable sets, if it is a setting. -/
def settingOfVariable? (name : String) : Option String :=
  let name := (lower name).toList
  if variableMark.isPrefixOf name then
    some (String.ofList (pointed (name.drop variableMark.length)))
  else none

/-- The value of a variable: a boolean, a whole number of 64 bits, a float or the text itself. -/
def valueOfVariable (text : String) : Toml :=
  let whole := (readInteger? text.toList).filter fun n =>
    -9223372036854775808 ≤ n ∧ n ≤ 9223372036854775807
  match lower text, whole, Binary64.ofText? text.toList with
  | "true", _, _ => .boolean true
  | "false", _, _ => .boolean false
  | _, some n, _ => .integer n
  | _, none, some x => .float x
  | _, none, none => .string text

/-- The usual names of the variables that set something. -/
def settingVariables : List String :=
  ["TENDER_MARKET__DATABASE__URL", "TENDER_MARKET__DATABASE__MAX_CONNECTIONS",
    "TENDER_MARKET__DATABASE__AUTO_MIGRATE", "TENDER_MARKET__DATABASE__BUSY_TIMEOUT_MS",
    "TENDER_MARKET__OBSERVABILITY__LOG_LEVEL", "TENDER_MARKET__OBSERVABILITY__JSON_LOGS",
    "TENDER_MARKET__PAGINATION__DEFAULT_LIMIT", "TENDER_MARKET__WORKFLOW__DECISION_TIMEOUT_MS"]

/-- The layer of settings in an environment. -/
def Environment.layer (environment : Environment) : Layer :=
  environment.filterMap fun (name, text) =>
    (settingOfVariable? name).map fun path => (path, valueOfVariable text)

end Procurement

import Procurement.Settings.Typed

/-!
# Settings one by one

A table of settings is looked at setting by setting: each has one value, in its section
under its key, and settings can be read from the table just if each of the values stands
for something.
-/

namespace Procurement

/-- The settings, each by itself. -/
inductive Setting where
  | url
  | maxConnections
  | autoMigrate
  | busyTimeout
  | logLevel
  | jsonLogs
  | defaultLimit
  | decisionTimeout
  deriving DecidableEq, Repr

/-- The limit of time that a value stands for; an item that was never given sets none. -/
def Toml.asLimit? : Toml → Option (Option UInt64)
  | .missing => some none
  | value => value.asUInt64?.map some

namespace Setting

/-- The section that a setting is in. -/
def sectionName : Setting → String
  | url | maxConnections | autoMigrate | busyTimeout => "database"
  | logLevel | jsonLogs => "observability"
  | defaultLimit => "pagination"
  | decisionTimeout => "workflow"

/-- The key of a setting in its section. -/
def key : Setting → String
  | url => "url"
  | maxConnections => "max_connections"
  | autoMigrate => "auto_migrate"
  | busyTimeout => "busy_timeout_ms"
  | logLevel => "log_level"
  | jsonLogs => "json_logs"
  | defaultLimit => "default_limit"
  | decisionTimeout => "decision_timeout_ms"

/-- The name, in lower case, of the variable for a setting. -/
def variableName (setting : Setting) : String :=
  "tender_market__" ++ setting.sectionName ++ "__" ++ setting.key

/-- The untyped value of a setting. -/
def valueIn (s : Settings) : Setting → Toml
  | url => .string s.database.url
  | maxConnections => .integer s.database.maxConnections.toNat
  | autoMigrate => .boolean s.database.autoMigrate
  | busyTimeout => .integer s.database.busyTimeout.toNat
  | logLevel => .string s.log.level
  | jsonLogs => .boolean s.log.json
  | defaultLimit => .integer s.pages.defaultLimit.toInt
  | decisionTimeout =>
    match s.decisions.timeout with
    | some timeout => .integer timeout.toNat
    | none => .missing

/-- A value can be converted to the type of a setting, and settings have what comes of it. -/
def Shows (value : Toml) (s : Settings) : Setting → Prop
  | url => value.asText? = some s.database.url
  | maxConnections => value.asUInt32? = some s.database.maxConnections
  | autoMigrate => value.asBool? = some s.database.autoMigrate
  | busyTimeout => value.asUInt64? = some s.database.busyTimeout
  | logLevel => value.asText? = some s.log.level
  | jsonLogs => value.asBool? = some s.log.json
  | defaultLimit => value.asInt64? = some s.pages.defaultLimit
  | decisionTimeout => value.asLimit? = some s.decisions.timeout

instance (value : Toml) (s : Settings) (setting : Setting) : Decidable (setting.Shows value s) :=
  match setting with
  | url | maxConnections | autoMigrate | busyTimeout | logLevel | jsonLogs | defaultLimit
  | decisionTimeout => inferInstanceAs (Decidable (_ = _))

end Setting

/-! ## Values of settings -/

namespace Toml

/-- A whole number within bounds is read as it is. -/
theorem asInteger?_integer {least greatest n : Int} (hleast : least ≤ n)
    (hgreatest : n ≤ greatest) : (integer n).asInteger? least greatest = some n :=
  if_pos ⟨hleast, hgreatest⟩

/-- A number of 64 bits is read as it is. -/
theorem asUInt64?_toNat (n : UInt64) : (integer n.toNat).asUInt64? = some n := by
  have hgreatest : (n.toNat : Int) ≤ 18446744073709551615 := by
    have := n.toNat_lt
    omega
  unfold asUInt64?
  rw [asInteger?_integer (by omega) hgreatest]
  simp

/-- A number of 32 bits is read as it is. -/
theorem asUInt32?_toNat (n : UInt32) : (integer n.toNat).asUInt32? = some n := by
  have hwide : (integer n.toNat).asUInt64? = some n.toUInt64 := by
    have hnumber := asUInt64?_toNat n.toUInt64
    rwa [UInt32.toNat_toUInt64] at hnumber
  have hgreatest : n.toUInt64 ≤ 4294967295 := by
    have := n.toNat_lt
    rw [UInt64.le_iff_toNat_le, UInt32.toNat_toUInt64]
    exact Nat.le_of_lt_succ this
  unfold asUInt32?
  rw [hwide, Option.bind_eq_bind, Option.bind_some, if_pos hgreatest]
  simp

/-- A number of 64 bits with sign is read as it is. -/
theorem asInt64?_toInt (n : Int64) : (integer n.toInt).asInt64? = some n := by
  have hleast : -9223372036854775808 ≤ n.toInt := n.le_toInt
  have hgreatest : n.toInt ≤ 9223372036854775807 := by
    have := n.toInt_lt
    omega
  unfold asInt64?
  rw [asInteger?_integer hleast hgreatest]
  simp

end Toml

/-- The values of settings stand for what the settings have. -/
theorem Setting.shows_valueIn (s : Settings) (setting : Setting) :
    setting.Shows (setting.valueIn s) s := by
  cases setting with
  | url => rfl
  | maxConnections => exact Toml.asUInt32?_toNat _
  | autoMigrate => rfl
  | busyTimeout => exact Toml.asUInt64?_toNat _
  | logLevel => rfl
  | jsonLogs => rfl
  | defaultLimit => exact Toml.asInt64?_toInt _
  | decisionTimeout =>
    unfold Setting.Shows Setting.valueIn
    cases s.decisions.timeout with
    | none => rfl
    | some timeout => exact congrArg (Option.map some) (Toml.asUInt64?_toNat timeout)

/-! ## Tables of settings -/

/-- The value of a setting in a table of sections. -/
def Toml.at? (value : Toml) (setting : Setting) : Option Toml :=
  (value.get? setting.sectionName).bind (·.get? setting.key)

/-- A table that has all sections, and in them the given values. -/
structure Toml.Represents (value : Toml) (values : Setting → Toml) : Prop where
  sections : ∀ setting : Setting, ∃ entries, value.get? setting.sectionName = some (.table entries)
  values : ∀ setting, value.at? setting = some (values setting)

/-- In its section a setting has its value under its key. -/
theorem Toml.Represents.lookup {value : Toml} {values : Setting → Toml}
    (h : value.Represents values) (setting : Setting) {entries : List (String × Toml)}
    (hsection : value.get? setting.sectionName = some (.table entries)) :
    entries.lookup setting.key = some (values setting) := by
  have hvalue := h.values setting
  unfold Toml.at? at hvalue
  rw [hsection] at hvalue
  exact hvalue

section Sections

variable {entries : List (String × Toml)}

/-- The settings of the database are read from a section just if each value stands for one. -/
theorem DatabaseSettings.ofToml?_table {url maxConnections autoMigrate busyTimeout : Toml}
    (hurl : entries.lookup "url" = some url)
    (hmaxConnections : entries.lookup "max_connections" = some maxConnections)
    (hautoMigrate : entries.lookup "auto_migrate" = some autoMigrate)
    (hbusyTimeout : entries.lookup "busy_timeout_ms" = some busyTimeout)
    (s : DatabaseSettings) :
    DatabaseSettings.ofToml? (.table entries) = some s ↔
      url.asText? = some s.url ∧ maxConnections.asUInt32? = some s.maxConnections ∧
      autoMigrate.asBool? = some s.autoMigrate ∧ busyTimeout.asUInt64? = some s.busyTimeout := by
  unfold DatabaseSettings.ofToml? Toml.settings?
  simp only [List.map_cons, List.map_nil, hurl, hmaxConnections, hautoMigrate, hbusyTimeout,
    Option.bind_eq_bind, Option.bind_some, Option.bind_eq_some_iff, Option.pure_def,
    Option.some.injEq]
  constructor
  · rintro ⟨_, h1, _, h2, _, h3, _, h4, rfl⟩
    exact ⟨h1, h2, h3, h4⟩
  · rintro ⟨h1, h2, h3, h4⟩
    exact ⟨_, h1, _, h2, _, h3, _, h4, rfl⟩

/-- The settings of the log are read from a section just if both values stand for one. -/
theorem LogSettings.ofToml?_table {level json : Toml}
    (hlevel : entries.lookup "log_level" = some level)
    (hjson : entries.lookup "json_logs" = some json) (s : LogSettings) :
    LogSettings.ofToml? (.table entries) = some s ↔
      level.asText? = some s.level ∧ json.asBool? = some s.json := by
  unfold LogSettings.ofToml? Toml.settings?
  simp only [List.map_cons, List.map_nil, hlevel, hjson, Option.bind_eq_bind, Option.bind_some,
    Option.bind_eq_some_iff, Option.pure_def, Option.some.injEq]
  constructor
  · rintro ⟨_, h1, _, h2, rfl⟩
    exact ⟨h1, h2⟩
  · rintro ⟨h1, h2⟩
    exact ⟨_, h1, _, h2, rfl⟩

/-- The settings of pages are read from a section just if the value stands for one. -/
theorem PageSettings.ofToml?_table {defaultLimit : Toml}
    (h : entries.lookup "default_limit" = some defaultLimit) (s : PageSettings) :
    PageSettings.ofToml? (.table entries) = some s ↔
      defaultLimit.asInt64? = some s.defaultLimit := by
  unfold PageSettings.ofToml? Toml.settings?
  simp only [List.map_cons, List.map_nil, h, Option.bind_eq_bind, Option.bind_some,
    Option.bind_eq_some_iff, Option.pure_def, Option.some.injEq]
  constructor
  · rintro ⟨_, h1, rfl⟩
    exact h1
  · intro h1
    exact ⟨_, h1, rfl⟩

/-- The settings of decisions are read from a section just if the value stands for one. -/
theorem DecisionSettings.ofToml?_table {timeout : Toml}
    (h : entries.lookup "decision_timeout_ms" = some timeout) (s : DecisionSettings) :
    DecisionSettings.ofToml? (.table entries) = some s ↔ timeout.asLimit? = some s.timeout := by
  unfold DecisionSettings.ofToml? Toml.settings?
  simp only [List.map_cons, List.map_nil, h, Option.bind_eq_bind, Option.bind_some]
  obtain ⟨limit⟩ := s
  cases timeout <;> simp [Toml.asLimit?, Option.bind_eq_some_iff]

end Sections

/-- Settings are read from a table just if each of its values stands for what they have. -/
theorem Settings.ofToml?_eq_some_iff {value : Toml} {values : Setting → Toml}
    (h : value.Represents values) (s : Settings) :
    Settings.ofToml? value = some s ↔ ∀ setting : Setting, setting.Shows (values setting) s := by
  obtain ⟨database, hdatabase⟩ := h.sections .url
  obtain ⟨log, hlog⟩ := h.sections .logLevel
  obtain ⟨pages, hpages⟩ := h.sections .defaultLimit
  obtain ⟨decisions, hdecisions⟩ := h.sections .decisionTimeout
  have hdatabase' := DatabaseSettings.ofToml?_table (h.lookup .url hdatabase)
    (h.lookup .maxConnections hdatabase) (h.lookup .autoMigrate hdatabase)
    (h.lookup .busyTimeout hdatabase)
  have hlog' := LogSettings.ofToml?_table (h.lookup .logLevel hlog) (h.lookup .jsonLogs hlog)
  have hpages' := PageSettings.ofToml?_table (h.lookup .defaultLimit hpages)
  have hdecisions' := DecisionSettings.ofToml?_table (h.lookup .decisionTimeout hdecisions)
  simp only [Setting.sectionName] at hdatabase hlog hpages hdecisions
  unfold Settings.ofToml?
  simp only [hdatabase, hlog, hpages, hdecisions, Option.bind_eq_bind, Option.bind_some,
    Option.bind_eq_some_iff, Option.pure_def, Option.some.injEq]
  constructor
  · rintro ⟨_, h1, _, h2, _, h3, _, h4, rfl⟩
    obtain ⟨hurl, hmaxConnections, hautoMigrate, hbusyTimeout⟩ := (hdatabase' _).mp h1
    obtain ⟨hlevel, hjson⟩ := (hlog' _).mp h2
    intro setting
    cases setting with
    | url => exact hurl
    | maxConnections => exact hmaxConnections
    | autoMigrate => exact hautoMigrate
    | busyTimeout => exact hbusyTimeout
    | logLevel => exact hlevel
    | jsonLogs => exact hjson
    | defaultLimit => exact (hpages' _).mp h3
    | decisionTimeout => exact (hdecisions' _).mp h4
  · intro hall
    exact ⟨_, (hdatabase' _).mpr ⟨hall .url, hall .maxConnections, hall .autoMigrate,
      hall .busyTimeout⟩, _, (hlog' _).mpr ⟨hall .logLevel, hall .jsonLogs⟩,
      _, (hpages' _).mpr (hall .defaultLimit), _, (hdecisions' _).mpr (hall .decisionTimeout), rfl⟩

end Procurement

import Procurement.Proofs.SettingsFiles
import Procurement.Proofs.SettingsLayers

/-!
# Which value of a setting counts

Each setting has the value that the environment gives it, or else the value from the
settings file, or else the value by default; what gives way to another value does not
count, whatever it is. The settings hold just if all values that count stand for
something.
-/

namespace Procurement

/-! ## Values that count -/

/-- A table without entries, which gives nothing when it is laid over a value. -/
def Toml.isEmptyTable : Toml → Bool
  | table [] => true
  | _ => false

/-- What a value laid over another one stands for is what the value stands for, or the
other one if the value is an empty table. -/
theorem Setting.shows_over_iff (base value : Toml) (s : Settings) (setting : Setting) :
    setting.Shows (base.over value) s ↔
      setting.Shows (if value.isEmptyTable then base else value) s := by
  cases value with
  | table entries =>
    cases entries with
    | nil => exact Iff.rfl
    | cons entry entries =>
      have hover := not_shows_of_isTable (Toml.isTable_over_cons base entry entries) s setting
      have htable : ¬setting.Shows (.table (entry :: entries)) s :=
        not_shows_of_isTable rfl s setting
      exact ⟨fun h => absurd h hover, fun h => absurd h htable⟩
  | _ => exact Iff.rfl

/-- The value of a setting that counts: from the environment, else from the file unless it
is an empty table, else by default. -/
def winner (entries : Layer) (environment : Environment) (setting : Setting) : Toml :=
  ((environment.settingValue? setting).or
    ((entries.settingValue? setting).filter (!·.isEmptyTable))).getD (setting.valueIn {})

/-- What layers leave of a setting stands for what the value that counts stands for. -/
theorem shows_valuesOver_iff (entries : Layer) (environment : Environment) (setting : Setting)
    (s : Settings) :
    setting.Shows (environment.valuesOver (entries.valuesOver (Setting.valueIn {})) setting) s ↔
      setting.Shows (winner entries environment setting) s := by
  unfold Environment.valuesOver Layer.valuesOver winner
  cases environment.settingValue? setting with
  | some value => exact Iff.rfl
  | none =>
    cases entries.settingValue? setting with
    | none => exact Iff.rfl
    | some value =>
      dsimp only [Option.getD_none, Option.none_or]
      rw [Setting.shows_over_iff]
      rw [Option.filter_some]
      cases value.isEmptyTable <;> exact Iff.rfl

/-- Values that each stand for something stand for settings together. -/
theorem exists_shows {values : Setting → Toml}
    (h : ∀ setting : Setting, ∃ s, setting.Shows (values setting) s) :
    ∃ s, ∀ setting : Setting, setting.Shows (values setting) s := by
  obtain ⟨url, hurl⟩ := h .url
  obtain ⟨maxConnections, hmaxConnections⟩ := h .maxConnections
  obtain ⟨autoMigrate, hautoMigrate⟩ := h .autoMigrate
  obtain ⟨busyTimeout, hbusyTimeout⟩ := h .busyTimeout
  obtain ⟨level, hlevel⟩ := h .logLevel
  obtain ⟨json, hjson⟩ := h .jsonLogs
  obtain ⟨limit, hlimit⟩ := h .defaultLimit
  obtain ⟨timeout, htimeout⟩ := h .decisionTimeout
  let database : DatabaseSettings := ⟨url.database.url, maxConnections.database.maxConnections,
    autoMigrate.database.autoMigrate, busyTimeout.database.busyTimeout⟩
  refine ⟨⟨database, ⟨level.log.level, json.log.json⟩, limit.pages, timeout.decisions⟩,
    fun setting => ?_⟩
  cases setting with
  | url => exact hurl
  | maxConnections => exact hmaxConnections
  | autoMigrate => exact hautoMigrate
  | busyTimeout => exact hbusyTimeout
  | logLevel => exact hlevel
  | jsonLogs => exact hjson
  | defaultLimit => exact hlimit
  | decisionTimeout => exact htimeout

/-! ## Directories -/

/-- The text of a directory's settings file, if it has one, where nothing is in its way and no
other file is taken for it. -/
structure Files.Offers (files : Files) (text? : Option String) (formats : FileFormats) : Prop where
  text : files.text? Settings.defaultSteps = text?
  noFolder : files.hasFolder Settings.defaultSteps = false
  noBareName : files.hasBareName = false
  noneAhead : ∀ format ∈ formats.ahead, files.textIn? Settings.defaultName format = none

namespace Settings

/-- What a settings file gives, which is nothing if there is none. -/
def fileEntries? : Option String → Option Layer
  | some text => (Toml.read? text).map Toml.entries
  | none => some []

/-- A settings file gives its entries to the settings that hold in its directory. -/
theorem load_of_offers {files : Files} {text? : Option String} {formats : FileFormats}
    {entries : Layer} (hfiles : files.Offers text? formats)
    (hentries : fileEntries? text? = some entries) (environment : Environment) :
    load files environment formats = ofLayers [entries, environment.layer] := by
  cases text? with
  | none =>
    cases hentries
    have hfile : hasDefaultFile files = false := by
      rw [hasDefaultFile_eq, hfiles.text, hfiles.noFolder]
      rfl
    exact load_of_missing environment formats hfile
  | some text =>
    obtain ⟨value, hvalue, rfl⟩ := Option.map_eq_some_iff.mp hentries
    rw [load_of_text environment hfiles.noBareName hfiles.noneAhead hfiles.text, hvalue]

/-- Each setting comes from the environment, else from the settings file, else from the
defaults. There are settings just if all values that count stand for something; nothing
that gives way, and no unknown key, has an effect. -/
theorem load_takes_winners (files : Files) (text? : Option String) (entries : Layer)
    (environment : Environment) (formats : FileFormats) (hfiles : files.Offers text? formats)
    (hentries : fileEntries? text? = some entries) (hsections : entries.HasSections)
    (henvironment : environment.HasSettings) :
    (∀ s, load files environment formats = .ok s ↔
      ∀ setting : Setting, setting.Shows (winner entries environment setting) s) ∧
    ((∃ s, load files environment formats = .ok s) ↔
      ∀ setting : Setting, ∃ s, setting.Shows (winner entries environment setting) s) ∧
    ((¬∃ s, load files environment formats = .ok s) →
      load files environment formats = .error .unreadable) := by
  rw [load_of_offers hfiles hentries]
  obtain ⟨middle, hmiddle, hfirst⟩ := hsections.over? represents_toToml_default
  obtain ⟨next, hnext, hvalues⟩ := henvironment.over? hfirst
  have hover : List.foldlM Layer.over? ({} : Settings).toToml [entries, environment.layer] =
      some next := by
    simp [List.foldlM_cons, hmiddle, hnext]
  have hok (s : Settings) : ofLayers [entries, environment.layer] = .ok s ↔
      ∀ setting : Setting, setting.Shows (winner entries environment setting) s := by
    rw [ofLayers_eq_ok_iff hover hvalues]
    exact forall_congr' fun setting => shows_valuesOver_iff entries environment setting s
  refine ⟨hok, ⟨?_, ?_⟩, ?_⟩
  · rintro ⟨s, hs⟩ setting
    exact ⟨s, (hok s).mp hs setting⟩
  · intro hall
    obtain ⟨s, hs⟩ := exists_shows hall
    exact ⟨s, (hok s).mpr hs⟩
  · intro hno
    exact ofLayers_eq_error hover fun s hs => hno ⟨s, hs⟩

/-- A directory with nothing but a settings file offers its text. -/
theorem offers_directoryOf (text : String) : (directoryOf text []).Offers (some text) .toml where
  text := text?_directoryOf text
  noFolder := hasFolder_directoryOf text
  noBareName := by rw [Files.hasBareName, text?_directoryOf_defaultName, Option.isSome_none]
  noneAhead _ hformat := by cases hformat

/-- A settings file with a number of connections that is none. -/
def manyText : String := "[database]\nurl = \"sqlite://a.db\"\nmax_connections = \"many\"\n"

/-- The environment's number of connections counts, not the file's. -/
theorem load_takes_winners_many :
    load (directoryOf manyText []) [("TENDER_MARKET__DATABASE__MAX_CONNECTIONS", "4")] =
      .ok { database := { url := "sqlite://a.db", maxConnections := 4 } } := by
  let entries : Layer :=
    [("database", .table [("url", .string "sqlite://a.db"), ("max_connections", .string "many")])]
  have hentries : fileEntries? (some manyText) = some entries := by decide +kernel
  have hsections : entries.HasSections := by
    refine ⟨by decide, ?_, ?_⟩ <;> rintro entry hentry hsection
    · obtain rfl := List.mem_singleton.mp hentry
      exact ⟨_, rfl, by decide⟩
    · obtain rfl := List.mem_singleton.mp hentry
      exact absurd ⟨.url, by decide⟩ hsection
  have henvironment :
      Environment.HasSettings [("TENDER_MARKET__DATABASE__MAX_CONNECTIONS", "4")] := by
    refine ⟨fun entry hentry => ?_, by decide⟩
    obtain rfl := List.mem_singleton.mp hentry
    exact ⟨.maxConnections, by decide⟩
  refine ((load_takes_winners _ _ entries _ _ (offers_directoryOf manyText) hentries hsections
    henvironment).1 _).mpr fun setting => ?_
  cases setting <;> decide

/-- An empty table for a setting does not count although it stands for nothing, a key that
is a path sets what it leads to, and the place of an item before a list's start leaves a
directory without settings. -/
theorem load_beyond_winners :
    (fileEntries? (some "[database]\nurl = \x7b\x7d\n") =
        some [("database", .table [("url", .table [])])] ∧
      (∀ s, ¬Setting.url.Shows (.table []) s) ∧
      load (directoryOf "[database]\nurl = \x7b\x7d\n" []) [] = .ok {}) ∧
    (fileEntries? (some "\"pagination.default_limit\" = 1\n") =
        some [("pagination.default_limit", .integer 1)] ∧
      load (directoryOf "\"pagination.default_limit\" = 1\n" []) [] =
        .ok { pages := { defaultLimit := 1 } }) ∧
    (fileEntries? (some "\"x[-1]\" = 1\n") = some [("x[-1]", .integer 1)] ∧
      load (directoryOf "\"x[-1]\" = 1\n" []) [] = .error .misplaced) := by
  refine ⟨⟨?_, ?_, ?_⟩, ⟨?_, ?_⟩, ⟨?_, ?_⟩⟩
  · decide +kernel
  · exact fun s => Setting.not_shows_of_isTable rfl s .url
  · decide +kernel
  · decide +kernel
  · decide +kernel
  · decide +kernel
  · decide +kernel

end Settings

end Procurement

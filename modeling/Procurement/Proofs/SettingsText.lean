import Procurement.Proofs.SettingsFiles
import Procurement.Proofs.SettingsLayers
import Procurement.Proofs.TomlSections

/-!
# Saved settings are loaded again

Settings that have been saved to a settings file are in it as they were, all but one: a
limit of time that is not set has no line. As a file stands over the settings by default,
the default limit is there when the file is loaded.
-/

namespace Procurement

open Procurement.Settings Procurement.Toml Procurement.Text

/-! ## Lines of groups of settings -/

/-- A number that can be written fits into 64 bits with sign. -/
theorem toNat_le_of_le_greatestNumber {n : UInt64} (h : n ≤ greatestNumber) :
    n.toNat ≤ 9223372036854775807 :=
  UInt64.le_iff_toNat_le.mp h

namespace DatabaseSettings

/-- The lines of a settings file for the database. -/
def lines (s : DatabaseSettings) : List Line :=
  [⟨"url", writeText s.url [], .string s.url⟩,
    ⟨"max_connections", digits s.maxConnections.toNat, .integer s.maxConnections.toNat⟩,
    ⟨"auto_migrate", boolText s.autoMigrate, .boolean s.autoMigrate⟩,
    ⟨"busy_timeout_ms", digits s.busyTimeout.toNat, .integer s.busyTimeout.toNat⟩]

/-- The lines for the database are read as the values that they were written for. -/
theorem readsAs_lines {s : DatabaseSettings} (h : s.busyTimeout ≤ greatestNumber) :
    ∀ line ∈ s.lines, ReadsAs line.text line.value := by
  have hmaxConnections : s.maxConnections.toNat ≤ 9223372036854775807 := by
    have := s.maxConnections.toNat_lt
    omega
  simp only [lines, List.forall_mem_cons, List.not_mem_nil, false_imp_iff, implies_true, and_true]
  exact ⟨readsAs_writeText _, readsAs_digits hmaxConnections, readsAs_boolText _,
    readsAs_digits (toNat_le_of_le_greatestNumber h)⟩

end DatabaseSettings

namespace LogSettings

/-- The lines of a settings file for the log. -/
def lines (s : LogSettings) : List Line :=
  [⟨"log_level", writeText s.level [], .string s.level⟩,
    ⟨"json_logs", boolText s.json, .boolean s.json⟩]

/-- The lines for the log are read as the values that they were written for. -/
theorem readsAs_lines (s : LogSettings) : ∀ line ∈ s.lines, ReadsAs line.text line.value := by
  simp only [lines, List.forall_mem_cons, List.not_mem_nil, false_imp_iff, implies_true, and_true]
  exact ⟨readsAs_writeText _, readsAs_boolText _⟩

end LogSettings

namespace PageSettings

/-- The lines of a settings file for pages. -/
def lines (s : PageSettings) : List Line :=
  [⟨"default_limit", signedDigits s.defaultLimit.toInt, .integer s.defaultLimit.toInt⟩]

/-- The lines for pages are read as the values that they were written for. -/
theorem readsAs_lines (s : PageSettings) : ∀ line ∈ s.lines, ReadsAs line.text line.value := by
  have hleast : -9223372036854775808 ≤ s.defaultLimit.toInt := s.defaultLimit.le_toInt
  have hgreatest : s.defaultLimit.toInt ≤ 9223372036854775807 := by
    have := s.defaultLimit.toInt_lt
    omega
  exact List.forall_mem_singleton.mpr (readsAs_signedDigits hleast hgreatest)

end PageSettings

namespace DecisionSettings

/-- The lines of a settings file for decisions; a limit of time that is not set has none. -/
def lines (s : DecisionSettings) : List Line :=
  match s.timeout with
  | some timeout => [⟨"decision_timeout_ms", digits timeout.toNat, .integer timeout.toNat⟩]
  | none => []

/-- The lines for decisions are read as the values that they were written for. -/
theorem readsAs_lines {s : DecisionSettings} (h : s.timeout.all (· ≤ greatestNumber) = true) :
    ∀ line ∈ s.lines, ReadsAs line.text line.value := by
  unfold lines
  cases htimeout : s.timeout with
  | none => simp
  | some timeout =>
    have hfits : timeout ≤ greatestNumber := by simpa [htimeout] using h
    exact List.forall_mem_singleton.mpr (readsAs_digits (toNat_le_of_le_greatestNumber hfits))

end DecisionSettings

/-! ## Sections of a settings file -/

namespace Setting

/-- The keys of settings need no quotes. -/
theorem isBareKey_key (setting : Setting) : isBareKey setting.key = true := by
  cases setting <;> decide

/-- The names of sections need no quotes. -/
theorem isBareKey_sectionName (setting : Setting) : isBareKey setting.sectionName = true := by
  cases setting <;> decide

end Setting

namespace Settings

/-- The sections of a settings file with the values that they are read as. -/
def sections (s : Settings) : List Toml.Section :=
  [⟨"database", s.database.lines⟩, ⟨"observability", s.log.lines⟩, ⟨"pagination", s.pages.lines⟩,
    ⟨"workflow", s.decisions.lines⟩]

/-- What is written are the sections with their lines. -/
theorem sectionTexts_eq (s : Settings) : s.sectionTexts = s.sections.map Section.text := by
  unfold sectionTexts sections DecisionSettings.lines
  cases s.decisions.timeout <;> rfl

/-- Each section that is written is one of settings. -/
theorem exists_sectionName {s : Settings} {part : Toml.Section} (h : part ∈ s.sections) :
    ∃ setting : Setting, part.name = setting.sectionName := by
  simp only [sections, List.mem_cons, List.not_mem_nil, or_false] at h
  rcases h with rfl | rfl | rfl | rfl
  · exact ⟨.url, rfl⟩
  · exact ⟨.logLevel, rfl⟩
  · exact ⟨.defaultLimit, rfl⟩
  · exact ⟨.decisionTimeout, rfl⟩

/-- Each line that is written has the key of a setting. -/
theorem exists_key {s : Settings} {part : Toml.Section} (h : part ∈ s.sections) {line : Line}
    (hline : line ∈ part.lines) : ∃ setting : Setting, line.key = setting.key := by
  simp only [sections, List.mem_cons, List.not_mem_nil, or_false] at h
  rcases h with rfl | rfl | rfl | rfl
  · simp only [DatabaseSettings.lines, List.mem_cons, List.not_mem_nil, or_false] at hline
    rcases hline with rfl | rfl | rfl | rfl
    · exact ⟨.url, rfl⟩
    · exact ⟨.maxConnections, rfl⟩
    · exact ⟨.autoMigrate, rfl⟩
    · exact ⟨.busyTimeout, rfl⟩
  · simp only [LogSettings.lines, List.mem_cons, List.not_mem_nil, or_false] at hline
    rcases hline with rfl | rfl
    · exact ⟨.logLevel, rfl⟩
    · exact ⟨.jsonLogs, rfl⟩
  · exact ⟨.defaultLimit, List.mem_singleton.mp hline ▸ rfl⟩
  · refine ⟨.decisionTimeout, ?_⟩
    unfold DecisionSettings.lines at hline
    cases htimeout : s.decisions.timeout <;> simp_all [Setting.key]

/-- No key is written twice in a section. -/
theorem nodup_keys (s : Settings) : ∀ part ∈ s.sections, (part.lines.map Line.key).Nodup := by
  simp only [sections, List.forall_mem_cons, List.not_mem_nil, false_imp_iff, implies_true,
    and_true]
  refine ⟨by simp [DatabaseSettings.lines], by simp [LogSettings.lines],
    by simp [PageSettings.lines], ?_⟩
  unfold DecisionSettings.lines
  cases s.decisions.timeout <;> simp

/-- No section is written twice. -/
theorem nodup_names (s : Settings) : (s.sections.map Section.name).Nodup := by
  simp [sections]

/-- Sections whose numbers can be written are read as what they say. -/
theorem isSound_of_mem_sections {s : Settings} (hbusy : s.database.busyTimeout ≤ greatestNumber)
    (htimeout : s.decisions.timeout.all (· ≤ greatestNumber) = true) {part : Toml.Section}
    (h : part ∈ s.sections) : part.IsSound where
  name := by
    obtain ⟨setting, hname⟩ := exists_sectionName h
    exact hname ▸ setting.isBareKey_sectionName
  lines := by
    have hreads : ∀ part ∈ s.sections, ∀ line ∈ part.lines, ReadsAs line.text line.value := by
      simp only [sections, List.forall_mem_cons, List.not_mem_nil, false_imp_iff, implies_true,
        and_true]
      exact ⟨DatabaseSettings.readsAs_lines hbusy, s.log.readsAs_lines, s.pages.readsAs_lines,
        DecisionSettings.readsAs_lines htimeout⟩
    intro line hline
    obtain ⟨setting, hkey⟩ := exists_key h hline
    exact ⟨hkey ▸ setting.isBareKey_key, hreads part h line hline⟩
  distinct := s.nodup_keys part h

/-- The layer of settings in a settings file. -/
def savedLayer (s : Settings) : Layer := s.sections.map Section.entry

/-- The text of a settings file is read as its layer. -/
theorem read?_of_text? {s : Settings} {text : String} (h : s.text? = some text) :
    Toml.read? text = some (.table s.savedLayer) := by
  unfold text? at h
  split_ifs at h with hnumbers
  rw [← Option.some.inj h, sectionTexts_eq]
  exact read?_sections (fun _ => isSound_of_mem_sections hnumbers.1 hnumbers.2) s.nodup_names
    (List.cons_ne_nil _ _)

/-! ## Settings of a settings file -/

/-- The names of sections that are written are in lower case. -/
theorem lower_of_mem_savedLayer {s : Settings} :
    ∀ entry ∈ s.savedLayer, lower entry.1 = entry.1 := by
  intro entry hentry
  obtain ⟨part, hpart, rfl⟩ := List.mem_map.mp hentry
  obtain ⟨setting, hname⟩ := exists_sectionName hpart
  rw [Section.entry, hname]
  exact setting.lower_sectionName

/-- The keys that are written are in lower case. -/
theorem lower_of_mem_lines {s : Settings} {part : Toml.Section} (h : part ∈ s.sections) :
    ∀ entry ∈ part.lines.map Line.entry, lower entry.1 = entry.1 := by
  intro entry hentry
  obtain ⟨line, hline, rfl⟩ := List.mem_map.mp hentry
  obtain ⟨setting, hkey⟩ := exists_key h hline
  rw [Line.entry, hkey]
  exact setting.lower_key

/-- What is written can be laid over settings, section by section. -/
theorem hasSections_savedLayer (s : Settings) : s.savedLayer.HasSections where
  distinct := by
    refine distinctKeys_of_nodup lower_of_mem_savedLayer ?_
    rw [savedLayer, List.map_map]
    exact s.nodup_names
  sections := by
    intro entry hentry _
    obtain ⟨part, hpart, rfl⟩ := List.mem_map.mp hentry
    refine ⟨_, rfl, distinctKeys_of_nodup (lower_of_mem_lines hpart) ?_⟩
    rw [List.map_map]
    exact s.nodup_keys part hpart
  others := by
    intro entry hentry hsection
    obtain ⟨part, hpart, rfl⟩ := List.mem_map.mp hentry
    obtain ⟨setting, hname⟩ := exists_sectionName hpart
    rw [lower_of_mem_savedLayer _ hentry] at hsection
    exact absurd ⟨setting, hname.symm⟩ hsection

/-- The section of a settings file that a setting is in. -/
def sectionOf (s : Settings) : Setting → Toml.Section
  | .url | .maxConnections | .autoMigrate | .busyTimeout => ⟨"database", s.database.lines⟩
  | .logLevel | .jsonLogs => ⟨"observability", s.log.lines⟩
  | .defaultLimit => ⟨"pagination", s.pages.lines⟩
  | .decisionTimeout => ⟨"workflow", s.decisions.lines⟩

/-- The section of a setting is written. -/
theorem sectionOf_mem (s : Settings) (setting : Setting) : s.sectionOf setting ∈ s.sections := by
  cases setting <;> simp [sectionOf, sections]

/-- The value of a setting is the one in the line with its key. -/
theorem settingValue?_savedLayer (s : Settings) (setting : Setting) :
    s.savedLayer.settingValue? setting =
      ((s.sectionOf setting).lines.map Line.entry).lookup setting.key := by
  have hsection : s.savedLayer.lookup setting.sectionName = some (s.sectionOf setting).entry.2 := by
    cases setting <;> rfl
  unfold Layer.settingValue?
  rw [valueOf?_eq_lookup lower_of_mem_savedLayer, hsection, Option.bind_some]
  exact valueOf?_eq_lookup (lower_of_mem_lines (s.sectionOf_mem setting)) _

/-- The settings that are loaded after others were saved: a limit of time that was not set is
the one by default. -/
def reloaded (s : Settings) : Settings :=
  { s with decisions := { timeout := some (s.decisions.timeout.getD 10000) } }

/-- A saved file lays all settings over those by default, but no limit of time that is not
set. -/
theorem valuesOver_savedLayer (s : Settings) :
    s.savedLayer.valuesOver (Setting.valueIn {}) = Setting.valueIn s.reloaded := by
  funext setting
  unfold Layer.valuesOver
  rw [settingValue?_savedLayer]
  cases setting with
  | decisionTimeout =>
    unfold sectionOf DecisionSettings.lines reloaded
    cases s.decisions.timeout <;> rfl
  | _ => rfl

/-- Saved settings are loaded from their file, over the limit of time by default. -/
theorem ofFile_of_save? {s : Settings} {files saved : Files} {path : String}
    (hsave : s.save? files path = some saved) (hending : fileEnding? path = some "toml")
    (formats : FileFormats) : ofFile saved path formats = .ok s.reloaded := by
  obtain ⟨text, htext, hwrite⟩ := Option.bind_eq_some_iff.mp hsave
  have hfile : saved.settingsFile? path formats = some (.toml, text) := by
    unfold Files.settingsFile?
    rw [Files.read?_of_write? hwrite, hending]
    dsimp only
    rw [Option.bind_eq_bind, Option.bind_some, formats.ofEnding?_toml]
    rfl
  have hread : FileFormat.toml.read? text = _ := read?_of_text? htext
  have hlayer : fileLayer saved path formats = .ok s.savedLayer := by
    unfold fileLayer
    rw [hfile, Option.bind_some]
    dsimp only
    rw [hread]
    rfl
  obtain ⟨next, hnext, hvalues⟩ := s.hasSections_savedLayer.over? represents_toToml_default
  have hover : List.foldlM Layer.over? ({} : Settings).toToml [s.savedLayer] = some next := by
    simp [List.foldlM_cons, hnext]
  rw [valuesOver_savedLayer] at hvalues
  unfold ofFile
  rw [hlayer]
  exact (ofLayers_eq_ok_iff hover hvalues _).mpr (Setting.shows_valueIn s.reloaded)

/-- Settings are loaded as they were just if they have a limit of time. -/
theorem reloaded_eq_self_iff (s : Settings) :
    s.reloaded = s ↔ s.decisions.timeout.isSome = true := by
  obtain ⟨database, log, pages, timeout⟩ := s
  cases timeout with
  | mk timeout => cases timeout <;> simp [reloaded]

/-- Settings that have been saved to a settings file are loaded from it, each as it was, but
for a limit of time that was not set: in its place is the limit by default. So all settings
are loaded as they were just if there is a limit. -/
theorem saved_settings_are_loaded (s : Settings) (files saved : Files) (path : String)
    (formats : FileFormats) (hsave : s.save? files path = some saved)
    (hending : fileEnding? path = some "toml") :
    ofFile saved path formats =
      .ok { s with decisions := { timeout := some (s.decisions.timeout.getD 10000) } } ∧
    (ofFile saved path formats = .ok s ↔ s.decisions.timeout.isSome = true) := by
  have hload := ofFile_of_save? hsave hending formats
  refine ⟨hload, ?_⟩
  rw [hload, Except.ok.injEq, reloaded_eq_self_iff]

/-- Settings whose numbers fit are saved to a file with a plain name in an empty directory. -/
theorem exists_save?_name (s : Settings) (name : String) (hname : IsStep name ∧ name ≠ "..")
    (hbusy : s.database.busyTimeout ≤ greatestNumber)
    (htimeout : s.decisions.timeout.all (· ≤ greatestNumber) = true) :
    ∃ saved, s.save? {} name = some saved := by
  have hfolder : Files.hasFolder {} [name] = false := by
    simp [Files.hasFolder, hname.1.1]
  refine Option.isSome_iff_exists.mp ?_
  unfold save? text?
  rw [if_pos ⟨hbusy, htimeout⟩, Option.bind_some]
  exact Files.isSome_write?_name hname.1 hname.2 hfolder _

/-- Settings with quotes in the name of their database. -/
def quotedSettings : Settings :=
  { database := { url := "sqlite://\"a\".db" }, pages := { defaultLimit := -25 } }

/-- Quotes, a number below zero and a limit of time are loaded as they were saved. -/
theorem saved_settings_are_loaded_quoted :
    ∃ saved, quotedSettings.save? {} "market.toml" = some saved ∧
      ofFile saved "market.toml" = .ok quotedSettings := by
  obtain ⟨saved, hsave⟩ :=
    exists_save?_name quotedSettings "market.toml" (by decide) (by decide) (by decide)
  exact ⟨saved, hsave, (saved_settings_are_loaded _ {} saved _ .toml hsave (by decide)).2.mpr rfl⟩

/-- Settings without a limit of time. -/
def unlimitedSettings : Settings := { decisions := { timeout := none } }

/-- Settings without a limit of time have one after they were saved and loaded. -/
theorem unset_limit_is_not_saved :
    ∃ saved, unlimitedSettings.save? {} "market.toml" = some saved ∧
      ofFile saved "market.toml" = .ok {} ∧ ofFile saved "market.toml" ≠ .ok unlimitedSettings := by
  obtain ⟨saved, hsave⟩ :=
    exists_save?_name unlimitedSettings "market.toml" (by decide) (by decide) (by decide)
  have hload : ofFile saved "market.toml" = .ok unlimitedSettings.reloaded :=
    ofFile_of_save? hsave (by decide) .toml
  refine ⟨saved, hsave, hload, ?_⟩
  rw [hload, ne_eq, Except.ok.injEq, reloaded_eq_self_iff]
  decide

end Settings

end Procurement

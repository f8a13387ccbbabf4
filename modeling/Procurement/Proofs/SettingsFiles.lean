import Procurement.Proofs.Files
import Procurement.Settings.File
import Mathlib.Data.List.Nodup

/-!
# The settings file of a directory

What holds in a directory and an environment depends on the directory's settings file and
on the environment. Two kinds of other files alone can disturb it: a file with the very name
of the settings file, but without its ending, is taken for the settings file and refused;
and a file with that name and the ending of another format is taken for it if this format
is looked for first.
-/

namespace Procurement

/-! ## Formats -/

namespace FileFormats

variable (formats : FileFormats)

/-- The formats whose files are looked for before the one that settings are written in. -/
def ahead : List FileFormat := formats.all.takeWhile fun format => format.ending ≠ "toml"

/-- Formats are told apart by their endings. -/
theorem eq_of_ending_eq {one other : FileFormat} (hone : one ∈ formats.all)
    (hother : other ∈ formats.all) (h : one.ending = other.ending) : one = other :=
  List.inj_on_of_nodup_map formats.distinct hone hother h

/-- The ending of a known format leads to it. -/
theorem ofEnding?_ending {format : FileFormat} (h : format ∈ formats.all) :
    formats.ofEnding? format.ending = some format := by
  have hsome : (formats.ofEnding? format.ending).isSome = true :=
    List.find?_isSome.mpr ⟨format, h, by simp⟩
  obtain ⟨other, hother⟩ := Option.isSome_iff_exists.mp hsome
  have hending : other.ending = format.ending := by simpa using List.find?_some hother
  rw [hother, formats.eq_of_ending_eq (List.mem_of_find?_eq_some hother) h hending]

/-- What is written can be read by its ending. -/
theorem ofEnding?_toml : formats.ofEnding? "toml" = some .toml :=
  formats.ofEnding?_ending formats.toml_mem

/-- The format that settings are written in comes right behind those that are ahead of it. -/
theorem exists_all_eq : ∃ behind, formats.all = formats.ahead ++ .toml :: behind := by
  obtain ⟨front, behind, hall⟩ := List.append_of_mem formats.toml_mem
  have hdistinct := formats.distinct
  rw [hall, List.map_append, List.nodup_append] at hdistinct
  have hfront : ∀ format ∈ front, decide (format.ending ≠ "toml") = true := fun format hformat =>
    decide_eq_true
      (hdistinct.2.2 _ (List.mem_map_of_mem hformat) "toml" List.mem_cons_self)
  have hahead : formats.ahead = front := by
    unfold ahead
    rw [hall, List.takeWhile_append_of_pos hfront, List.takeWhile_cons_of_neg (by decide),
      List.append_nil]
  exact ⟨behind, hahead ▸ hall⟩

end FileFormats

/-! ## The name of the settings file -/

namespace Settings

/-- The steps to the settings file of a directory. -/
def defaultSteps : List String := [defaultName ++ ".toml"]

/-- The bare name leads to the file that has it. -/
theorem read?_defaultName (files : Files) :
    files.read? defaultName = files.text? [defaultName] :=
  files.read?_name (by decide) (by decide)

/-- The settings file has its name for its path. -/
theorem pathSteps_defaultFile : pathSteps "tender-market.toml" = defaultSteps :=
  IsStep.pathSteps (by decide)

/-- With the ending of its format behind it, the bare name is that of the settings file. -/
theorem withEnding?_defaultName : withEnding? "toml" defaultName = some "tender-market.toml" := by
  have hparts : partsOfPath defaultName = [defaultName] := IsStep.partsOfPath (by decide)
  unfold withEnding?
  rw [hparts]
  decide

/-- In its own format the bare name leads to the settings file. -/
theorem textIn?_defaultName (files : Files) :
    files.textIn? defaultName .toml = files.text? defaultSteps := by
  unfold Files.textIn? FileFormat.toml
  rw [withEnding?_defaultName]
  exact files.read?_name (by decide) (by decide)

/-- A file with the bare name is in the way of all files with an ending; without it, the
first of these counts. -/
theorem settingsFile?_defaultName (files : Files) (formats : FileFormats) :
    files.settingsFile? defaultName formats =
      match files.text? [defaultName] with
      | some _ => none
      | none => formats.all.findSome? fun format =>
          (files.textIn? defaultName format).map (format, ·) := by
  have hending : fileEnding? defaultName = none := by decide
  unfold Files.settingsFile?
  rw [read?_defaultName, hending]
  rfl

section Load

variable {files : Files} (environment : Environment) (formats : FileFormats)

/-- Without a settings file the environment alone counts. -/
theorem load_of_missing (h : hasDefaultFile files = false) :
    load files environment formats = ofLayers [environment.layer] := by
  unfold load
  rw [h]
  rfl

/-- With something in the place of the settings file, the file that is found counts, if it
can be read. -/
theorem load_of_hasDefaultFile (h : hasDefaultFile files = true) :
    load files environment formats =
      match (files.settingsFile? defaultName formats).bind fun (format, text) =>
        format.read? text with
      | some value => ofLayers [value.entries, environment.layer]
      | none => .error .unreadable := by
  unfold load fileLayer
  rw [h, if_pos rfl]
  cases (files.settingsFile? defaultName formats).bind fun (format, text) =>
    format.read? text <;> rfl

end Load

end Settings

/-! ## Other files -/

namespace Files

open Settings

/-- The same is in the place of the settings file of two directories. -/
structure SameSettingsFile (files other : Files) : Prop where
  text : files.text? defaultSteps = other.text? defaultSteps
  folder : files.hasFolder defaultSteps = other.hasFolder defaultSteps

/-- Whether a directory has a file with the name of the settings file but without its ending. -/
def hasBareName (files : Files) : Bool := (files.text? [defaultName]).isSome

/-- The files that may be taken for the settings file are the same in two directories: that
with the bare name, and those of formats that are looked for before a settings file is
found. -/
structure SameRivals (files other : Files) (formats : FileFormats) : Prop where
  bareName : files.hasBareName = other.hasBareName
  ahead : ∀ format ∈ formats.ahead,
    files.textIn? defaultName format = other.textIn? defaultName format
  instead : files.text? defaultSteps = none → ∀ format ∈ formats.all,
    files.textIn? defaultName format = other.textIn? defaultName format

variable {files other : Files} (h : files.SameSettingsFile other)

include h

/-- Where only the settings' own format is known, no file but that with the bare name can be
taken for the settings file. -/
theorem SameSettingsFile.sameRivals_toml (hbare : files.hasBareName = other.hasBareName) :
    files.SameRivals other .toml where
  bareName := hbare
  ahead _ hformat := by cases hformat
  instead _ format hformat := by
    obtain rfl := List.mem_singleton.mp hformat
    rw [textIn?_defaultName, textIn?_defaultName, h.text]

/-- Of two directories with the same rivals of the same settings file the same file is found
first. -/
theorem SameRivals.findSome?_eq {formats : FileFormats} (hrivals : files.SameRivals other formats) :
    (formats.all.findSome? fun format => (files.textIn? defaultName format).map (format, ·)) =
      formats.all.findSome? fun format =>
        (other.textIn? defaultName format).map (format, ·) := by
  have hsame {some : List FileFormat} (htexts : ∀ format ∈ some,
      files.textIn? defaultName format = other.textIn? defaultName format) :
      (some.findSome? fun format => (files.textIn? defaultName format).map (format, ·)) =
        some.findSome? fun format => (other.textIn? defaultName format).map (format, ·) := by
    rw [← List.head?_filterMap, ← List.head?_filterMap,
      List.filterMap_congr fun format hformat => by rw [htexts format hformat]]
  cases htext : files.text? defaultSteps with
  | none => exact hsame (hrivals.instead htext)
  | some text =>
    obtain ⟨behind, hall⟩ := formats.exists_all_eq
    rw [hall, List.findSome?_append, List.findSome?_append, hsame hrivals.ahead,
      List.findSome?_cons, List.findSome?_cons, textIn?_defaultName, textIn?_defaultName, ← h.text,
      htext]
    rfl

end Files

namespace Settings

/-- Something is in the place of the settings file if there is the file or a folder. -/
theorem hasDefaultFile_eq (files : Files) :
    hasDefaultFile files =
      ((files.text? defaultSteps).isSome || files.hasFolder defaultSteps) :=
  rfl

/-- With the same in their place, two directories have both a settings file or none. -/
theorem hasDefaultFile_congr {files other : Files} (h : files.SameSettingsFile other) :
    hasDefaultFile files = hasDefaultFile other := by
  rw [hasDefaultFile_eq, hasDefaultFile_eq, h.text, h.folder]

/-- The same file is found for the settings file of two directories with the same rivals. -/
theorem settingsFile?_congr {files other : Files} {formats : FileFormats}
    (h : files.SameSettingsFile other) (hrivals : files.SameRivals other formats) :
    files.settingsFile? defaultName formats = other.settingsFile? defaultName formats := by
  have hbare := hrivals.bareName
  have hfound := hrivals.findSome?_eq h
  unfold Files.hasBareName at hbare
  rw [settingsFile?_defaultName, settingsFile?_defaultName]
  cases hfiles : files.text? [defaultName] <;> cases hother : other.text? [defaultName] <;>
    simp [hfiles, hother, hfound] at hbare ⊢

/-- A file with the bare name is taken for the settings file, and refused. -/
theorem load_of_hasBareName {files : Files} (environment : Environment) (formats : FileFormats)
    (hfile : hasDefaultFile files = true) (hbare : files.hasBareName = true) :
    load files environment formats = .error .unreadable := by
  obtain ⟨text, htext⟩ := Option.isSome_iff_exists.mp hbare
  rw [load_of_hasDefaultFile environment formats hfile, settingsFile?_defaultName, htext]
  rfl

/-- Whatever other files there are, the same settings hold in two directories with the same
settings file, or in none of them: if there is no settings file, or if the files that may be
taken for it are the same. A file with its name but without its ending leaves a directory
without settings. -/
theorem load_ignores_other_files (files other : Files) (environment : Environment)
    (formats : FileFormats) (h : files.SameSettingsFile other) :
    (hasDefaultFile files = false ∨ files.SameRivals other formats →
      load files environment formats = load other environment formats) ∧
    (hasDefaultFile files = true → files.hasBareName = true →
      load files environment formats = .error .unreadable) := by
  have hdefault := hasDefaultFile_congr h
  constructor
  · intro hcase
    cases hfile : hasDefaultFile files with
    | false =>
      rw [load_of_missing environment formats hfile,
        load_of_missing environment formats (hdefault ▸ hfile)]
    | true =>
      have hrivals : files.SameRivals other formats := by
        rcases hcase with hmissing | hrivals
        · exact absurd (hfile.symm.trans hmissing) (by decide)
        · exact hrivals
      rw [load_of_hasDefaultFile environment formats hfile,
        load_of_hasDefaultFile environment formats (hdefault ▸ hfile),
        settingsFile?_congr h hrivals]
  · exact load_of_hasBareName environment formats

section First

variable {files : Files} (environment : Environment) {formats : FileFormats}
  (hbare : files.hasBareName = false)

include hbare

/-- Without a file with the bare name, the file of the first format that has one is taken for
the settings file, whichever format this is. -/
theorem load_of_first (hfile : hasDefaultFile files = true) {front behind : List FileFormat}
    {format : FileFormat} (hall : formats.all = front ++ format :: behind)
    (hfront : ∀ other ∈ front, files.textIn? defaultName other = none) {text : String}
    (htext : files.textIn? defaultName format = some text) :
    load files environment formats =
      match format.read? text with
      | some value => ofLayers [value.entries, environment.layer]
      | none => .error .unreadable := by
  have hnone : files.text? [defaultName] = none := by simpa [Files.hasBareName] using hbare
  have hbefore : (front.findSome? fun other =>
      (files.textIn? defaultName other).map (other, ·)) = none :=
    List.findSome?_eq_none_iff.mpr fun other hother => by rw [hfront other hother, Option.map_none]
  rw [load_of_hasDefaultFile environment formats hfile, settingsFile?_defaultName, hnone, hall]
  dsimp only
  rw [List.findSome?_append, hbefore, Option.none_or, List.findSome?_cons, htext]
  rfl

/-- Without files that may be taken for it, the settings file counts. -/
theorem load_of_text
    (hahead : ∀ format ∈ formats.ahead, files.textIn? defaultName format = none) {text : String}
    (htext : files.text? defaultSteps = some text) :
    load files environment formats =
      match Toml.read? text with
      | some value => ofLayers [value.entries, environment.layer]
      | none => .error .unreadable := by
  have hfile : hasDefaultFile files = true := by
    rw [hasDefaultFile_eq, htext]
    rfl
  obtain ⟨behind, hall⟩ := formats.exists_all_eq
  exact load_of_first environment hbare hfile hall hahead ((textIn?_defaultName files).trans htext)

end First

/-- A directory with a settings file and other files. -/
def directoryOf (text : String) (others : List (String × String)) : Files :=
  { texts := ("tender-market.toml", text) :: others }

/-- The bare name is not that of the settings file. -/
theorem defaultSteps_ne : defaultSteps ≠ [defaultName] := by decide

section DirectoryOf

variable (text : String)

/-- The settings file has the text that it was given. -/
theorem text?_directoryOf : (directoryOf text []).text? defaultSteps = some text := by
  simp [directoryOf, Files.text?, pathSteps_defaultFile]

/-- There is no folder in the place of the settings file. -/
theorem hasFolder_directoryOf : (directoryOf text []).hasFolder defaultSteps = false := by
  simp [directoryOf, Files.hasFolder, pathSteps_defaultFile, defaultSteps]

/-- There is no file with the bare name beside a lone settings file. -/
theorem text?_directoryOf_defaultName : (directoryOf text []).text? [defaultName] = none := by
  simp [directoryOf, Files.text?, pathSteps_defaultFile, defaultSteps_ne]

variable {name : String} (hname : IsStep name) (other : String)

include hname

/-- A file with another name than the settings file does not take its place. -/
theorem sameSettingsFile_directoryOf (hother : [name] ≠ defaultSteps) :
    (directoryOf text []).SameSettingsFile (directoryOf text [(name, other)]) := by
  have hsteps := hname.pathSteps
  have hfolder : defaultSteps.isPrefixOf [name] = false := by
    have hne : defaultName ++ ".toml" ≠ name := fun heq => hother (by rw [← heq, defaultSteps])
    rw [defaultSteps, List.isPrefixOf_cons_cons, beq_false_of_ne hne, Bool.false_and]
  constructor
  · simp [directoryOf, Files.text?, pathSteps_defaultFile, hsteps, hother]
  · simp [directoryOf, Files.hasFolder, pathSteps_defaultFile, hsteps, hfolder]

/-- A file beside the settings file has the text that it was given. -/
theorem text?_directoryOf_name : (directoryOf text [(name, other)]).text? [name] = some other := by
  have hsteps := hname.pathSteps
  unfold directoryOf Files.text?
  rw [List.filter_cons]
  split <;> simp [hsteps]

/-- A file with another name beside the settings file does not have the bare name. -/
theorem text?_directoryOf_defaultName_of_ne (hne : name ≠ defaultName) :
    (directoryOf text [(name, other)]).text? [defaultName] = none := by
  have hsteps := hname.pathSteps
  simp [directoryOf, Files.text?, pathSteps_defaultFile, hsteps, defaultSteps_ne, hne]

end DirectoryOf

/-- A settings file that sets the limit of pages. -/
def pagesText : String := "[pagination]\ndefault_limit = 5\n"

/-- Alone in its directory it does so. -/
theorem load_directoryOf_pagesText :
    load (directoryOf pagesText []) [] = .ok { pages := { defaultLimit := 5 } } := by
  decide +kernel

/-- Other files without the name of the settings file change nothing. -/
theorem load_ignores_other_files_notes :
    Files.SameSettingsFile (directoryOf pagesText [])
      (directoryOf pagesText [("notes.txt", "to do")]) ∧
    load (directoryOf pagesText []) [] = load (directoryOf pagesText [("notes.txt", "to do")]) [] ∧
    load (directoryOf pagesText []) [] = .ok { pages := { defaultLimit := 5 } } := by
  have hname : IsStep "notes.txt" := by decide
  have h := sameSettingsFile_directoryOf pagesText hname "to do" (by decide)
  have hbare : (directoryOf pagesText []).hasBareName =
      (directoryOf pagesText [("notes.txt", "to do")]).hasBareName := by
    unfold Files.hasBareName
    rw [text?_directoryOf_defaultName,
      text?_directoryOf_defaultName_of_ne pagesText hname "to do" (by decide)]
  exact ⟨h, (load_ignores_other_files _ _ [] .toml h).1 (.inr (h.sameRivals_toml hbare)),
    load_directoryOf_pagesText⟩

/-- A file with the name of the settings file but without its ending hides the settings. -/
theorem bare_name_hides_settings_file :
    Files.SameSettingsFile (directoryOf pagesText [])
      (directoryOf pagesText [("tender-market", "")]) ∧
    load (directoryOf pagesText []) [] = .ok { pages := { defaultLimit := 5 } } ∧
    load (directoryOf pagesText [("tender-market", "")]) [] = .error .unreadable := by
  have hname : IsStep defaultName := by decide
  have h := sameSettingsFile_directoryOf pagesText hname "" defaultSteps_ne.symm
  have hdefault : hasDefaultFile (directoryOf pagesText [(defaultName, "")]) = true := by
    rw [hasDefaultFile_eq, ← h.text, text?_directoryOf]
    rfl
  have hbare : (directoryOf pagesText [(defaultName, "")]).hasBareName = true := by
    rw [Files.hasBareName, text?_directoryOf_name pagesText hname "", Option.isSome_some]
  exact ⟨h, load_directoryOf_pagesText, load_of_hasBareName [] .toml hdefault hbare⟩

end Settings

end Procurement

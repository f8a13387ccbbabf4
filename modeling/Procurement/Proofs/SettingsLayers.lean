import Procurement.Proofs.SettingsTables
import Procurement.Settings.Environment
import Mathlib.Data.List.Nodup

/-!
# Settings in layers

A layer that is laid over a table of settings changes the values that it gives and no
others: the sections of a file are laid entry by entry, the variables of an environment
one by one.
-/

namespace Procurement

open Procurement.Text

/-! ## Laying entries over a table -/

/-- The value that entries give to a key, whatever the case of its letters. -/
def valueOf? (entries : List (String × Toml)) (key : String) : Option Toml :=
  (entries.find? fun entry => lower entry.1 == key).map Prod.snd

/-- The first entry of a key gives its value. -/
theorem valueOf?_cons (entry : String × Toml) (entries : List (String × Toml)) (key : String) :
    valueOf? (entry :: entries) key =
      if lower entry.1 = key then some entry.2 else valueOf? entries key := by
  unfold valueOf?
  by_cases h : lower entry.1 = key <;> simp [h]

/-- No two keys of entries are equal up to the case of their letters. -/
def DistinctKeys (entries : List (String × Toml)) : Prop :=
  (entries.map fun entry => lower entry.1).Nodup

instance (entries : List (String × Toml)) : Decidable (DistinctKeys entries) :=
  inferInstanceAs (Decidable (List.Nodup _))

/-- Entries give no value to a key that they do not have. -/
theorem valueOf?_eq_none {entries : List (String × Toml)} {key : String}
    (h : key ∉ entries.map fun entry => lower entry.1) : valueOf? entries key = none := by
  unfold valueOf?
  rw [Option.map_eq_none_iff, List.find?_eq_none]
  intro entry hentry heq
  exact h (List.mem_map.mpr ⟨entry, hentry, beq_iff_eq.mp heq⟩)

section LowerCase

variable {entries : List (String × Toml)} (h : ∀ entry ∈ entries, lower entry.1 = entry.1)

include h

/-- Where all keys are in lower case, a value is looked up as it is. -/
theorem valueOf?_eq_lookup (key : String) : valueOf? entries key = entries.lookup key := by
  induction entries with
  | nil => rfl
  | cons entry entries ih =>
    rw [valueOf?_cons, h entry List.mem_cons_self,
      ih fun other hother => h other (List.mem_cons_of_mem entry hother), List.lookup_cons]
    by_cases hkey : entry.1 = key
    · simp [hkey]
    · have hne : (key == entry.1) = false := by simpa using Ne.symm hkey
      rw [if_neg hkey, hne]

/-- Different keys in lower case are different up to case. -/
theorem distinctKeys_of_nodup (hkeys : (entries.map Prod.fst).Nodup) : DistinctKeys entries := by
  unfold DistinctKeys
  rwa [List.map_congr_left h]

end LowerCase

/-- A table with one more entry has its value under its key, and the others under theirs. -/
theorem Toml.get?_table_putEntry (key other : String) (value : Toml)
    (entries : List (String × Toml)) :
    (Toml.table (putEntry key value entries)).get? other =
      if other = key then some value else entries.lookup other := by
  by_cases h : other = key
  · rw [if_pos h, h]
    exact lookup_putEntry_self key value entries
  · rw [if_neg h]
    exact lookup_putEntry_of_ne value entries h

/-- Entries change just the values of the keys that they have. -/
theorem get?_overEntries (base : Toml) {entries : List (String × Toml)}
    (h : DistinctKeys entries) (key : String) :
    (overEntries base entries).get? key =
      match valueOf? entries key with
      | some value => some (Toml.over ((base.get? key).getD (.table [])) value)
      | none => base.get? key := by
  induction entries generalizing base with
  | nil => simp [overEntries, valueOf?]
  | cons entry entries ih =>
    obtain ⟨name, value⟩ := entry
    obtain ⟨hnew, hrest⟩ := List.nodup_cons.mp h
    rw [overEntries, ih _ hrest, valueOf?_cons, Toml.get?_table_putEntry]
    by_cases hname : lower name = key
    · subst hname
      rw [valueOf?_eq_none hnew, if_pos rfl, if_pos rfl]
    · rw [if_neg hname, if_neg (Ne.symm hname)]
      rfl

/-- Entries laid over a table make a table. -/
theorem exists_overEntries_table (old entries : List (String × Toml)) :
    ∃ new, overEntries (.table old) entries = .table new := by
  induction entries generalizing old with
  | nil => exact ⟨old, rfl⟩
  | cons entry entries ih => exact ih _

/-- A value that is no table replaces what it is laid over. -/
def Toml.isTable : Toml → Bool
  | table _ => true
  | _ => false

/-- A value that is no table takes the place of what it is laid over. -/
theorem Toml.over_of_not_isTable {value : Toml} (h : value.isTable = false) (base : Toml) :
    base.over value = value := by
  cases value with
  | table entries => cases h
  | _ => rfl

/-- Nothing but a table comes of a table with entries. -/
theorem Toml.isTable_over_cons (base : Toml) (entry : String × Toml)
    (entries : List (String × Toml)) : (base.over (.table (entry :: entries))).isTable = true := by
  obtain ⟨new, hnew⟩ := exists_overEntries_table
    (putEntry (lower entry.1) (Toml.over ((base.get? (lower entry.1)).getD (.table [])) entry.2)
      base.entries) entries
  rw [Toml.over, overEntries, hnew]
  rfl

/-- A table stands for no value of a setting. -/
theorem Setting.not_shows_of_isTable {value : Toml} (h : value.isTable = true) (s : Settings)
    (setting : Setting) : ¬setting.Shows value s := by
  cases value with
  | table entries => cases setting <;> exact fun hshows => nomatch hshows
  | _ => cases h

/-! ## Keys that are paths -/

/-- A path goes on with a point or a bracket only. -/
theorem readPathParts?_eq_none {c : Char} (hpoint : c ≠ '.') (hbracket : c ≠ '[') (fuel : Nat)
    (rest : List Char) : readPathParts? fuel (c :: rest) = none := by
  cases fuel with
  | zero => rfl
  | succ fuel =>
    rw [readPathParts?] <;> simp [hpoint, hbracket]

/-- Without points and brackets a key is no path of several parts. -/
theorem pathParts_of_notMem {key : String} (hpoint : '.' ∉ key.toList)
    (hbracket : '[' ∉ key.toList) : pathParts key = [.key key] := by
  unfold pathParts
  dsimp only
  cases hrest : key.toList.drop (key.toList.takeWhile isNameChar).length with
  | nil =>
    have hname : key.toList.takeWhile isNameChar = key.toList := by
      refine (List.takeWhile_prefix _).eq_of_length_le ?_
      exact List.drop_eq_nil_iff.mp hrest
    rw [hname, String.ofList_toList]
    split
    · rename_i hparts
      rw [readPathParts?] at hparts
      cases hparts
      rfl
    · rfl
  | cons c rest =>
    have hc : c ∈ key.toList := List.mem_of_mem_drop (hrest ▸ List.mem_cons_self)
    rw [readPathParts?_eq_none (ne_of_mem_of_not_mem hc hpoint) (ne_of_mem_of_not_mem hc hbracket)]
    split
    · rename_i hparts
      cases hparts
    · rfl

/-- Whether a name is that of a section. -/
def IsSection (name : String) : Prop := ∃ setting : Setting, setting.sectionName = name

/-- The name of a section is no path, whatever the case of its letters. -/
theorem pathParts_of_isSection {key : String} (h : IsSection (lower key)) :
    pathParts key = [.key key] := by
  have hchars (c : Char) (hlower : lowerChar c = c) (hc : c ∈ key.toList) :
      c ∈ (lower key).toList := by
    unfold lower
    rw [String.toList_ofList, ← hlower]
    exact List.mem_map_of_mem hc
  have hsection (c : Char) (hall : ∀ setting : Setting, c ∉ setting.sectionName.toList) :
      c ∉ (lower key).toList := by
    obtain ⟨setting, hsetting⟩ := h
    exact hsetting ▸ hall setting
  refine pathParts_of_notMem ?_ ?_
  · intro hpoint
    refine hsection '.' (fun setting => ?_) (hchars '.' rfl hpoint)
    cases setting <;> decide
  · intro hbracket
    refine hsection '[' (fun setting => ?_) (hchars '[' rfl hbracket)
    cases setting <;> decide

/-- Whether a part of a path is a name, or the place of an item that a list can get, counted
from the list's start. -/
def PathPart.IsPlain : PathPart → Prop
  | key _ => True
  | item place => 0 ≤ place ∧ place < longestList

/-- A path that starts with a name which is not that of a section, and can be followed whatever
is there. -/
def LeadsAside (path : List PathPart) : Prop :=
  ∃ (name : String) (parts : List PathPart),
    path = .key name :: parts ∧ ¬IsSection (lower name) ∧ ∀ part ∈ parts, part.IsPlain

/-- A value can be laid where a path leads that goes before no list's start. -/
theorem isSome_overAt? {path : List PathPart} (h : ∀ part ∈ path, part.IsPlain)
    (base value : Toml) : (base.overAt? path value).isSome = true := by
  induction path generalizing base with
  | nil => rfl
  | cons part path ih =>
    have hrest (inner : Toml) : (inner.overAt? path value).isSome = true :=
      ih (fun other hother => h other (List.mem_cons_of_mem part hother)) inner
    cases part with
    | key name =>
      cases path with
      | nil => rfl
      | cons second path =>
        obtain ⟨inner, hinner⟩ := Option.isSome_iff_exists.mp
          (hrest ((base.get? (lower name)).getD .missing))
        rw [Toml.overAt?, hinner]
        · rfl
        · simp
    | item place =>
      obtain ⟨hstart, hend⟩ := h (.item place) List.mem_cons_self
      obtain ⟨inner, hinner⟩ := Option.isSome_iff_exists.mp
        (hrest (base.items.getD place.toNat .missing))
      have hindex : indexOfPlace? base.items.length place = some place.toNat := by
        unfold indexOfPlace?
        rw [if_pos hstart]
        exact if_pos ⟨hstart, hend⟩
      rw [Toml.overAt?, hindex, Option.bind_eq_bind, Option.bind_some, hinner]
      rfl

/-- A value can be laid where a path leads aside, and the sections stay. -/
theorem LeadsAside.overAt? {path : List PathPart} (h : LeadsAside path) (base value : Toml) :
    ∃ next, base.overAt? path value = some next ∧
      ∀ name, IsSection name → next.get? name = base.get? name := by
  obtain ⟨first, parts, rfl, hfirst, hparts⟩ := h
  have hput (inner : Toml) (name : String) (hname : IsSection name) :
      (Toml.table (putEntry (lower first) inner base.entries)).get? name = base.get? name := by
    have hne : name ≠ lower first := fun heq => hfirst (heq ▸ hname)
    rw [Toml.get?_table_putEntry, if_neg hne]
    rfl
  cases parts with
  | nil => exact ⟨_, rfl, hput _⟩
  | cons part parts =>
    obtain ⟨inner, hinner⟩ := Option.isSome_iff_exists.mp
      (isSome_overAt? hparts ((base.get? (lower first)).getD .missing) value)
    refine ⟨.table (putEntry (lower first) inner base.entries), ?_, hput inner⟩
    rw [Toml.overAt?, hinner]
    · rfl
    · simp

/-! ## Layers with sections -/

namespace Layer

/-- The value that a layer of sections gives to a setting. -/
def settingValue? (layer : Layer) (setting : Setting) : Option Toml :=
  (valueOf? layer setting.sectionName).bind fun table => valueOf? table.entries setting.key

/-- A layer in which each section is a table, no two keys of the layer or of a section are equal
up to case, and each other key leads aside. -/
structure HasSections (layer : Layer) : Prop where
  distinct : DistinctKeys layer
  sections : ∀ entry ∈ layer, IsSection (lower entry.1) →
    ∃ entries, entry.2 = .table entries ∧ DistinctKeys entries
  others : ∀ entry ∈ layer, ¬IsSection (lower entry.1) → LeadsAside (pathParts entry.1)

/-- A layer of sections without its first entry is a layer of sections. -/
theorem HasSections.tail {entry : String × Toml} {layer : List (String × Toml)}
    (h : HasSections (entry :: layer)) : HasSections layer where
  distinct := (List.nodup_cons.mp h.distinct).2
  sections := fun other hother => h.sections other (List.mem_cons_of_mem entry hother)
  others := fun other hother => h.others other (List.mem_cons_of_mem entry hother)

/-- The first entry of a layer is laid before the others. -/
theorem over?_cons (base : Toml) (entry : String × Toml) (layer : List (String × Toml)) :
    Layer.over? base (entry :: layer) =
      (base.overAt? (pathParts entry.1) entry.2).bind fun next => Layer.over? next layer :=
  rfl

/-- The values of settings when a section is laid over them. -/
def valuesOverSection (name : String) (entries : List (String × Toml)) (values : Setting → Toml)
    (setting : Setting) : Toml :=
  if name = setting.sectionName then
    match valueOf? entries setting.key with
    | some value => (values setting).over value
    | none => values setting
  else values setting

/-- The values of settings when a layer of sections is laid over them. -/
def valuesOver (layer : Layer) (values : Setting → Toml) (setting : Setting) : Toml :=
  match layer.settingValue? setting with
  | some value => (values setting).over value
  | none => values setting

end Layer

namespace Toml.Represents

variable {base : Toml} {values : Setting → Toml} (h : base.Represents values)

include h

/-- What does not touch the sections leaves the values of settings. -/
theorem congr_sections {next : Toml}
    (hnext : ∀ setting : Setting, next.get? setting.sectionName = base.get? setting.sectionName) :
    next.Represents values where
  sections := fun setting => hnext setting ▸ h.sections setting
  values := fun setting => by
    unfold Toml.at?
    rw [hnext setting]
    exact h.values setting

/-- A section laid over a table changes the settings that are in it. -/
theorem over_section {name : String} {entries : List (String × Toml)}
    (hname : IsSection (lower name)) (hentries : DistinctKeys entries) :
    (overEntries base [(name, .table entries)]).Represents
      (Layer.valuesOverSection (lower name) entries values) := by
  obtain ⟨first, hfirst⟩ := hname
  obtain ⟨old, hold⟩ := h.sections first
  obtain ⟨new, hnew⟩ := exists_overEntries_table old entries
  have hget (other : String) : (overEntries base [(name, .table entries)]).get? other =
      if other = lower name then some (.table new) else base.get? other := by
    rw [overEntries, overEntries, Toml.get?_table_putEntry, ← hfirst, hold, Option.getD_some,
      Toml.over, hnew]
    rfl
  constructor
  · intro setting
    rw [hget]
    split
    · exact ⟨new, rfl⟩
    · exact h.sections setting
  · intro setting
    unfold Toml.at? Layer.valuesOverSection
    rw [hget]
    by_cases hsame : lower name = setting.sectionName
    · have hvalue : (Toml.table old).get? setting.key = some (values setting) :=
        h.lookup setting (hsame ▸ hfirst ▸ hold)
      rw [if_pos hsame.symm, if_pos hsame, Option.bind_some, ← hnew, get?_overEntries _ hentries,
        hvalue]
      cases valueOf? entries setting.key <;> rfl
    · rw [if_neg (Ne.symm hsame), if_neg hsame]
      exact h.values setting

end Toml.Represents

namespace Layer

/-- A layer of sections can be laid over each table of settings, and changes the values that
it gives. -/
theorem HasSections.over? {layer : Layer} (hlayer : layer.HasSections) {base : Toml}
    {values : Setting → Toml} (h : base.Represents values) :
    ∃ next, layer.over? base = some next ∧ next.Represents (layer.valuesOver values) := by
  induction layer generalizing base values with
  | nil => exact ⟨base, rfl, h⟩
  | cons entry layer ih =>
    obtain ⟨key, value⟩ := entry
    obtain ⟨hnew, _⟩ := List.nodup_cons.mp hlayer.distinct
    by_cases hkey : IsSection (lower key)
    · obtain ⟨entries, hvalue, hentries⟩ := hlayer.sections _ List.mem_cons_self hkey
      obtain rfl : value = .table entries := hvalue
      obtain ⟨next, hnext, hvalues⟩ := ih hlayer.tail (h.over_section hkey hentries)
      have hover : Layer.valuesOver ((key, .table entries) :: layer) values =
          Layer.valuesOver layer (valuesOverSection (lower key) entries values) := by
        funext setting
        unfold valuesOver settingValue? valuesOverSection
        rw [valueOf?_cons]
        by_cases hsame : lower key = setting.sectionName
        · rw [if_pos hsame, if_pos hsame, ← hsame, valueOf?_eq_none hnew]
          rfl
        · rw [if_neg hsame, if_neg hsame]
      refine ⟨next, ?_, hover ▸ hvalues⟩
      rw [over?_cons, pathParts_of_isSection hkey]
      exact hnext
    · have haside : LeadsAside (pathParts key) := hlayer.others _ List.mem_cons_self hkey
      obtain ⟨step, hstep, hget⟩ := haside.overAt? base value
      have hsections : step.Represents values := h.congr_sections fun setting =>
        hget _ ⟨setting, rfl⟩
      obtain ⟨next, hnext, hvalues⟩ := ih hlayer.tail hsections
      have hover : Layer.valuesOver ((key, value) :: layer) values =
          Layer.valuesOver layer values := by
        funext setting
        unfold valuesOver settingValue?
        rw [valueOf?_cons, if_neg fun hsame => hkey ⟨setting, hsame.symm⟩]
      refine ⟨next, ?_, hover ▸ hvalues⟩
      rw [over?_cons, hstep]
      exact hnext

end Layer

/-! ## Layers of variables -/

namespace Setting

/-- Settings are told apart by their keys. -/
theorem key_injective {one other : Setting} (h : one.key = other.key) : one = other := by
  cases one <;> cases other <;> first | rfl | exact absurd h (by decide)

/-- The names of sections are in lower case. -/
theorem lower_sectionName (setting : Setting) :
    lower setting.sectionName = setting.sectionName := by
  cases setting <;> decide

/-- The keys of settings are in lower case. -/
theorem lower_key (setting : Setting) : lower setting.key = setting.key := by
  cases setting <;> decide

/-- The path that leads to a setting. -/
def path (setting : Setting) : String := setting.sectionName ++ "." ++ setting.key

/-- The path of a setting leads into its section and to its key. -/
theorem pathParts_path (setting : Setting) :
    pathParts setting.path = [.key setting.sectionName, .key setting.key] := by
  cases setting <;> decide

/-- Settings are told apart by the names of their variables. -/
theorem variableName_injective {one other : Setting} (h : one.variableName = other.variableName) :
    one = other := by
  cases one <;> cases other <;> first | rfl | exact absurd h (by decide)

/-- A variable whose name is that of a setting gives its value to it. -/
theorem settingOfVariable?_eq {name : String} {setting : Setting}
    (h : lower name = setting.variableName) : settingOfVariable? name = some setting.path := by
  unfold settingOfVariable?
  rw [h]
  cases setting <;> decide

end Setting

/-- A value laid where a setting is changes this setting alone. -/
theorem Toml.Represents.over_value {base : Toml} {values : Setting → Toml}
    (h : base.Represents values) (setting : Setting) {value : Toml}
    (hvalue : value.isTable = false) :
    ∃ next, base.overAt? (pathParts setting.path) value = some next ∧
      next.Represents fun other => if other = setting then value else values other := by
  obtain ⟨old, hold⟩ := h.sections setting
  have hinner : overEntries (.table old) [(setting.key, value)] =
      .table (putEntry setting.key value old) := by
    rw [overEntries, overEntries, setting.lower_key, Toml.over_of_not_isTable hvalue]
    rfl
  refine ⟨.table (putEntry setting.sectionName (.table (putEntry setting.key value old))
    base.entries), ?_, ?_, ?_⟩
  · rw [setting.pathParts_path, Toml.overAt?, setting.lower_sectionName, hold, Option.getD_some,
      Toml.overAt?, hinner]
    · rfl
    · simp
  · intro other
    rw [Toml.get?_table_putEntry]
    split
    · exact ⟨_, rfl⟩
    · exact h.sections other
  · intro other
    unfold Toml.at?
    rw [Toml.get?_table_putEntry]
    by_cases hsection : other.sectionName = setting.sectionName
    · rw [if_pos hsection, Option.bind_some, Toml.get?_table_putEntry]
      by_cases hkey : other.key = setting.key
      · rw [if_pos hkey, if_pos (Setting.key_injective hkey)]
      · rw [if_neg hkey, if_neg fun heq => hkey (congrArg Setting.key heq)]
        exact h.lookup other (hsection ▸ hold)
    · rw [if_neg hsection, if_neg fun heq => hsection (congrArg Setting.sectionName heq)]
      exact h.values other

/-- A variable gives no table. -/
theorem isTable_valueOfVariable (text : String) : (valueOfVariable text).isTable = false := by
  unfold valueOfVariable
  dsimp only
  split <;> rfl

namespace Environment

/-- The value that an environment gives to a setting. -/
def settingValue? (environment : Environment) (setting : Setting) : Option Toml :=
  (environment.find? fun entry => lower entry.1 == setting.variableName).map fun entry =>
    valueOfVariable entry.2

/-- An environment whose variables are settings, each at most once up to case. -/
structure HasSettings (environment : Environment) : Prop where
  known : ∀ entry ∈ environment, ∃ setting : Setting, lower entry.1 = setting.variableName
  distinct : (environment.map fun entry => lower entry.1).Nodup

/-- The values of settings when an environment is laid over them. -/
def valuesOver (environment : Environment) (values : Setting → Toml) (setting : Setting) : Toml :=
  (environment.settingValue? setting).getD (values setting)

/-- The first variable for a setting gives its value. -/
theorem settingValue?_cons (entry : String × String) (environment : List (String × String))
    (setting : Setting) :
    settingValue? (entry :: environment) setting =
      if lower entry.1 = setting.variableName then some (valueOfVariable entry.2)
      else settingValue? environment setting := by
  unfold settingValue?
  by_cases h : lower entry.1 = setting.variableName <;> simp [h]

/-- Without a variable for a setting an environment gives no value to it. -/
theorem settingValue?_eq_none {environment : Environment} {setting : Setting}
    (h : setting.variableName ∉ environment.map fun entry => lower entry.1) :
    environment.settingValue? setting = none := by
  unfold settingValue?
  rw [Option.map_eq_none_iff, List.find?_eq_none]
  intro entry hentry heq
  exact h (List.mem_map.mpr ⟨entry, hentry, beq_iff_eq.mp heq⟩)

/-- An environment of settings can be laid over each table of settings, and changes the
values that it gives. -/
theorem HasSettings.over? {environment : Environment} (henvironment : environment.HasSettings)
    {base : Toml} {values : Setting → Toml} (h : base.Represents values) :
    ∃ next, environment.layer.over? base = some next ∧
      next.Represents (environment.valuesOver values) := by
  induction environment generalizing base values with
  | nil => exact ⟨base, rfl, h⟩
  | cons entry environment ih =>
    obtain ⟨setting, hsetting⟩ := henvironment.known entry List.mem_cons_self
    obtain ⟨hnew, hdistinct⟩ := List.nodup_cons.mp henvironment.distinct
    have htail : HasSettings environment :=
      ⟨fun other hother => henvironment.known other (List.mem_cons_of_mem entry hother), hdistinct⟩
    obtain ⟨step, hstep, hsteps⟩ := h.over_value setting (isTable_valueOfVariable entry.2)
    obtain ⟨next, hnext, hvalues⟩ := ih htail hsteps
    have hlayer : Environment.layer (entry :: environment) =
        (setting.path, valueOfVariable entry.2) :: Environment.layer environment :=
      List.filterMap_cons_some (congrArg (Option.map fun path => (path, valueOfVariable entry.2))
        (Setting.settingOfVariable?_eq hsetting))
    have hover : valuesOver (entry :: environment) values =
        valuesOver environment fun other =>
          if other = setting then valueOfVariable entry.2 else values other := by
      funext other
      unfold valuesOver
      rw [settingValue?_cons]
      by_cases hother : other = setting
      · subst hother
        rw [if_pos hsetting, settingValue?_eq_none (hsetting ▸ hnew), Option.getD_some,
          Option.getD_none]
        exact (if_pos rfl).symm
      · have hvariable : lower entry.1 ≠ other.variableName := fun heq =>
          hother (Setting.variableName_injective (heq.symm.trans hsetting))
        simp only [if_neg hvariable, if_neg hother]
    refine ⟨next, ?_, hover ▸ hvalues⟩
    rw [hlayer, Layer.over?_cons, hstep]
    exact hnext

end Environment

/-! ## All layers -/

/-- The settings by default make a table that has all of them. -/
theorem represents_toToml_default :
    ({} : Settings).toToml.Represents (Setting.valueIn {}) := by
  constructor
  · intro setting
    cases setting <;> exact ⟨_, rfl⟩
  · intro setting
    cases setting <;> rfl

section Layers

variable {layers : List Layer} {next : Toml}
  (hover : layers.foldlM Layer.over? ({} : Settings).toToml = some next)

include hover

/-- Settings come of layers just if all values that are there in the end stand for what
they have. -/
theorem Settings.ofLayers_eq_ok_iff {values : Setting → Toml} (h : next.Represents values)
    (s : Settings) :
    Settings.ofLayers layers = .ok s ↔ ∀ setting : Setting, setting.Shows (values setting) s := by
  rw [← Settings.ofToml?_eq_some_iff h]
  unfold Settings.ofLayers
  dsimp only
  rw [hover]
  dsimp only
  cases Settings.ofToml? next with
  | some settings => simp [pure, Except.pure]
  | none => simp [throw, throwThe, MonadExceptOf.throw]

/-- Layers that can be laid make settings or cannot be understood. -/
theorem Settings.ofLayers_eq_error (hno : ∀ s, Settings.ofLayers layers ≠ .ok s) :
    Settings.ofLayers layers = .error .unreadable := by
  unfold Settings.ofLayers at *
  dsimp only at *
  rw [hover] at hno ⊢
  dsimp only at *
  cases hsettings : Settings.ofToml? next with
  | some settings => exact absurd (by rw [hsettings]; rfl) (hno settings)
  | none => rfl

end Layers

end Procurement

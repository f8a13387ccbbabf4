import Procurement.Proofs.TomlText

/-!
# Sections of settings files are read back

A file of sections, each a header with lines of keys and values below it, is read as the
table of these sections, if no section or key comes twice. The reader meets one line after
the other and has the lines before it in the document under construction.
-/

namespace Procurement.Toml

open Procurement.Settings Procurement.Text

/-! ## Keys -/

/-- Whether a name can stand as a key without quotes. -/
def isBareKey (name : String) : Bool := !name.toList.isEmpty && name.toList.all isKeyChar

section Keys

variable {name : String} (hname : isBareKey name = true)

include hname

/-- A bare key is made of characters of keys. -/
theorem isKeyChar_of_isBareKey {c : Char} (h : c ∈ name.toList) : isKeyChar c = true := by
  unfold isBareKey at hname
  exact List.all_eq_true.mp (Bool.and_eq_true_iff.mp hname).2 c h

/-- A bare key starts with a character of keys. -/
theorem exists_of_isBareKey :
    ∃ c chars, name.toList = c :: chars ∧ isKeyChar c = true := by
  have hne : name.toList ≠ [] := by
    intro hnil
    simp [isBareKey, hnil] at hname
  obtain ⟨c, chars, hchars⟩ := List.exists_cons_of_ne_nil hne
  exact ⟨c, chars, hchars, isKeyChar_of_isBareKey hname (hchars ▸ List.mem_cons_self)⟩

/-- There is no gap in front of a bare key. -/
theorem skipGap_bareKey (rest : List Char) :
    skipGap (name.toList ++ rest) = name.toList ++ rest := by
  obtain ⟨c, chars, hchars, hc⟩ := exists_of_isBareKey hname
  rw [hchars]
  refine List.dropWhile_cons_of_neg ?_
  have hspace : c ≠ ' ' := by
    rintro rfl
    cases hc
  have htab : c ≠ '\t' := by
    rintro rfl
    cases hc
  simp [hspace, htab]

/-- A bare key is read up to what does not belong to keys. -/
theorem readKeyPart?_bareKey {rest : List Char} (hrest : rest.head?.any isKeyChar = false) :
    readKeyPart? (name.toList ++ rest) = some (name, rest) := by
  obtain ⟨c, chars, hchars, hc⟩ := exists_of_isBareKey hname
  have hnone : rest.takeWhile isKeyChar = [] := by
    cases rest with
    | nil => rfl
    | cons d rest =>
      have hd : isKeyChar d = false := hrest
      simp [hd]
  have htaken : (name.toList ++ rest).takeWhile isKeyChar = name.toList := by
    rw [List.takeWhile_append_of_pos fun _ => isKeyChar_of_isBareKey hname, hnone,
      List.append_nil]
  have hfirst {d : Char} (hd : isKeyChar d = false) (tail : List Char) :
      name.toList ++ rest ≠ d :: tail := by
    intro heq
    rw [hchars] at heq
    obtain rfl : c = d := (List.cons.inj heq).1
    exact absurd (hc.symm.trans hd) (by decide)
  unfold readKeyPart?
  split
  · rename_i heq
    exact absurd heq (hfirst rfl _)
  · rename_i heq
    exact absurd heq (hfirst rfl _)
  · rename_i heq
    exact absurd heq (hfirst rfl _)
  · rename_i heq
    exact absurd heq (hfirst rfl _)
  · rw [htaken]
    split
    · rename_i hnil
      exact absurd (hchars.symm.trans hnil) (List.cons_ne_nil c chars)
    · rw [List.drop_left, String.ofList_toList]

/-- A name that stands as a key is read up to what follows it, if that is no point. -/
theorem readKey?_bareKey {rest tail : List Char} {c : Char}
    (hrest : rest.head?.any isKeyChar = false) (htail : skipGap rest = c :: tail) (hc : c ≠ '.') :
    readKey? (name.toList ++ rest) = some ([name], c :: tail) := by
  unfold readKey? greatestDepth
  rw [readKeyParts?, skipGap_bareKey hname, readKeyPart?_bareKey hname hrest]
  rw [Option.bind_eq_bind, Option.bind_some]
  dsimp only
  rw [htail]
  split
  · rename_i heq
    exact absurd (List.cons.inj heq).1 hc
  · rfl

end Keys

/-! ## Documents under construction -/

section Documents

variable {α : Type} {entries : List (String × α)} {key : String}

/-- A key that has no entry has no value. -/
theorem lookup_eq_none (h : key ∉ entries.map Prod.fst) : entries.lookup key = none := by
  rw [List.lookup_eq_none_iff]
  intro entry hentry
  have hne : key ≠ entry.1 := fun heq => h (heq ▸ List.mem_map_of_mem hentry)
  simpa using hne

/-- A new entry is found under its key. -/
theorem lookup_append_self (h : key ∉ entries.map Prod.fst) (value : α) :
    (entries ++ [(key, value)]).lookup key = some value := by
  rw [List.lookup_append, lookup_eq_none h]
  simp

/-- The last entry is replaced where it stands. -/
theorem putEntry_append_self (h : key ∉ entries.map Prod.fst) (old value : α) :
    putEntry key value (entries ++ [(key, old)]) = entries ++ [(key, value)] := by
  induction entries with
  | nil => simp [putEntry]
  | cons entry entries ih =>
    obtain ⟨name, other⟩ := entry
    rw [List.map_cons, List.mem_cons, not_or] at h
    rw [List.cons_append, putEntry, if_neg (Ne.symm h.1), ih h.2, List.cons_append]

end Documents

/-- The header of a new table puts it behind all others. -/
theorem openTable?_new {root : Nodes} {name : String} (h : name ∉ root.map Prod.fst) :
    openTable? [] name root = some (root ++ [(name, .table .header [])]) := by
  unfold openTable?
  rw [changeAt, lookup_eq_none h]

/-- A new key gets its value in the last table. -/
theorem addUnder?_last {root entries : Nodes} {name key : String} (hname : name ∉ root.map Prod.fst)
    (hkey : key ∉ entries.map Prod.fst) (value : Toml) :
    addUnder? [name] [] key value (root ++ [(name, .table .header entries)]) =
      some (root ++ [(name, .table .header (entries ++ [(key, .value value)]))]) := by
  have hadd : addValue? [] key value .header entries = some (entries ++ [(key, .value value)]) := by
    unfold addValue?
    rw [changeAt, lookup_eq_none hkey]
    rfl
  unfold addUnder?
  rw [changeAt, lookup_append_self hname]
  simp [changeAt, hadd, putEntry_append_self hname]

/-! ## Lines -/

/-- The reader goes on with a text under a header and comes to an end with a document. -/
def ReadsTo (header : List String) (root : Nodes) (text : List Char) (result : Nodes) : Prop :=
  ∀ fuel, text.length < fuel → readLinesOf? fuel header root text = some result

/-- At the end of a text the document is what it is. -/
theorem readsTo_nil (header : List String) (root : Nodes) : ReadsTo header root [] root := by
  intro fuel hfuel
  obtain ⟨fuel, rfl⟩ := Nat.exists_eq_add_of_lt hfuel
  rfl

section Lines

variable {path : List String} {root result : Nodes} {rest : List Char}

/-- A line ends where the next one starts. -/
theorem skipLineEnd?_newline (rest : List Char) : skipLineEnd? ('\n' :: rest) = some rest := rfl

/-- A blank line is skipped. -/
theorem ReadsTo.blank (h : ReadsTo path root rest result) :
    ReadsTo path root ('\n' :: rest) result := by
  intro fuel hfuel
  obtain ⟨fuel, rfl⟩ : ∃ k, fuel = k + 1 := ⟨fuel - 1, by simp at hfuel; omega⟩
  have hgap : skipGap ('\n' :: rest) = '\n' :: rest := rfl
  rw [readLinesOf?, hgap]
  exact h fuel (by simpa using hfuel)

/-- A header opens a table. -/
theorem ReadsTo.header {name : String} (hname : isBareKey name = true)
    (hnew : name ∉ root.map Prod.fst)
    (h : ReadsTo [name] (root ++ [(name, .table .header [])]) rest result) :
    ReadsTo path root ('[' :: name.toList ++ [']', '\n'] ++ rest) result := by
  intro fuel hfuel
  obtain ⟨fuel, rfl⟩ : ∃ k, fuel = k + 1 := ⟨fuel - 1, by simp at hfuel; omega⟩
  have hkey : readHeader? [']'] (name.toList ++ ']' :: '\n' :: rest) =
      some ([name], '\n' :: rest) := by
    unfold readHeader?
    rw [readKey?_bareKey hname rfl rfl (by decide)]
    rfl
  have hgap : skipGap ('[' :: name.toList ++ [']', '\n'] ++ rest) =
      '[' :: (name.toList ++ ']' :: '\n' :: rest) := by
    rw [List.append_assoc]
    rfl
  obtain ⟨c, chars, hchars, hc⟩ := exists_of_isBareKey hname
  have hbracket : c ≠ '[' := by
    rintro rfl
    cases hc
  rw [readLinesOf?, hgap]
  split
  · rename_i heq
    cases heq
  · rename_i heq
    rw [hchars] at heq
    exact absurd (List.cons.inj (List.cons.inj heq).2).1 hbracket
  · rename_i heq
    rw [← (List.cons.inj heq).2, hkey]
    simp only [Option.bind_eq_bind, Option.bind_some, List.getLast?_singleton,
      List.dropLast_singleton, openTable?_new hnew, skipLineEnd?_newline]
    exact h fuel (by simp at hfuel; omega)
  · rename_i hother heq
    exact (hother (List.cons.inj heq).1.symm).elim

/-- A line with a key and a value adds the value to the table of the last header. -/
theorem ReadsTo.line {key name : String} {text : List Char} {value : Toml} {entries : Nodes}
    (hkey : isBareKey key = true) (hvalue : ReadsAs text value)
    (hname : name ∉ root.map Prod.fst) (hnew : key ∉ entries.map Prod.fst)
    (h : ReadsTo [name]
      (root ++ [(name, .table .header (entries ++ [(key, .value value)]))]) rest result) :
    ReadsTo [name] (root ++ [(name, .table .header entries)]) (lineText key text ++ rest)
      result := by
  intro fuel hfuel
  obtain ⟨fuel, rfl⟩ : ∃ k, fuel = k + 1 := ⟨fuel - 1, by simp [lineText] at hfuel; omega⟩
  obtain ⟨c, chars, hchars, hc⟩ := exists_of_isBareKey hkey
  have hfirst {d : Char} (hd : isKeyChar d = false) : c ≠ d := by
    rintro rfl
    exact absurd (hc.symm.trans hd) (by decide)
  have htext : lineText key text ++ rest =
      key.toList ++ ' ' :: '=' :: ' ' :: (text ++ '\n' :: rest) := by
    simp [lineText]
  have hread : readKey? (key.toList ++ ' ' :: '=' :: ' ' :: (text ++ '\n' :: rest)) =
      some ([key], '=' :: ' ' :: (text ++ '\n' :: rest)) :=
    readKey?_bareKey hkey rfl rfl (by decide)
  have hgap (tail : List Char) : skipGap (' ' :: tail) = skipGap tail := rfl
  rw [readLinesOf?, htext, skipGap_bareKey hkey]
  rw [hchars, List.cons_append] at hread ⊢
  split
  · rename_i heq
    cases heq
  · rename_i heq
    exact absurd (List.cons.inj heq).1 (hfirst rfl)
  · rename_i heq
    exact absurd (List.cons.inj heq).1 (hfirst rfl)
  · rename_i heq
    obtain ⟨rfl, rfl⟩ := List.cons.inj heq
    rw [if_neg (by simp [hfirst (d := '#') rfl, hfirst (d := '\n') rfl, hfirst (d := '\r') rfl]),
      hread]
    simp only [hgap, hvalue.read, Option.bind_eq_bind, Option.bind_some, List.getLast?_singleton,
      List.dropLast_singleton, addUnder?_last hname hnew, skipLineEnd?_newline]
    exact h fuel (by simp [lineText] at hfuel; omega)

end Lines

/-! ## Sections -/

/-- A line: a key, the text of its value, and the value. -/
structure Line where
  key : String
  text : List Char
  value : Toml

/-- A line that is read as the value of its key. -/
structure Line.IsSound (line : Line) : Prop where
  key : isBareKey line.key = true
  value : ReadsAs line.text line.value

namespace Line

/-- The line in a document under construction. -/
def node (line : Line) : String × Node := (line.key, .value line.value)

/-- The line in a table. -/
def entry (line : Line) : String × Toml := (line.key, line.value)

end Line

/-- A section: its name and its lines. -/
structure Section where
  name : String
  lines : List Line

/-- A section that is read as the table of its lines. -/
structure Section.IsSound (part : Section) : Prop where
  name : isBareKey part.name = true
  lines : ∀ line ∈ part.lines, line.IsSound
  distinct : (part.lines.map Line.key).Nodup

namespace Section

/-- The text of the header and of the lines below it. -/
def text (part : Section) : List Char :=
  sectionText part.name (part.lines.map fun line => lineText line.key line.text)

/-- The section in a document under construction. -/
def node (part : Section) : String × Node :=
  (part.name, .table .header (part.lines.map Line.node))

/-- The section in a table. -/
def entry (part : Section) : String × Toml := (part.name, .table (part.lines.map Line.entry))

end Section

/-- The lines of a section are read one after the other into the table of its header. -/
theorem ReadsTo.lines {name : String} {root entries result : Nodes} {lines : List Line}
    {rest : List Char} (hlines : ∀ line ∈ lines, line.IsSound) (hname : name ∉ root.map Prod.fst)
    (hdistinct : (entries.map Prod.fst ++ lines.map Line.key).Nodup)
    (h : ReadsTo [name] (root ++ [(name, .table .header (entries ++ lines.map Line.node))]) rest
      result) :
    ReadsTo [name] (root ++ [(name, .table .header entries)])
      ((lines.map fun line => lineText line.key line.text).flatten ++ rest) result := by
  induction lines generalizing entries with
  | nil => simpa using h
  | cons line lines ih =>
    obtain ⟨hkey, hvalue⟩ := hlines line List.mem_cons_self
    have hnew : line.key ∉ entries.map Prod.fst := fun hmem =>
      (List.nodup_append.mp hdistinct).2.2 _ hmem _ List.mem_cons_self rfl
    rw [List.map_cons, List.flatten_cons, List.append_assoc]
    refine ReadsTo.line hkey hvalue hname hnew
      (ih (fun other hother => hlines other (List.mem_cons_of_mem line hother)) ?_ ?_)
    · simpa using hdistinct
    · simpa [Line.node] using h

/-- A section is read with all its lines. -/
theorem ReadsTo.section {path : List String} {root result : Nodes} {part : Section}
    {rest : List Char} (hpart : part.IsSound) (hnew : part.name ∉ root.map Prod.fst)
    (h : ReadsTo [part.name] (root ++ [part.node]) rest result) :
    ReadsTo path root (part.text ++ rest) result := by
  unfold Section.text sectionText
  rw [List.append_assoc]
  refine ReadsTo.header hpart.name hnew (ReadsTo.lines hpart.lines hnew ?_ h)
  simpa using hpart.distinct

/-- Sections with blank lines between them are read one after the other. -/
theorem readsTo_sections {parts : List Section} (hparts : ∀ part ∈ parts, part.IsSound)
    (path : List String) {root : Nodes}
    (hdistinct : (root.map Prod.fst ++ parts.map Section.name).Nodup) :
    ReadsTo path root (['\n'].intercalate (parts.map Section.text))
      (root ++ parts.map Section.node) := by
  induction parts generalizing path root with
  | nil => simpa using readsTo_nil path root
  | cons part parts ih =>
    have hpart := hparts part List.mem_cons_self
    have hnew : part.name ∉ root.map Prod.fst := fun hmem =>
      (List.nodup_append.mp hdistinct).2.2 _ hmem _ List.mem_cons_self rfl
    have hnext : ((root ++ [part.node]).map Prod.fst ++ parts.map Section.name).Nodup := by
      simpa [Section.node] using hdistinct
    have hrest := ih (fun other hother => hparts other (List.mem_cons_of_mem part hother))
      [part.name] hnext
    rw [List.append_assoc] at hrest
    cases parts with
    | nil =>
      rw [List.map_cons, List.map_nil, List.intercalate_singleton, ← List.append_nil part.text]
      exact ReadsTo.section hpart hnew hrest
    | cons next parts =>
      rw [List.map_cons, List.map_cons, List.intercalate_cons_cons, List.append_assoc]
      exact ReadsTo.section hpart hnew hrest.blank

/-! ## Files -/

/-- In the document the lines are the entries of their table. -/
theorem finishEntries_nodes (lines : List Line) :
    finishEntries (lines.map Line.node) = lines.map Line.entry := by
  induction lines with
  | nil => rfl
  | cons line lines ih => rw [List.map_cons, List.map_cons, ← ih]; rfl

/-- In the document the sections are the tables of their lines. -/
theorem finishEntries_sections (parts : List Section) :
    finishEntries (parts.map Section.node) = parts.map Section.entry := by
  induction parts with
  | nil => rfl
  | cons part parts ih =>
    rw [List.map_cons, List.map_cons, ← ih, Section.entry, ← finishEntries_nodes]
    rfl

/-- A table is no moment if no key says so, and nothing in it is a moment. -/
theorem withMoments?_table {entries : List (String × Toml)}
    (hkeys : ∀ entry ∈ entries, isBareKey entry.1 = true)
    (hvalues : ∀ entry ∈ entries, withMoments? entry.2 = some entry.2) :
    withMoments? (table entries) = some (table entries) := by
  have hentries {entries : List (String × Toml)}
      (hvalues : ∀ entry ∈ entries, withMoments? entry.2 = some entry.2) :
      entriesWithMoments? entries = some entries := by
    induction entries with
    | nil => rfl
    | cons entry entries ih =>
      rw [entriesWithMoments?, hvalues entry List.mem_cons_self,
        ih fun other hother => hvalues other (List.mem_cons_of_mem entry hother)]
      rfl
  cases entries with
  | nil => rfl
  | cons entry entries =>
    have hkey : entry.1 ≠ momentKey := by
      intro heq
      have hbare := hkeys entry List.mem_cons_self
      rw [heq] at hbare
      exact absurd hbare (by decide)
    unfold withMoments?
    rw [if_neg hkey, hvalues entry List.mem_cons_self,
      hentries fun other hother => hvalues other (List.mem_cons_of_mem entry hother)]
    rfl

/-- A file that starts with no mark of the byte order is read from its first character on. -/
theorem read?_of_readsTo {text : List Char} {root : Nodes} {entries : List (String × Toml)}
    (hmark : text.head? ≠ some '\uFEFF') (hread : ReadsTo [] [] text root)
    (hmoments : withMoments? (table (finishEntries root)) = some (table entries)) :
    read? (String.ofList text) = some (table entries) := by
  unfold read?
  rw [String.toList_ofList]
  dsimp only
  split
  · exact absurd rfl hmark
  · exact absurd rfl hmark
  · rw [hread _ (Nat.lt_succ_self _), Option.bind_eq_bind, Option.bind_some, hmoments]
    rfl

/-- A file of sections is read as the table of the sections. -/
theorem read?_sections {parts : List Section} (hparts : ∀ part ∈ parts, part.IsSound)
    (hdistinct : (parts.map Section.name).Nodup) (hne : parts ≠ []) :
    read? (String.ofList (['\n'].intercalate (parts.map Section.text))) =
      some (table (parts.map Section.entry)) := by
  have hstart : (([] : Nodes).map Prod.fst ++ parts.map Section.name).Nodup := by
    simpa using hdistinct
  have hread := readsTo_sections hparts [] hstart
  have hmoments : withMoments? (table (parts.map Section.entry)) =
      some (table (parts.map Section.entry)) := by
    refine withMoments?_table ?_ ?_ <;> intro entry hentry <;>
      obtain ⟨part, hpart, rfl⟩ := List.mem_map.mp hentry
    · exact (hparts part hpart).name
    · refine withMoments?_table ?_ ?_ <;> intro entry hentry <;>
        obtain ⟨line, hline, rfl⟩ := List.mem_map.mp hentry
      · exact ((hparts part hpart).lines line hline).key
      · exact ((hparts part hpart).lines line hline).value.noMoment
  refine read?_of_readsTo ?_ hread (by rw [List.nil_append, finishEntries_sections, hmoments])
  obtain ⟨part, parts, rfl⟩ := List.exists_cons_of_ne_nil hne
  cases parts <;> simp [Section.text, sectionText, List.intercalate_cons_cons]

end Procurement.Toml

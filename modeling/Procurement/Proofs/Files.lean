import Procurement.Files
import Mathlib.Data.List.Basic

/-!
# Files and the paths to them

A plain name is the path to the file with this name. What has been written to the file at
the end of a path is read there: the path is followed to names of files and folders, which
are their own path, and writing leaves all folders that were there.
-/

namespace Procurement

/-! ## Parts of a path -/

namespace Text

/-- What stands in front of the first mark is the first part. -/
theorem cutAt_append (mark : Char) {part : List Char} (h : mark ∉ part) (rest : List Char) :
    cutAt mark (part ++ mark :: rest) = (part, (cutAt mark rest).1 :: (cutAt mark rest).2) := by
  induction part with
  | nil => simp [cutAt]
  | cons c part ih =>
    have hc : c ≠ mark := fun hc => h (hc ▸ List.mem_cons_self)
    rw [List.cons_append, cutAt, ih fun hpart => h (List.mem_cons_of_mem c hpart)]
    exact if_neg hc

/-- Parts with a mark between them are cut at the marks. -/
theorem cutAt_intercalate {mark : Char} {part : List Char} {others : List (List Char)}
    (h : ∀ one ∈ part :: others, mark ∉ one) :
    cutAt mark ([mark].intercalate (part :: others)) = (part, others) := by
  induction others generalizing part with
  | nil => simpa using cutAt_of_notMem (h part List.mem_cons_self)
  | cons other others ih =>
    rw [List.intercalate_cons_cons, List.append_assoc, List.singleton_append,
      cutAt_append mark (h part List.mem_cons_self),
      ih fun one hone => h one (List.mem_cons_of_mem part hone)]

/-- No part of a text that is cut at a mark has the mark in it. -/
theorem notMem_of_mem_cutAt (mark : Char) (text : List Char) :
    ∀ part ∈ (cutAt mark text).1 :: (cutAt mark text).2, mark ∉ part := by
  induction text with
  | nil => simp [cutAt]
  | cons c text ih =>
    rw [cutAt]
    dsimp only
    split
    · simpa using ih
    · rename_i hc
      intro part hpart
      rcases List.mem_cons.mp hpart with rfl | hpart
      · exact List.not_mem_cons_of_ne_of_not_mem (Ne.symm hc) (ih _ List.mem_cons_self)
      · exact ih part (List.mem_cons_of_mem _ hpart)

/-- No part contains the mark. -/
theorem notMem_of_mem_parts {mark : Char} {text part : String} (h : part ∈ parts mark text) :
    mark ∉ part.toList := by
  obtain ⟨chars, hchars, rfl⟩ := List.mem_map.mp h
  rw [String.toList_ofList]
  exact notMem_of_mem_cutAt mark text.toList chars hchars

end Text

/-- A name that stands in a path for a file or folder. -/
def IsStep (name : String) : Prop := name ≠ "" ∧ name ≠ "." ∧ '/' ∉ name.toList

instance (name : String) : Decidable (IsStep name) := inferInstanceAs (Decidable (_ ∧ _))

/-- A path that was put together of names has these names for its parts. -/
theorem partsOfPath_intercalate {names : List String} (hne : names ≠ [])
    (h : ∀ name ∈ names, '/' ∉ name.toList) : partsOfPath ("/".intercalate names) = names := by
  obtain ⟨name, names, rfl⟩ := List.exists_cons_of_ne_nil hne
  have hchars : ∀ one ∈ name.toList :: names.map String.toList, '/' ∉ one := by
    rw [← List.map_cons]
    intro one hone
    obtain ⟨other, hother, rfl⟩ := List.mem_map.mp hone
    exact h other hother
  have hmark : "/".toList = ['/'] := rfl
  unfold partsOfPath Text.parts
  rw [String.toList_intercalate, hmark, List.map_cons, Text.cutAt_intercalate hchars]
  simp [Function.comp_def]

/-- A path starts from the directory or from the root of all. -/
theorem pathStart_eq (path : String) : pathStart path = [] ∨ pathStart path = [""] := by
  unfold pathStart
  split <;> simp

/-- A path without slashes starts from the directory. -/
theorem pathStart_of_notMem {path : String} (h : '/' ∉ path.toList) : pathStart path = [] := by
  refine if_neg fun hstart => h ?_
  exact (String.startsWith_string_iff.mp hstart).subset (by simp)

/-- A name of a file or folder has no parts but itself. -/
theorem IsStep.partsOfPath {name : String} (h : IsStep name) : partsOfPath name = [name] :=
  Text.parts_of_notMem h.2.2

/-- A name of a file or folder is its own path. -/
theorem IsStep.pathSteps {name : String} (h : IsStep name) : pathSteps name = [name] := by
  have hparts := h.partsOfPath
  obtain ⟨hempty, hpoint, hslash⟩ := h
  unfold Procurement.pathSteps
  rw [pathStart_of_notMem hslash, hparts]
  simp [hempty, hpoint]

/-- A path that was put together of names does not start from the root. -/
theorem not_startsWith_intercalate {name : String} (h : IsStep name) (others : List String) :
    ¬("/".intercalate (name :: others)).startsWith "/" = true := by
  obtain ⟨hempty, _, hslash⟩ := h
  have hne : name.toList ≠ [] := fun hnil => hempty (String.toList_eq_nil_iff.mp hnil)
  obtain ⟨c, chars, hchars⟩ := List.exists_cons_of_ne_nil hne
  have hc : '/' ≠ c := by
    rintro rfl
    exact hslash (hchars ▸ List.mem_cons_self)
  rw [String.startsWith_string_iff, String.toList_intercalate, List.map_cons, hchars]
  cases others <;> simpa [List.cons_prefix_cons, List.intercalate_cons_cons] using hc

/-- Names of files and folders lead from where a path starts to their own path. -/
theorem pathSteps_intercalate (path : String) {names : List String}
    (h : ∀ name ∈ names, IsStep name) (hne : names ≠ []) :
    pathSteps ("/".intercalate (pathStart path ++ names)) = pathStart path ++ names := by
  have hkept : names.filter (fun part => part ≠ "" && part ≠ ".") = names := by
    refine List.filter_eq_self.mpr fun name hname => ?_
    simp [(h name hname).1, (h name hname).2.1]
  have hslash : ∀ name ∈ names, '/' ∉ name.toList := fun name hname => (h name hname).2.2
  unfold pathSteps
  rcases pathStart_eq path with hstart | hstart
  · have hnone : pathStart ("/".intercalate names) = [] := by
      obtain ⟨name, others, rfl⟩ := List.exists_cons_of_ne_nil hne
      exact if_neg (not_startsWith_intercalate (h name List.mem_cons_self) others)
    rw [hstart, List.nil_append, hnone, partsOfPath_intercalate hne hslash, hkept, List.nil_append]
  · have hroot : pathStart ("/".intercalate ("" :: names)) = [""] := by
      obtain ⟨name, others, rfl⟩ := List.exists_cons_of_ne_nil hne
      refine if_pos (String.startsWith_string_iff.mpr ?_)
      rw [String.toList_intercalate, List.map_cons, List.map_cons, List.intercalate_cons_cons]
      exact List.prefix_append _ _
    have hparts : partsOfPath ("/".intercalate ("" :: names)) = "" :: names :=
      partsOfPath_intercalate (List.cons_ne_nil _ _) (List.forall_mem_cons.mpr ⟨by simp, hslash⟩)
    rw [hstart, List.singleton_append, hroot, hparts, List.filter_cons_of_neg (by simp), hkept]
    rfl

/-! ## Following a path -/

namespace Files

/-- A plain name is followed to itself. -/
theorem follow?_name (files : Files) {name : String} (h : IsStep name) (hback : name ≠ "..") :
    files.follow? (pathStart name) (partsOfPath name) = some [name] := by
  rw [h.partsOfPath]
  obtain ⟨hempty, hpoint, hslash⟩ := h
  rw [pathStart_of_notMem hslash, follow?, hasFolder_nil]
  simp [hempty, hpoint, hback, follow?]

/-- A plain name leads to the file with this name. -/
theorem read?_name (files : Files) {name : String} (h : IsStep name) (hback : name ≠ "..") :
    files.read? name = files.text? [name] := by
  unfold read?
  rw [follow?_name files h hback, Option.bind_some]

/-- A file with a plain name can be written where no folder has the name. -/
theorem isSome_write?_name {files : Files} {name : String} (h : IsStep name) (hback : name ≠ "..")
    (hfolder : files.hasFolder [name] = false) (text : String) :
    (files.write? name text).isSome = true := by
  unfold write?
  rw [follow?_name files h hback]
  simp [hfolder]

section Follow

variable {files : Files}

/-- What follows a path comes to the names of a file or folder. -/
theorem exists_names_of_follow? (path : String) {parts names steps : List String}
    (hparts : ∀ part ∈ parts, '/' ∉ part.toList) (hnames : ∀ name ∈ names, IsStep name)
    (h : files.follow? (pathStart path ++ names) parts = some steps) :
    ∃ names, steps = pathStart path ++ names ∧ ∀ name ∈ names, IsStep name := by
  induction parts generalizing names with
  | nil => exact ⟨names, (Option.some.inj h).symm, hnames⟩
  | cons part parts ih =>
    have hrest : ∀ other ∈ parts, '/' ∉ other.toList := fun other hother =>
      hparts other (List.mem_cons_of_mem part hother)
    rw [follow?] at h
    split_ifs at h with hfolder hblank hback hempty hroot
    · exact ih hrest hnames h
    · exact ih hrest hnames h
    · have hne : names ≠ [] := by
        rintro rfl
        rcases pathStart_eq path with hstart | hstart
        · exact hempty (by rw [hstart]; rfl)
        · exact hroot (by rw [hstart]; rfl)
      rw [List.dropLast_append_of_ne_nil hne] at h
      exact ih hrest (fun name hname => hnames name (List.dropLast_subset names hname)) h
    · rw [List.append_assoc] at h
      refine ih hrest (List.forall_mem_append.mpr ⟨hnames, ?_⟩) h
      rw [not_or] at hblank
      exact List.forall_mem_singleton.mpr
        ⟨hblank.1, hblank.2, hparts part List.mem_cons_self⟩

/-- A path leads where it led, if no folder is gone. -/
theorem follow?_mono {other : Files}
    (hfolders : ∀ steps, files.hasFolder steps = true → other.hasFolder steps = true)
    {parts start steps : List String} (h : files.follow? start parts = some steps) :
    other.follow? start parts = some steps := by
  induction parts generalizing start with
  | nil => exact h
  | cons part parts ih =>
    rw [follow?] at h ⊢
    cases hstart : files.hasFolder start with
    | false => simp [hstart] at h
    | true =>
      have hother : (!other.hasFolder start) = (!files.hasFolder start) := by
        rw [hstart, hfolders start hstart]
      rw [hother]
      split_ifs at h ⊢ <;> exact ih h

end Follow

/-- No folder goes when a text is added. -/
theorem hasFolder_append_texts {files : Files} {steps : List String}
    (h : files.hasFolder steps = true) (file : String × String) :
    Files.hasFolder { files with texts := files.texts ++ [file] } steps = true := by
  unfold hasFolder at *
  dsimp only at *
  rw [List.any_append, ← Bool.or_assoc, h, Bool.true_or]

/-- The text that comes last for a file is the file's text. -/
theorem text?_append_texts (files : Files) {path : String} {steps : List String}
    (hpath : pathSteps path = steps) (text : String) :
    Files.text? { files with texts := files.texts ++ [(path, text)] } steps = some text := by
  have hlast : [(path, text)].filter (fun file => pathSteps file.1 == steps) = [(path, text)] := by
    simp [hpath]
  unfold text?
  rw [List.filter_append, hlast, List.getLast?_concat]
  rfl

/-- What has been written to the file at the end of a path is read there. -/
theorem read?_of_write? {files written : Files} {path text : String}
    (h : files.write? path text = some written) : written.read? path = some text := by
  unfold write? at h
  cases hsteps : files.follow? (pathStart path) (partsOfPath path) with
  | none => simp [hsteps] at h
  | some steps =>
    have hparts : ∀ part ∈ partsOfPath path, '/' ∉ part.toList :=
      fun part => Text.notMem_of_mem_parts
    have hfollow : files.follow? (pathStart path ++ []) (partsOfPath path) = some steps := by
      rwa [List.append_nil]
    obtain ⟨names, rfl, hnames⟩ := exists_names_of_follow? path hparts (by simp) hfollow
    simp only [hsteps] at h
    split_ifs at h with hfolder
    obtain rfl := Option.some.inj h
    have hne : names ≠ [] := by
      rintro rfl
      rcases pathStart_eq path with hstart | hstart <;> rw [hstart] at hfolder
      · exact hfolder rfl
      · exact hfolder (by simp [hasFolder])
    unfold read?
    rw [follow?_mono (fun _ hthere => hasFolder_append_texts hthere _) hsteps, Option.bind_some]
    exact text?_append_texts files (pathSteps_intercalate path hnames hne) text

end Files

end Procurement

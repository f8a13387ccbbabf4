import Procurement.Proofs.Register

/-!
# Chronicles

All that a dense register keeps of an entity is its chronicle: what was fixed at its
creation, its status, and the contents that it has had. The row, the versions and the
history of the entity are read off it, and a change to the register moves the chronicle
of one entity on.
-/

namespace Procurement

/-- What was fixed at the creation of an entity, its status, and the contents it has had. -/
structure Chronicle (Status Origin Content : Type) where
  origin : Origin
  createdAt : Instant
  status : Status
  /-- The content given at the creation. -/
  first : Content
  /-- The contents that followed, oldest first. -/
  later : List Content := []
  deriving DecidableEq

namespace Chronicle

variable {Status Origin Content : Type}

/-- All contents, oldest first. -/
def contents (x : Chronicle Status Origin Content) : List Content := x.first :: x.later

/-- The number of the version that counts. -/
def version (x : Chronicle Status Origin Content) : Nat := x.later.length + 1

/-- The content that counts. -/
def content (x : Chronicle Status Origin Content) : Content := x.later.getLastD x.first

/-- What one version of the content says. -/
def content? (x : Chronicle Status Origin Content) (version : Int) : Option Content :=
  if 1 ≤ version then x.contents[(version - 1).toNat]? else none

/-- The chronicle with one more content. -/
def append (x : Chronicle Status Origin Content) (content : Content) :
    Chronicle Status Origin Content :=
  { x with later := x.later ++ [content] }

/-- The row of the entity under an identifier. -/
def row (x : Chronicle Status Origin Content) (id : String) : Row Status Origin where
  id := id
  status := x.status
  origin := x.origin
  version := x.version
  createdAt := x.createdAt

/-- The entity under an identifier. -/
def entity (x : Chronicle Status Origin Content) (id : String) :
    Entity Status Origin Content where
  id := id
  status := x.status
  origin := x.origin
  version := x.version
  createdAt := x.createdAt
  content := x.content

/-- The versions of the content, oldest first. -/
def revisions (x : Chronicle Status Origin Content) (id : String) : List (Revision Content) :=
  (x.contents.zipIdx 1).map fun (content, version) => ⟨id, version, content⟩

/-- The history of the entity under an identifier. -/
def history (x : Chronicle Status Origin Content) (id : String) :
    List (ContentVersion Content) :=
  (x.contents.zipIdx 1).map fun (content, version) => ⟨id, version, content⟩

variable (x : Chronicle Status Origin Content) (id : String)

/-- There are as many contents as the newest version says. -/
@[simp] theorem length_contents : x.contents.length = x.version := rfl

/-- A new content goes behind all others. -/
@[simp] theorem contents_append (content : Content) :
    (x.append content).contents = x.contents ++ [content] := rfl

/-- The row of an entity with a new content points at the next version. -/
theorem row_append (content : Content) :
    (x.append content).row id = { x.row id with version := x.version + 1 } := by
  simp [row, append, version]

/-- A new content is kept as a version behind all others. -/
theorem revisions_append (content : Content) :
    (x.append content).revisions id = x.revisions id ++ [⟨id, x.version + 1, content⟩] := by
  simp [revisions, List.zipIdx_append, Nat.add_comm]

/-- The versions say what the contents are, in their order. -/
theorem map_content_revisions : (x.revisions id).map Revision.content = x.contents := by
  have hcontent : Revision.content ∘ (fun (content, version) => ⟨id, version, content⟩) =
      (Prod.fst : Content × Nat → Content) := rfl
  rw [revisions, List.map_map, hcontent, List.zipIdx_map_fst]

/-- The history shows each version as it is kept. -/
theorem history_eq_map_revisions :
    x.history id =
      (x.revisions id).map fun revision => ⟨id, revision.version, revision.content⟩ := by
  rw [history, revisions, List.map_map]
  rfl

/-- The content that counts is that of the newest version. -/
theorem content?_version : x.content? x.version = some x.content := by
  have hindex : ((x.version : Int) - 1).toNat = x.later.length := by
    unfold version
    omega
  have hpositive : (1 : Int) ≤ x.version := by
    unfold version
    omega
  have hlast : x.contents[x.later.length]? = x.contents.getLast? :=
    List.getLast?_eq_getElem?.symm
  rw [content?, if_pos hpositive, hindex, hlast, contents, List.getLast?_cons, content,
    List.getLastD_eq_getLast?]

end Chronicle

/-! ## Numbered contents -/

/-- Of numbered contents each is found under its number. -/
private theorem find?_zipIdx {Content : Type} (id : String) (contents : List Content) (start : Nat)
    (version : Int) :
    (((contents.zipIdx start).map fun (content, version) =>
        (⟨id, version, content⟩ : Revision Content)).find?
      fun revision => (revision.version : Int) == version).map Revision.content =
      if start ≤ version then contents[(version - start).toNat]? else none := by
  induction contents generalizing start with
  | nil => simp
  | cons content contents ih =>
    rw [List.zipIdx_cons, List.map_cons, List.find?_cons]
    by_cases hversion : (start : Int) = version
    · subst hversion
      simp
    · rw [beq_eq_false_iff_ne.mpr hversion]
      dsimp only
      rw [ih (start + 1)]
      by_cases hle : (start : Int) ≤ version
      · have hnext : ((start + 1 : Nat) : Int) ≤ version := by omega
        have hindex : (version - start).toNat = (version - (start + 1 : Nat)).toNat + 1 := by omega
        rw [if_pos hle, if_pos hnext, hindex, List.getElem?_cons_succ]
      · have hnext : ¬ ((start + 1 : Nat) : Int) ≤ version := by omega
        rw [if_neg hle, if_neg hnext]

/-- Versions of one entity that are numbered in order are determined by what they say. -/
private theorem eq_zipIdx {Content : Type} {id : String} {revisions : List (Revision Content)}
    {start : Nat} (howner : ∀ revision ∈ revisions, revision.owner = id)
    (hversion : revisions.map Revision.version = List.range' start revisions.length) :
    revisions = ((revisions.map Revision.content).zipIdx start).map fun (content, version) =>
      ⟨id, version, content⟩ := by
  induction revisions generalizing start with
  | nil => rfl
  | cons revision revisions ih =>
    rw [List.map_cons, List.length_cons, List.range'_succ] at hversion
    obtain ⟨hfirst, hrest⟩ := List.cons.inj hversion
    have hrevision : revision = ⟨id, start, revision.content⟩ := by
      rw [← hfirst, ← howner revision List.mem_cons_self]
    have htail := ih (fun r hr => howner r (List.mem_cons_of_mem _ hr)) hrest
    rw [List.map_cons, List.zipIdx_cons, List.map_cons, ← htail]
    exact congrArg (· :: revisions) hrevision

/-! ## Chronicles in registers -/

namespace Register

variable {Status Origin Content : Type} {r r' : Register Status Origin Content}

/-- The chronicle of an entity. -/
def chronicle? (r : Register Status Origin Content) (id : String) :
    Option (Chronicle Status Origin Content) :=
  (r.row? id).bind fun row =>
    match (r.revisionsOf id).map Revision.content with
    | [] => none
    | first :: later =>
      some { origin := row.origin, createdAt := row.createdAt, status := row.status, first, later }

/-- An entity without a row has no chronicle. -/
theorem chronicle?_of_row?_eq_none {id : String} (h : r.row? id = none) :
    r.chronicle? id = none := by
  rw [chronicle?, h, Option.bind_none]

/-- A row and versions that are those of a chronicle make up this chronicle. -/
theorem chronicle?_of_eq {id : String} {x : Chronicle Status Origin Content}
    (hrow : r.row? id = some (x.row id)) (hrevisions : r.revisionsOf id = x.revisions id) :
    r.chronicle? id = some x := by
  rw [chronicle?, hrow, Option.bind_some, hrevisions, x.map_content_revisions]
  rfl

/-- A chronicle depends on the row and the versions of its entity alone. -/
theorem chronicle?_congr {id : String} (hrow : r'.row? id = r.row? id)
    (hrevisions : r'.revisionsOf id = r.revisionsOf id) : r'.chronicle? id = r.chronicle? id := by
  rw [chronicle?, chronicle?, hrow, hrevisions]

namespace Dense

variable (hr : r.Dense)

include hr

/-- The versions of an entity that has a row are those of its chronicle, and so is the row. -/
theorem exists_chronicle? {id : String} {row : Row Status Origin} (hrow : r.row? id = some row) :
    ∃ x, r.chronicle? id = some x ∧ x.row id = row ∧ r.revisionsOf id = x.revisions id := by
  have hid : row.id = id := id_of_row? hrow
  have hmem := mem_of_row? hrow
  have hversions := hr.versions row hmem
  rw [hid] at hversions
  have hlength : (r.revisionsOf id).length = row.version := by
    rw [← List.length_map, hversions, List.length_range']
  have howner : ∀ revision ∈ r.revisionsOf id, revision.owner = id := fun revision hrevision =>
    by simpa using (List.mem_filter.mp hrevision).2
  have hnumbered := eq_zipIdx howner (hversions.trans (by rw [hlength]))
  cases hcontents : (r.revisionsOf id).map Revision.content with
  | nil =>
    have hpositive := hr.positive row hmem
    have hnone : (r.revisionsOf id).length = 0 := by rw [List.map_eq_nil_iff.mp hcontents]; rfl
    omega
  | cons first later =>
    refine ⟨⟨row.origin, row.createdAt, row.status, first, later⟩, ?_, ?_, ?_⟩
    · rw [chronicle?, hrow, Option.bind_some, hcontents]
    · have hversion : later.length + 1 = row.version := by
        rw [← hlength, ← List.length_map (f := Revision.content), hcontents, List.length_cons]
      rw [Chronicle.row, Chronicle.version, hversion, ← hid]
    · rw [hcontents] at hnumbered
      exact hnumbered

/-- An entity without a row has no versions. -/
theorem revisionsOf_eq_nil {id : String} (h : r.row? id = none) : r.revisionsOf id = [] := by
  refine List.filter_eq_nil_iff.mpr fun revision hrevision howner => ?_
  rw [beq_iff_eq] at howner
  exact (row?_eq_none_iff id).mp h (howner ▸ hr.owned revision hrevision)

/-- The row of an entity is read off its chronicle. -/
theorem row?_eq_map (id : String) : r.row? id = (r.chronicle? id).map fun x => x.row id := by
  cases hrow : r.row? id with
  | none => rw [chronicle?_of_row?_eq_none hrow, Option.map_none]
  | some row =>
    obtain ⟨x, hx, rfl, _⟩ := hr.exists_chronicle? hrow
    rw [hx, Option.map_some]

/-- The entities with a chronicle are those in the register. -/
theorem isSome_chronicle? (id : String) : (r.chronicle? id).isSome ↔ id ∈ r.ids := by
  rw [← isSome_row?_iff, hr.row?_eq_map, Option.isSome_map]

/-- Each entity in the register has a chronicle. -/
theorem exists_chronicle?_of_mem {id : String} (h : id ∈ r.ids) : ∃ x, r.chronicle? id = some x :=
  Option.isSome_iff_exists.mp ((hr.isSome_chronicle? id).mpr h)

section Known

variable {id : String} {x : Chronicle Status Origin Content} (hx : r.chronicle? id = some x)

include hx

/-- The row is the one that the chronicle tells. -/
theorem row?_of_chronicle? : r.row? id = some (x.row id) := by
  rw [hr.row?_eq_map, hx, Option.map_some]

/-- The versions are those that the chronicle tells. -/
theorem revisionsOf_of_chronicle? : r.revisionsOf id = x.revisions id := by
  obtain ⟨x', hx', _, hrevisions⟩ := hr.exists_chronicle? (hr.row?_of_chronicle? hx)
  obtain rfl := Option.some.inj (hx.symm.trans hx')
  exact hrevisions

/-- The content of a version is the one that the chronicle tells. -/
theorem content?_of_chronicle? (version : Int) : r.content? id version = x.content? version := by
  rw [content?, hr.revisionsOf_of_chronicle? hx]
  exact find?_zipIdx id x.contents 1 version

/-- The history is the one that the chronicle tells. -/
theorem history_of_chronicle? : r.history id = x.history id := by
  rw [history, hr.revisionsOf_of_chronicle? hx, x.history_eq_map_revisions]

/-- The entity is the one that the chronicle tells. -/
theorem find?_of_chronicle? : r.find? id = some (x.entity id) := by
  have hcontent : r.content? (x.row id).id (x.row id).version = some x.content :=
    (hr.content?_of_chronicle? hx x.version).trans x.content?_version
  rw [find?, hr.row?_of_chronicle? hx, Option.bind_some, join?, hcontent]
  rfl

/-- The newest version is the one that the chronicle tells. -/
theorem latest?_of_chronicle? : r.latest? id = some x.version :=
  hr.latest?_of_mem (mem_of_row? (hr.row?_of_chronicle? hx))

end Known

end Dense

end Register

/-! ## Changes to chronicles -/

/-- What becomes of the chronicle under an identifier with a change. -/
def Change.chronicleAfter {Status Origin Content : Type} (initial : Status) (id : String)
    (x? : Option (Chronicle Status Origin Content)) :
    Change Status Origin Content → Option (Chronicle Status Origin Content)
  | .insert new origin createdAt content =>
    if id = new then some { origin, createdAt, status := initial, first := content } else x?
  | .setStatus other status => if id = other then x?.map fun x => { x with status } else x?
  | .append other content => if id = other then x?.map fun x => x.append content else x?
  | .restore other version =>
    if id = other then x?.bind fun x => (x.content? version).map x.append else x?

namespace Register.Dense

variable {Status Origin Content : Type} {r r' : Register Status Origin Content} (hr : r.Dense)

include hr

/-- A new entity has a chronicle of its first content, and all others keep theirs. -/
theorem chronicle?_of_insert? {new : String} {initial : Status} {origin : Origin}
    {createdAt : Instant} {content : Content}
    (h : r.insert? new initial origin createdAt content = some r') (id : String) :
    r'.chronicle? id =
      if id = new then some { origin, createdAt, status := initial, first := content }
      else r.chronicle? id := by
  have hrow := row?_of_insert? h id
  have hnone := hr.revisionsOf_eq_nil (row?_eq_none_of_insert? h)
  have hrevisions : r'.revisionsOf id =
      r.revisionsOf id ++ if id = new then [⟨new, 1, content⟩] else [] := by
    rw [eq_of_insert? h, revisionsOf, List.filter_append]
    by_cases hid : id = new
    · simp [hid, revisionsOf]
    · simp [hid, Ne.symm hid, revisionsOf]
  by_cases hid : id = new
  · subst hid
    rw [if_pos rfl] at hrow hrevisions ⊢
    rw [hnone] at hrevisions
    exact chronicle?_of_eq hrow hrevisions
  · rw [if_neg hid] at hrow hrevisions ⊢
    exact chronicle?_congr hrow (hrevisions.trans (List.append_nil _))

/-- A new status is told by the chronicle of its entity, and by no other. -/
theorem chronicle?_setStatus (other : String) (status : Status) (id : String) :
    (r.setStatus other status).chronicle? id =
      if id = other then (r.chronicle? id).map fun x => { x with status }
      else r.chronicle? id := by
  have hrow := row?_setStatus (r := r) other id status
  by_cases hid : id = other
  · subst hid
    rw [if_pos rfl] at hrow ⊢
    cases hx : r.chronicle? id with
    | none =>
      rw [hr.row?_eq_map, hx] at hrow
      exact chronicle?_of_row?_eq_none hrow
    | some x =>
      have hrevisions : (r.setStatus id status).revisionsOf id = x.revisions id :=
        hr.revisionsOf_of_chronicle? hx
      rw [hr.row?_of_chronicle? hx] at hrow
      exact chronicle?_of_eq hrow hrevisions
  · rw [if_neg hid] at hrow ⊢
    exact chronicle?_congr hrow rfl

/-- A new content is told by the chronicle of its entity, and by no other. -/
theorem chronicle?_of_append? {other : String} {content : Content}
    (h : r.append? other content = some r') (id : String) :
    r'.chronicle? id =
      if id = other then (r.chronicle? id).map fun x => x.append content
      else r.chronicle? id := by
  have hrow := hr.row?_of_append? h id
  obtain ⟨row, hother, hrevisions, _⟩ := hr.eq_of_append? h
  have hof : r'.revisionsOf id =
      r.revisionsOf id ++ if id = other then [⟨other, row.version + 1, content⟩] else [] := by
    rw [revisionsOf, hrevisions, List.filter_append]
    by_cases hid : id = other
    · simp [hid, revisionsOf]
    · simp [hid, Ne.symm hid, revisionsOf]
  by_cases hid : id = other
  · subst hid
    rw [if_pos rfl] at hrow hof ⊢
    obtain ⟨x, hx, rfl, hold⟩ := hr.exists_chronicle? hother
    rw [hother, Option.map_some] at hrow
    rw [hold] at hof
    rw [hx, Option.map_some]
    exact chronicle?_of_eq (hrow.trans (congrArg some (x.row_append id content).symm))
      (hof.trans (x.revisions_append id content).symm)
  · rw [if_neg hid] at hrow hof ⊢
    exact chronicle?_congr hrow (hof.trans (List.append_nil _))

/-- A change moves the chronicle of one entity on. -/
theorem chronicle?_of_change? {initial : Status} {change : Change Status Origin Content}
    (h : r.change? initial change = some r') (id : String) :
    r'.chronicle? id = change.chronicleAfter initial id (r.chronicle? id) := by
  cases change with
  | insert new origin createdAt content => exact hr.chronicle?_of_insert? h id
  | setStatus other status =>
    rw [← Option.some.inj h]
    exact hr.chronicle?_setStatus other status id
  | append other content => exact hr.chronicle?_of_append? h id
  | restore other version =>
    obtain ⟨content, hcontent, happend⟩ := Option.bind_eq_some_iff.mp h
    rw [hr.chronicle?_of_append? happend id]
    simp only [Change.chronicleAfter]
    by_cases hid : id = other
    · subst hid
      rw [if_pos rfl, if_pos rfl]
      cases hx : r.chronicle? id with
      | none => rfl
      | some x =>
        rw [hr.content?_of_chronicle? hx] at hcontent
        rw [Option.map_some, Option.bind_some, hcontent, Option.map_some]
    · rw [if_neg hid, if_neg hid]

end Register.Dense

end Procurement

import Procurement.Register
import Mathlib.Data.List.Nodup

/-!
# Dense registers

A register is dense when every entity has one row and exactly the versions from
one to the version its row points at. A register changes in four ways, and each
keeps it dense. In a dense register every row has the content it points at, and
what is appended always stands behind that version.
-/

namespace Procurement

/-- One change to a register. -/
inductive Change (Status Origin Content : Type) where
  | insert (id : String) (origin : Origin) (createdAt : Instant) (content : Content)
  | setStatus (id : String) (status : Status)
  | append (id : String) (content : Content)
  /-- Appends the content of an old version. -/
  | restore (id : String) (version : Int)
  deriving DecidableEq

/-- The identifier of the entity that a change adds, if it adds one. -/
def Change.inserted? {Status Origin Content : Type} :
    Change Status Origin Content → Option String
  | .insert id _ _ _ => some id
  | _ => none

/-- The entity that a change alters, if it does not add one. -/
def Change.altered? {Status Origin Content : Type} :
    Change Status Origin Content → Option String
  | .insert _ _ _ _ => none
  | .setStatus id _ | .append id _ | .restore id _ => some id

/-- What becomes of the row under an identifier with a change. -/
def Change.rowAfter {Status Origin Content : Type} (initial : Status) (id : String)
    (row? : Option (Row Status Origin)) :
    Change Status Origin Content → Option (Row Status Origin)
  | .insert new origin createdAt _ =>
    if id = new then some { id := new, status := initial, origin, version := 1, createdAt }
    else row?
  | .setStatus other status => if id = other then row?.map fun row => { row with status } else row?
  | .append other _ | .restore other _ =>
    if id = other then row?.map fun row => { row with version := row.version + 1 } else row?

namespace Register

variable {Status Origin Content : Type} {r r' : Register Status Origin Content}

/-- The register after a change, if the change is possible. New rows get the given status. -/
def change? (initial : Status) (r : Register Status Origin Content) :
    Change Status Origin Content → Option (Register Status Origin Content)
  | .insert id origin createdAt content => r.insert? id initial origin createdAt content
  | .setStatus id status => some (r.setStatus id status)
  | .append id content => r.append? id content
  | .restore id version => (r.content? id version).bind (r.append? id)

/-- Every entity has one row and the versions from one to the version that counts, and
there are no other versions. -/
structure Dense (r : Register Status Origin Content) : Prop where
  unique : r.ids.Nodup
  owned : ∀ revision ∈ r.revisions, revision.owner ∈ r.ids
  positive : ∀ row ∈ r.rows, 1 ≤ row.version
  versions : ∀ row ∈ r.rows,
    (r.revisionsOf row.id).map Revision.version = List.range' 1 row.version

/-- A register without entities is dense. -/
theorem dense_empty : ({} : Register Status Origin Content).Dense where
  unique := List.nodup_nil
  owned _ h := absurd h List.not_mem_nil
  positive _ h := absurd h List.not_mem_nil
  versions _ h := absurd h List.not_mem_nil

/-! ## Rows -/

/-- A row has the identifier under which it is found. -/
theorem id_of_row? {id : String} {row : Row Status Origin} (h : r.row? id = some row) :
    row.id = id := by
  simpa using List.find?_some h

/-- A row that is found is in the register. -/
theorem mem_of_row? {id : String} {row : Row Status Origin} (h : r.row? id = some row) :
    row ∈ r.rows :=
  List.mem_of_find?_eq_some h

/-- The entities with a row are those in the register. -/
theorem isSome_row?_iff (id : String) : (r.row? id).isSome ↔ id ∈ r.ids := by
  simp [row?, ids, List.find?_isSome]

/-- An entity whose row is found is in the register. -/
theorem mem_ids_of_row? {id : String} {row : Row Status Origin} (h : r.row? id = some row) :
    id ∈ r.ids :=
  (isSome_row?_iff id).mp (Option.isSome_iff_exists.mpr ⟨row, h⟩)

/-- Entities that are not in the register have no row. -/
theorem row?_eq_none_iff (id : String) : r.row? id = none ↔ id ∉ r.ids := by
  rw [← isSome_row?_iff, Option.not_isSome_iff_eq_none]

/-- Each row of a dense register is found under its identifier. -/
theorem Dense.row?_of_mem (h : r.Dense) {row : Row Status Origin} (hrow : row ∈ r.rows) :
    r.row? row.id = some row := by
  have hid : row.id ∈ r.ids := List.mem_map_of_mem hrow
  obtain ⟨found, hfound⟩ := Option.isSome_iff_exists.mp ((isSome_row?_iff row.id).mpr hid)
  have heq : found = row :=
    List.inj_on_of_nodup_map h.unique (mem_of_row? hfound) hrow (id_of_row? hfound)
  rw [hfound, heq]

/-- Changing the rows of an entity changes nothing but rows. -/
theorem mapRow_eq (r : Register Status Origin Content) (id : String)
    (change : Row Status Origin → Row Status Origin) :
    r.mapRow id change =
      { r with rows := r.rows.map fun row => if row.id = id then change row else row } := by
  have hchange : (fun row : Row Status Origin => if row.id == id then change row else row) =
      fun row => if row.id = id then change row else row := by
    funext row
    by_cases hid : row.id = id <;> simp [hid]
  rw [mapRow, hchange]

/-- Changing the rows of one entity keeps all identifiers, if the change keeps its own. -/
theorem ids_mapRow (change : Row Status Origin → Row Status Origin)
    (hchange : ∀ row, (change row).id = row.id) (id : String) :
    (r.mapRow id change).ids = r.ids := by
  simp only [ids, mapRow, List.map_map]
  refine List.map_congr_left fun row _ => ?_
  simp only [Function.comp_apply]
  split
  · exact hchange row
  · rfl

/-- After a change to the rows of one entity that entity has the changed row, and all
others have their own. -/
theorem row?_mapRow (change : Row Status Origin → Row Status Origin)
    (hchange : ∀ row, (change row).id = row.id) (id other : String) :
    (r.mapRow id change).row? other =
      if other = id then (r.row? other).map change else r.row? other := by
  have hkey : ((fun row : Row Status Origin => row.id == other) ∘
      fun row => if row.id == id then change row else row) = fun row => row.id == other := by
    funext row
    simp only [Function.comp_apply]
    split
    · rw [hchange]
    · rfl
  simp only [row?, mapRow, List.find?_map, hkey]
  cases h : r.rows.find? fun row => row.id == other with
  | none => simp
  | some row =>
    have hid : row.id = other := by simpa using List.find?_some h
    simp only [Option.map_some, hid, beq_iff_eq]
    split <;> rfl

/-- Setting a status adds and removes no entity. -/
theorem ids_setStatus (id : String) (status : Status) : (r.setStatus id status).ids = r.ids := by
  unfold setStatus
  exact ids_mapRow (fun row => { row with status }) (fun _ => rfl) id

/-- After a status is set its entity has it, and all others have their own. -/
theorem row?_setStatus (id other : String) (status : Status) :
    (r.setStatus id status).row? other =
      if other = id then (r.row? other).map fun row => { row with status } else r.row? other := by
  unfold setStatus
  exact row?_mapRow (fun row => { row with status }) (fun _ => rfl) id other

/-- Setting the status of an entity that is not there changes nothing. -/
theorem setStatus_of_row?_eq_none {id : String} (h : r.row? id = none) (status : Status) :
    r.setStatus id status = r := by
  have hrows : r.rows.map (fun row => if row.id == id then { row with status } else row) =
      r.rows := by
    conv_rhs => rw [← List.map_id r.rows]
    refine List.map_congr_left fun row hrow => ?_
    have hne : row.id ≠ id := by
      intro heq
      exact (row?_eq_none_iff id).mp h (heq ▸ List.mem_map_of_mem hrow)
    simp [hne]
  unfold setStatus mapRow
  rw [hrows]

/-! ## Insertions -/

section Insertion

variable {id : String} {initial : Status} {origin : Origin} {createdAt : Instant}
  {content : Content} (h : r.insert? id initial origin createdAt content = some r')

include h

/-- Only a new identifier can be inserted. -/
theorem row?_eq_none_of_insert? : r.row? id = none := by
  unfold insert? at h
  split at h
  · cases h
  · simpa using ‹¬(r.row? id).isSome = true›

/-- An insertion adds a row with its first version, and the content of that. -/
theorem eq_of_insert? :
    r' = { rows := r.rows ++ [{ id, status := initial, origin, version := 1, createdAt }]
           revisions := r.revisions ++ [{ owner := id, version := 1, content }] } := by
  unfold insert? at h
  split at h
  · cases h
  · exact (Option.some.inj h).symm

/-- The new entity comes behind all others. -/
theorem ids_of_insert? : r'.ids = r.ids ++ [id] := by
  simp [eq_of_insert? h, ids]

/-- An insertion adds one row and leaves the others. -/
theorem row?_of_insert? (other : String) :
    r'.row? other =
      if other = id then some { id, status := initial, origin, version := 1, createdAt }
      else r.row? other := by
  have hnone : r.rows.find? (fun row => row.id == id) = none := row?_eq_none_of_insert? h
  simp only [eq_of_insert? h, row?, List.find?_append]
  split
  · rename_i heq
    simp [heq, hnone]
  · rename_i hne
    have hne' : (id == other) = false := by simpa using Ne.symm hne
    simp [hne']

/-- An insertion keeps a register dense. -/
theorem Dense.of_insert? (hr : r.Dense) : r'.Dense := by
  have hfresh : id ∉ r.ids := (row?_eq_none_iff id).mp (row?_eq_none_of_insert? h)
  have hids := ids_of_insert? h
  have heq := eq_of_insert? h
  have hnone : r.revisionsOf id = [] := by
    refine List.filter_eq_nil_iff.mpr fun revision hrevision howner => hfresh ?_
    rw [← (by simpa using howner : revision.owner = id)]
    exact hr.owned revision hrevision
  constructor
  case unique =>
    rw [hids]
    exact List.nodup_append.mpr ⟨hr.unique, by simp, by
      intro a ha b hb
      rw [List.mem_singleton.mp hb]
      exact fun hab => hfresh (hab ▸ ha)⟩
  case owned =>
    intro revision hrevision
    rw [hids]
    simp only [heq, List.mem_append, List.mem_singleton] at hrevision ⊢
    rcases hrevision with hold | rfl
    · exact Or.inl (hr.owned revision hold)
    · exact Or.inr rfl
  case positive =>
    intro row hrow
    simp only [heq, List.mem_append, List.mem_singleton] at hrow
    rcases hrow with hold | rfl
    · exact hr.positive row hold
    · exact Nat.le_refl 1
  case versions =>
    intro row hrow
    simp only [heq, List.mem_append, List.mem_singleton] at hrow
    rcases hrow with hold | rfl
    · have hne : id ≠ row.id := fun hid => hfresh (hid ▸ List.mem_map_of_mem hold)
      simpa [heq, revisionsOf, hne] using hr.versions row hold
    · have hempty : r.revisions.filter (fun revision => revision.owner == id) = [] := hnone
      simp [heq, revisionsOf, hempty]

end Insertion

/-- Setting a status keeps a register dense. -/
theorem Dense.setStatus (hr : r.Dense) (id : String) (status : Status) :
    (r.setStatus id status).Dense := by
  have hrow : ∀ row ∈ (r.setStatus id status).rows, ∃ old ∈ r.rows,
      row.id = old.id ∧ row.version = old.version := by
    intro row hrow
    obtain ⟨old, hold, rfl⟩ := List.mem_map.mp hrow
    refine ⟨old, hold, ?_⟩
    split <;> exact ⟨rfl, rfl⟩
  have hids := ids_setStatus (r := r) id status
  constructor
  case unique => exact hids ▸ hr.unique
  case owned => exact hids ▸ hr.owned
  case positive =>
    intro row hmem
    obtain ⟨old, hold, _, hversion⟩ := hrow row hmem
    rw [hversion]
    exact hr.positive old hold
  case versions =>
    intro row hmem
    obtain ⟨old, hold, hid, hversion⟩ := hrow row hmem
    rw [hid, hversion]
    exact hr.versions old hold

/-! ## New versions -/

/-- The greatest number from one on is how many there are. -/
private theorem max?_range' {n : Nat} (hn : 1 ≤ n) : (List.range' 1 n).max? = some n := by
  refine List.max?_eq_some_iff.mpr ⟨List.mem_range'_1.mpr (by omega), fun m hm => ?_⟩
  have := List.mem_range'_1.mp hm
  omega

/-- The newest version of a row's content is the one that the row points at. -/
theorem Dense.latest?_of_mem (hr : r.Dense) {row : Row Status Origin} (hrow : row ∈ r.rows) :
    r.latest? row.id = some row.version := by
  unfold latest?
  rw [hr.versions row hrow]
  exact max?_range' (hr.positive row hrow)

/-- Only entities with a row have versions. -/
theorem Dense.row?_of_latest? (hr : r.Dense) {id : String} {latest : Nat}
    (h : r.latest? id = some latest) : ∃ row, r.row? id = some row ∧ row.version = latest := by
  have hne : r.revisionsOf id ≠ [] := by
    intro hnil
    simp [latest?, hnil] at h
  obtain ⟨revision, hrevision⟩ := List.exists_mem_of_ne_nil _ hne
  obtain ⟨hmem, howner⟩ := List.mem_filter.mp hrevision
  have hid : id ∈ r.ids := by
    rw [← (by simpa using howner : revision.owner = id)]
    exact hr.owned revision hmem
  obtain ⟨row, hrow⟩ := Option.isSome_iff_exists.mp ((isSome_row?_iff id).mpr hid)
  have hlatest := hr.latest?_of_mem (mem_of_row? hrow)
  rw [id_of_row? hrow, h] at hlatest
  exact ⟨row, hrow, (Option.some.inj hlatest).symm⟩

/-- Every row has the content that it points at. -/
theorem Dense.isSome_content?_of_mem (hr : r.Dense) {row : Row Status Origin}
    (hrow : row ∈ r.rows) : (r.content? row.id row.version).isSome := by
  have hversion : row.version ∈ (r.revisionsOf row.id).map Revision.version := by
    rw [hr.versions row hrow]
    have := hr.positive row hrow
    exact List.mem_range'_1.mpr (by omega)
  obtain ⟨revision, hrevision, heq⟩ := List.mem_map.mp hversion
  simp only [content?, Option.isSome_map, List.find?_isSome]
  exact ⟨revision, hrevision, by simp [heq]⟩

/-- Every row can be read together with its content. -/
theorem Dense.isSome_find? (hr : r.Dense) (id : String) :
    (r.find? id).isSome = (r.row? id).isSome := by
  unfold find?
  cases h : r.row? id with
  | none => rfl
  | some row => simpa [join?] using hr.isSome_content?_of_mem (mem_of_row? h)

section Appending

variable {id : String} {content : Content} (h : r.append? id content = some r')

include h

/-- What is appended gets the number behind the newest version. -/
theorem Dense.eq_of_append? (hr : r.Dense) : ∃ row, r.row? id = some row ∧
    r'.revisions = r.revisions ++ [{ owner := id, version := row.version + 1, content }] ∧
    r'.rows = (r.mapRow id fun row' => { row' with version := row.version + 1 }).rows := by
  obtain ⟨latest, hlatest, rfl⟩ := Option.map_eq_some_iff.mp h
  obtain ⟨row, hrow, rfl⟩ := hr.row?_of_latest? hlatest
  exact ⟨row, hrow, rfl, rfl⟩

/-- Appending adds and removes no entity. -/
theorem ids_of_append? : r'.ids = r.ids := by
  obtain ⟨latest, _, rfl⟩ := Option.map_eq_some_iff.mp h
  exact ids_mapRow (fun row => { row with version := latest + 1 }) (fun _ => rfl) id

/-- Appending moves the version of one row on and leaves the others. -/
theorem Dense.row?_of_append? (hr : r.Dense) (other : String) :
    r'.row? other =
      if other = id then (r.row? other).map fun row => { row with version := row.version + 1 }
      else r.row? other := by
  obtain ⟨row, hrow, _, hrows⟩ := hr.eq_of_append? h
  have hmap := row?_mapRow (r := r) (fun row' => { row' with version := row.version + 1 })
    (fun _ => rfl) id other
  rw [row?, ← hrows] at hmap
  refine hmap.trans ?_
  split
  · rename_i heq
    rw [heq, hrow]
    rfl
  · rfl

/-- Appending gives one version more to the entity, and none to any other. -/
theorem Dense.versions_of_append? (hr : r.Dense) {row : Row Status Origin}
    (hrow : r.row? id = some row) (other : String) :
    (r'.revisionsOf other).map Revision.version =
      (r.revisionsOf other).map Revision.version ++
        if other = id then [row.version + 1] else [] := by
  obtain ⟨row', hrow', hrevisions, _⟩ := hr.eq_of_append? h
  obtain rfl := Option.some.inj (hrow.symm.trans hrow')
  unfold revisionsOf
  rw [hrevisions, List.filter_append, List.map_append]
  by_cases hid : other = id
  · simp [hid]
  · simp [hid, Ne.symm hid]

/-- Appending keeps a register dense. -/
theorem Dense.of_append? (hr : r.Dense) : r'.Dense := by
  obtain ⟨row, hrow, hrevisions, hrows⟩ := hr.eq_of_append? h
  have hids := ids_of_append? h
  constructor
  case unique => exact hids ▸ hr.unique
  case owned =>
    intro revision hrevision
    rw [hids]
    rw [hrevisions, List.mem_append, List.mem_singleton] at hrevision
    rcases hrevision with hold | rfl
    · exact hr.owned revision hold
    · exact mem_ids_of_row? hrow
  case positive =>
    intro row' hmem
    rw [hrows] at hmem
    obtain ⟨old, hold, rfl⟩ := List.mem_map.mp hmem
    split
    · exact Nat.le_add_left 1 row.version
    · exact hr.positive old hold
  case versions =>
    intro row' hmem
    rw [hrows] at hmem
    obtain ⟨old, hold, rfl⟩ := List.mem_map.mp hmem
    by_cases hid : old.id = id
    · have hfound := hr.row?_of_mem hold
      rw [hid, hrow] at hfound
      obtain rfl := Option.some.inj hfound
      rw [if_pos (beq_iff_eq.mpr hid), hr.versions_of_append? h hrow, if_pos hid,
        hr.versions row hold, List.range'_1_concat, Nat.add_comm]
    · rw [if_neg (by simpa using hid), hr.versions_of_append? h hrow, if_neg hid, List.append_nil]
      exact hr.versions old hold

end Appending

/-- No change makes a dense register less dense. -/
theorem Dense.of_change? {initial : Status} {change : Change Status Origin Content}
    (hr : r.Dense) (h : r.change? initial change = some r') : r'.Dense := by
  cases change with
  | insert id origin createdAt content => exact hr.of_insert? h
  | setStatus id status => exact Option.some.inj h ▸ hr.setStatus id status
  | append id content => exact hr.of_append? h
  | restore id version =>
    obtain ⟨content, _, happend⟩ := Option.bind_eq_some_iff.mp h
    exact hr.of_append? happend

/-- Entities are only added, behind all others. -/
theorem ids_of_change? {initial : Status} {change : Change Status Origin Content}
    (h : r.change? initial change = some r') : r'.ids = r.ids ++ change.inserted?.toList := by
  cases change with
  | insert id origin createdAt content => exact ids_of_insert? h
  | setStatus id status =>
    rw [← Option.some.inj h, ids_setStatus]
    exact (List.append_nil r.ids).symm
  | append id content => exact (ids_of_append? h).trans (List.append_nil r.ids).symm
  | restore id version =>
    obtain ⟨content, _, happend⟩ := Option.bind_eq_some_iff.mp h
    exact (ids_of_append? happend).trans (List.append_nil r.ids).symm

/-- What a change adds was not there before. -/
theorem not_mem_ids_of_inserted? {initial : Status} {change : Change Status Origin Content}
    (h : r.change? initial change = some r') {id : String}
    (hinserted : change.inserted? = some id) :
    id ∉ r.ids := by
  cases change with
  | insert new origin createdAt content =>
    obtain rfl := Option.some.inj hinserted
    exact (row?_eq_none_iff new).mp (row?_eq_none_of_insert? h)
  | _ => cases hinserted

/-- A change does to the row of each entity what it says. -/
theorem Dense.row?_of_change? {initial : Status} {change : Change Status Origin Content}
    (hr : r.Dense) (h : r.change? initial change = some r') (id : String) :
    r'.row? id = change.rowAfter initial id (r.row? id) := by
  cases change with
  | insert new origin createdAt content => exact row?_of_insert? h id
  | setStatus other status =>
    rw [← Option.some.inj h]
    exact row?_setStatus other id status
  | append other content => exact hr.row?_of_append? h id
  | restore other version =>
    obtain ⟨content, _, happend⟩ := Option.bind_eq_some_iff.mp h
    exact hr.row?_of_append? happend id

/-- Versions are only added, behind all others. -/
theorem Dense.revisions_prefix_of_change? {initial : Status}
    {change : Change Status Origin Content} (hr : r.Dense)
    (h : r.change? initial change = some r') : r.revisions <+: r'.revisions := by
  cases change with
  | insert id origin createdAt content =>
    rw [eq_of_insert? h]
    exact List.prefix_append _ _
  | setStatus id status =>
    rw [← Option.some.inj h]
    exact List.prefix_rfl
  | append id content =>
    obtain ⟨row, _, hrevisions, _⟩ := hr.eq_of_append? h
    rw [hrevisions]
    exact List.prefix_append _ _
  | restore id version =>
    obtain ⟨content, _, happend⟩ := Option.bind_eq_some_iff.mp h
    obtain ⟨row, _, hrevisions, _⟩ := hr.eq_of_append? happend
    rw [hrevisions]
    exact List.prefix_append _ _

/-! ## Changes one after the other -/

/-- The register after changes, one after the other, if they are all possible. -/
def changeAll? (initial : Status) (r : Register Status Origin Content) :
    List (Change Status Origin Content) → Option (Register Status Origin Content)
  | [] => some r
  | change :: rest => (r.change? initial change).bind fun next => next.changeAll? initial rest

/-- Changes in two parts are made one part after the other. -/
theorem changeAll?_append (initial : Status) (r : Register Status Origin Content)
    (changes changes' : List (Change Status Origin Content)) :
    r.changeAll? initial (changes ++ changes') =
      (r.changeAll? initial changes).bind fun next => next.changeAll? initial changes' := by
  induction changes generalizing r with
  | nil => rfl
  | cons change rest ih =>
    simp only [List.cons_append, changeAll?, Option.bind_assoc]
    exact congrArg _ (funext fun next => ih next)

section ChangeAll

variable {initial : Status} {changes : List (Change Status Origin Content)}
  (h : r.changeAll? initial changes = some r')

include h

/-- Changes keep a register dense. -/
theorem Dense.of_changeAll? (hr : r.Dense) : r'.Dense := by
  induction changes generalizing r with
  | nil => exact Option.some.inj h ▸ hr
  | cons change rest ih =>
    obtain ⟨next, hnext, hrest⟩ := Option.bind_eq_some_iff.mp h
    exact ih hrest (hr.of_change? hnext)

/-- Changes add entities behind all others. -/
theorem ids_prefix_of_changeAll? : r.ids <+: r'.ids := by
  induction changes generalizing r with
  | nil => exact Option.some.inj h ▸ List.prefix_rfl
  | cons change rest ih =>
    obtain ⟨next, hnext, hrest⟩ := Option.bind_eq_some_iff.mp h
    refine List.IsPrefix.trans ?_ (ih hrest)
    rw [ids_of_change? hnext]
    exact List.prefix_append _ _

/-- Changes add versions behind all others. -/
theorem Dense.revisions_prefix_of_changeAll? (hr : r.Dense) : r.revisions <+: r'.revisions := by
  induction changes generalizing r with
  | nil => exact Option.some.inj h ▸ List.prefix_rfl
  | cons change rest ih =>
    obtain ⟨next, hnext, hrest⟩ := Option.bind_eq_some_iff.mp h
    exact (hr.revisions_prefix_of_change? hnext).trans (ih hrest (hr.of_change? hnext))

end ChangeAll

end Register

end Procurement

import Procurement.Proofs.Decisions
import Procurement.Proofs.Versions

/-!
# What differences tell

A register is only changed by changes, so from a difference between a register
before and after some of them one can tell what was among them: whoever finds an
entity altered, revised, moved to another status or added finds the change that
did it.
-/

namespace Procurement

/-- What revises an entity alters it. -/
theorem Change.altered?_of_revises {Status Origin Content : Type}
    {change : Change Status Origin Content} {id : String} (h : change.revises id = true) :
    change.altered? = some id := by
  cases change with
  | insert | setStatus => cases h
  | append other _ | restore other _ => exact congrArg some (beq_iff_eq.mp h)

namespace Register.Dense

variable {Status Origin Content : Type} {r r' : Register Status Origin Content}
  {initial : Status}

/-- What each of some changes keeps, they keep together. -/
theorem keeps_of_changeAll? {changes : List (Change Status Origin Content)} (hr : r.Dense)
    (h : r.changeAll? initial changes = some r') (Kept : Register Status Origin Content → Prop)
    (hkeeps : ∀ change ∈ changes, ∀ {r r' : Register Status Origin Content}, r.Dense →
      r.change? initial change = some r' → Kept r → Kept r')
    (hkept : Kept r) : Kept r' := by
  induction changes generalizing r with
  | nil => exact Option.some.inj h ▸ hkept
  | cons change rest ih =>
    obtain ⟨next, hnext, hrest⟩ := Option.bind_eq_some_iff.mp h
    exact ih (hr.of_change? hnext) hrest
      (fun change' hmem => hkeeps change' (List.mem_cons_of_mem _ hmem))
      (hkeeps change List.mem_cons_self hr hnext hkept)

/-! ## One change -/

section Change

variable {change : Change Status Origin Content} {id : String}

/-- A change that does not alter an entity keeps its row. -/
theorem row?_of_altered?_ne (hr : r.Dense) (h : r.change? initial change = some r')
    (hother : change.altered? ≠ some id) {row : Row Status Origin} (hrow : r.row? id = some row) :
    r'.row? id = some row := by
  rw [hr.row?_of_change? h, hrow]
  cases change with
  | insert new origin createdAt content =>
    have hne : id ≠ new := by
      rintro rfl
      exact not_mem_ids_of_inserted? h rfl (mem_ids_of_row? hrow)
    exact if_neg hne
  | setStatus other status | append other _ | restore other _ =>
    exact if_neg fun heq => hother (congrArg some heq.symm)

/-- Content is only added by revisions, and with new entities. -/
theorem revisionsOf_of_revises_eq_false (hr : r.Dense) (h : r.change? initial change = some r')
    (hother : change.revises id = false) (hid : id ∈ r.ids) :
    r'.revisionsOf id = r.revisionsOf id := by
  unfold revisionsOf
  cases change with
  | insert new origin createdAt content =>
    have hne : new ≠ id := by
      rintro rfl
      exact not_mem_ids_of_inserted? h rfl hid
    simp [eq_of_insert? h, hne]
  | setStatus other status =>
    rw [← Option.some.inj h]
    rfl
  | append other content =>
    obtain ⟨row, _, hrevisions, _⟩ := hr.eq_of_append? h
    have hne : other ≠ id := by simpa [Change.revises] using hother
    simp [hrevisions, hne]
  | restore other version =>
    obtain ⟨content, _, happend⟩ := Option.bind_eq_some_iff.mp h
    obtain ⟨row, _, hrevisions, _⟩ := hr.eq_of_append? happend
    have hne : other ≠ id := by simpa [Change.revises] using hother
    simp [hrevisions, hne]

/-- Only revisions move the version of an entity on. -/
theorem version_of_revises_eq_false (hr : r.Dense) (h : r.change? initial change = some r')
    (hother : change.revises id = false) {version : Nat}
    (hversion : (r.row? id).map Row.version = some version) :
    (r'.row? id).map Row.version = some version := by
  obtain ⟨row, hrow, rfl⟩ := Option.map_eq_some_iff.mp hversion
  cases change with
  | setStatus other status =>
    rw [hr.row?_of_change? h, hrow]
    simp only [Change.rowAfter]
    split <;> rfl
  | insert new origin createdAt content =>
    rw [hr.row?_of_altered?_ne h (by simp [Change.altered?]) hrow, Option.map_some]
  | append other _ | restore other _ =>
    have hne : other ≠ id := by simpa [Change.revises] using hother
    rw [hr.row?_of_altered?_ne h (by simpa [Change.altered?] using hne) hrow, Option.map_some]

end Change

/-! ## Many changes -/

section Changes

variable {changes : List (Change Status Origin Content)} {id : String}
  (hr : r.Dense) (h : r.changeAll? initial changes = some r')

include hr h

/-- Whose row or contents differ has been altered. -/
theorem exists_altered {row : Row Status Origin} (hrow : r.row? id = some row)
    (hdiffers : r'.row? id ≠ some row ∨ r'.revisionsOf id ≠ r.revisionsOf id) :
    ∃ change ∈ changes, change.altered? = some id := by
  by_contra hnone
  push Not at hnone
  have hkept : r'.row? id = some row ∧ r'.revisionsOf id = r.revisionsOf id := by
    refine hr.keeps_of_changeAll? h
      (fun r' => r'.row? id = some row ∧ r'.revisionsOf id = r.revisionsOf id) ?_ ⟨hrow, rfl⟩
    intro change hmem r₁ r₂ hr₁ h₁ ⟨hrow₁, hrevisions₁⟩
    have hunrevised : change.revises id = false := by
      by_contra hrevises
      exact hnone change hmem (Change.altered?_of_revises (by simpa using hrevises))
    refine ⟨hr₁.row?_of_altered?_ne h₁ (hnone change hmem) hrow₁, ?_⟩
    rw [hr₁.revisionsOf_of_revises_eq_false h₁ hunrevised (mem_ids_of_row? hrow₁), hrevisions₁]
  exact hdiffers.elim (fun hne => hne hkept.1) fun hne => hne hkept.2

/-- Whose version or contents differ has been revised. -/
theorem exists_revises {row : Row Status Origin} (hrow : r.row? id = some row)
    (hdiffers : (r'.row? id).map Row.version ≠ some row.version ∨
      r'.revisionsOf id ≠ r.revisionsOf id) :
    ∃ change ∈ changes, change.revises id = true := by
  by_contra hnone
  push Not at hnone
  have hkept : (r'.row? id).map Row.version = some row.version ∧
      r'.revisionsOf id = r.revisionsOf id := by
    refine hr.keeps_of_changeAll? h
      (fun r' => (r'.row? id).map Row.version = some row.version ∧
        r'.revisionsOf id = r.revisionsOf id) ?_ ⟨by rw [hrow, Option.map_some], rfl⟩
    intro change hmem r₁ r₂ hr₁ h₁ ⟨hversion₁, hrevisions₁⟩
    have hunrevised : change.revises id = false := by simpa using hnone change hmem
    obtain ⟨row₁, hrow₁, _⟩ := Option.map_eq_some_iff.mp hversion₁
    refine ⟨hr₁.version_of_revises_eq_false h₁ hunrevised hversion₁, ?_⟩
    rw [hr₁.revisionsOf_of_revises_eq_false h₁ hunrevised (mem_ids_of_row? hrow₁), hrevisions₁]
  exact hdiffers.elim (fun hne => hne hkept.1) fun hne => hne hkept.2

/-- Whose status differs has been given the new one. -/
theorem exists_setStatus {source target : Status} (hsource : r.status? id = some source)
    (htarget : r'.status? id = some target) (hne : target ≠ source) :
    Change.setStatus id target ∈ changes := by
  have hset : ∃ status, r'.status? id = some status ∧
      (status = source ∨ Change.setStatus id status ∈ changes) := by
    refine hr.keeps_of_changeAll? h
      (fun r' => ∃ status, r'.status? id = some status ∧
        (status = source ∨ Change.setStatus id status ∈ changes)) ?_ ⟨source, hsource, .inl rfl⟩
    rintro change hmem r₁ r₂ hr₁ h₁ ⟨status, hstatus, hfrom⟩
    rw [hr₁.status?_of_change? h₁, hstatus]
    cases change with
    | insert new origin createdAt content =>
      have hold : id ≠ new := by
        rintro rfl
        obtain ⟨row, hrow, _⟩ := Option.map_eq_some_iff.mp hstatus
        exact not_mem_ids_of_inserted? h₁ rfl (mem_ids_of_row? hrow)
      exact ⟨status, if_neg hold, hfrom⟩
    | setStatus other status' =>
      by_cases heq : id = other
      · exact ⟨status', if_pos heq, .inr (heq ▸ hmem)⟩
      · exact ⟨status, if_neg heq, hfrom⟩
    | append other _ | restore other _ => exact ⟨status, rfl, hfrom⟩
  obtain ⟨status, hstatus, hfrom⟩ := hset
  obtain rfl := Option.some.inj (htarget.symm.trans hstatus)
  exact hfrom.resolve_left hne

/-- What is new has been added, and comes from where it was said to. -/
theorem exists_insert (hnone : r.row? id = none) {row : Row Status Origin}
    (hrow : r'.row? id = some row) :
    ∃ createdAt content, Change.insert id row.origin createdAt content ∈ changes := by
  have hadded : ∀ row, r'.row? id = some row →
      ∃ createdAt content, Change.insert id row.origin createdAt content ∈ changes := by
    refine hr.keeps_of_changeAll? h (fun r' => ∀ row, r'.row? id = some row →
      ∃ createdAt content, Change.insert id row.origin createdAt content ∈ changes) ?_ ?_
    · intro change hmem r₁ r₂ hr₁ h₁ hadded₁ row₂ hrow₂
      rw [hr₁.row?_of_change? h₁] at hrow₂
      cases change with
      | insert new origin createdAt content =>
        by_cases heq : id = new
        · rw [Change.rowAfter, if_pos heq] at hrow₂
          obtain rfl := Option.some.inj hrow₂
          exact ⟨createdAt, content, heq ▸ hmem⟩
        · rw [Change.rowAfter, if_neg heq] at hrow₂
          exact hadded₁ row₂ hrow₂
      | setStatus other _ | append other _ | restore other _ =>
        simp only [Change.rowAfter] at hrow₂
        split at hrow₂
        · obtain ⟨row₁, hrow₁, rfl⟩ := Option.map_eq_some_iff.mp hrow₂
          exact hadded₁ row₁ hrow₁
        · exact hadded₁ row₂ hrow₂
    · intro row hsome
      rw [hnone] at hsome
      cases hsome
  exact hadded row hrow

end Changes

end Register.Dense

end Procurement

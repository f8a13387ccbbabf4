import Procurement.Proofs.Runs
import Mathlib.Data.List.Induction

/-!
# Versions count the revisions

Entities are revised by edits and rollbacks. A register accounts for a number of
revisions of each entity when it is dense and every version number is one more
than the number of revisions of its entity. After any run the registers account
for exactly the edits and rollbacks that were accepted in it.
-/

namespace Procurement

/-- Whether a change adds a version to what is there. -/
def Change.revises {Status Origin Content : Type} (id : String) :
    Change Status Origin Content → Bool
  | .append other _ => other == id
  | .restore other _ => other == id
  | _ => false

namespace Register

variable {Status Origin Content : Type} {r r' : Register Status Origin Content}

/-- A dense register in which every entity has one version more than it was revised. -/
structure Accounts (r : Register Status Origin Content) (revised : String → Nat) : Prop
    extends r.Dense where
  counted : ∀ {id row}, r.row? id = some row → row.version = 1 + revised id
  unrevised : ∀ {id}, r.row? id = none → revised id = 0

/-- Where there is nothing, nothing was revised. -/
theorem accounts_empty : ({} : Register Status Origin Content).Accounts fun _ => 0 where
  toDense := dense_empty
  counted h := by cases h
  unrevised _ := rfl

/-- Only what is there is revised. -/
theorem Dense.exists_row?_of_revises {initial : Status} {change : Change Status Origin Content}
    (hr : r.Dense) (h : r.change? initial change = some r') {id : String}
    (hrevises : change.revises id = true) : ∃ row, r.row? id = some row := by
  cases change with
  | insert => cases hrevises
  | setStatus => cases hrevises
  | append other content =>
    obtain rfl : other = id := by simpa [Change.revises] using hrevises
    obtain ⟨row, hrow, _⟩ := hr.eq_of_append? h
    exact ⟨row, hrow⟩
  | restore other version =>
    obtain rfl : other = id := by simpa [Change.revises] using hrevises
    obtain ⟨content, _, happend⟩ := Option.bind_eq_some_iff.mp h
    obtain ⟨row, hrow, _⟩ := hr.eq_of_append? happend
    exact ⟨row, hrow⟩

/-- A change keeps the account when the revision that it is, if any, is counted. -/
theorem Accounts.of_change? {initial : Status} {change : Change Status Origin Content}
    {revised : String → Nat} (hr : r.Accounts revised)
    (h : r.change? initial change = some r') :
    r'.Accounts fun id => revised id + if change.revises id then 1 else 0 where
  toDense := hr.toDense.of_change? h
  counted {id row'} hrow' := by
    rw [hr.row?_of_change? h] at hrow'
    cases change with
    | insert new origin createdAt content =>
      have hfresh : revised new = 0 := hr.unrevised (row?_eq_none_of_insert? h)
      simp only [Change.rowAfter] at hrow'
      split at hrow'
      · rename_i heq
        obtain rfl := Option.some.inj hrow'
        rw [heq, hfresh]
        rfl
      · exact hr.counted hrow'
    | setStatus other status =>
      simp only [Change.rowAfter] at hrow'
      split at hrow'
      · obtain ⟨row, hrow, rfl⟩ := Option.map_eq_some_iff.mp hrow'
        exact (hr.counted hrow :)
      · exact hr.counted hrow'
    | append other _ | restore other _ =>
      simp only [Change.rowAfter] at hrow'
      split at hrow'
      · rename_i heq
        obtain ⟨row, hrow, rfl⟩ := Option.map_eq_some_iff.mp hrow'
        simp only [Change.revises, heq, beq_self_eq_true, if_true, ← Nat.add_assoc]
        rw [hr.counted hrow, heq]
      · rename_i hne
        simp only [Change.revises, beq_eq_false_iff_ne.mpr (Ne.symm hne)]
        exact hr.counted hrow'
  unrevised {id} hnone := by
    have hids := ids_of_change? h
    have hold : r.row? id = none := by
      rw [row?_eq_none_iff] at hnone ⊢
      rw [hids] at hnone
      exact fun hmem => hnone (List.mem_append_left _ hmem)
    have hother : change.revises id = false := by
      by_contra hrevises
      obtain ⟨row, hrow⟩ := hr.exists_row?_of_revises h (by simpa using hrevises)
      exact absurd (hold.symm.trans hrow) (by simp)
    rw [hr.unrevised hold, hother]
    rfl

/-- So do changes, when the revisions among them are counted. -/
theorem Accounts.of_changeAll? {initial : Status} {changes : List (Change Status Origin Content)}
    {revised : String → Nat} (hr : r.Accounts revised)
    (h : r.changeAll? initial changes = some r') :
    r'.Accounts fun id => revised id + changes.countP fun change => change.revises id := by
  induction changes generalizing r revised with
  | nil => exact Option.some.inj h ▸ hr
  | cons change rest ih =>
    obtain ⟨next, hnext, hrest⟩ := Option.bind_eq_some_iff.mp h
    have hsum (id : String) : revised id + (if change.revises id then 1 else 0) +
        rest.countP (fun change => change.revises id) =
          revised id + (change :: rest).countP fun change => change.revises id := by
      rw [List.countP_cons]
      omega
    simpa only [hsum] using ih (hr.of_change? hnext) hrest

end Register

/-- Whether an operation on the entities of one kind revises the entity. -/
def CatalogueOperation.revises {Status Content : Type} (id : String) :
    CatalogueOperation Status Content → Bool
  | .edit other _ => other == id
  | .rollback other _ => other == id
  | _ => false

/-- Whether a request is an edit or a rollback of the tender. -/
def Request.revisesTender (id : String) : Request → Bool
  | .operation (.editTender _ other _) => other == id
  | .operation (.rollbackTender _ other _) => other == id
  | .store (.onTenders op) => op.revises id
  | _ => false

/-- Whether a request is an edit or a rollback of the bid. -/
def Request.revisesBid (id : String) : Request → Bool
  | .operation (.editBid _ other _) => other == id
  | .operation (.rollbackBid _ other _) => other == id
  | .store (.onBids op) => op.revises id
  | _ => false

/-- How many of the changes revise the entity. -/
abbrev Change.revisions {Status Origin Content : Type} (id : String)
    (changes : List (Change Status Origin Content)) : Nat :=
  changes.countP fun change => change.revises id

section Writes

variable {Status Origin Content : Type} {c : Catalogue Status Origin Content}
  {write : Change Status Origin Content → Write}

/-- One change counts as one revision or none. -/
theorem Change.revisions_singleton (id : String) (change : Change Status Origin Content) :
    Change.revisions id [change] = if change.revises id then 1 else 0 := by
  rw [revisions, List.countP_singleton]

/-- What is only done for a known username revises nothing if it revises nothing for any user. -/
theorem Market.revisions_writesOf (m : Market) (username : String) {write : String → Write}
    {part : Write → List (Change Status Origin Content)} {id : String}
    (h : ∀ userId, Change.revisions id (part (write userId)) = 0) :
    Change.revisions id ((m.writesOf username write).flatMap part) = 0 := by
  unfold writesOf
  cases m.caches.users.value? username with
  | none => rfl
  | some userId => simpa using h userId

/-- Feedback revises nothing. -/
theorem Market.revisions_feedbackWrites (m : Market) (actor bidId content : String)
    {part : Write → List (Change Status Origin Content)} {id : String}
    (h : ∀ feedback, Change.revisions id (part (.feedback feedback)) = 0) :
    Change.revisions id ((m.feedbackWrites actor bidId content).flatMap part) = 0 := by
  unfold feedbackWrites
  cases m.tables.bids.row? bidId with
  | none => rfl
  | some row =>
    simp only [Option.toList_some, List.flatMap_singleton]
    exact m.revisions_writesOf actor fun _ => h _

variable [DecidableEq Status]

/-- The writes to one catalogue are none to the other. -/
theorem CatalogueOperation.flatMap_writes_eq_nil {Change' : Type} {part : Write → List Change'}
    (hpart : ∀ change, part (write change) = []) (m : Market)
    (op : CatalogueOperation Status Content) : (op.writes c write m).flatMap part = [] := by
  refine List.flatMap_eq_nil_iff.mpr fun w hw => ?_
  obtain ⟨change, _, rfl, _⟩ := exists_of_mem_writes hw
  exact hpart change

/-- An operation on a catalogue that is carried out adds one version to what it revises, and to
nothing else. -/
theorem CatalogueOperation.revisions_writes {part : Write → List (Change Status Origin Content)}
    (hpart : ∀ change, part (write change) = [change]) (m : Market)
    (op : CatalogueOperation Status Content) (id : String) :
    Change.revisions id ((op.writes c write m).flatMap part) = if op.revises id then 1 else 0 := by
  cases op with
  | setStatus other target =>
    simp only [writes, List.flatMap_singleton, hpart]
    rfl
  | setStatusFrom sources other target | setStatusIfPublished other target =>
    simp only [writes, Catalogue.transitionWrites]
    split
    · simp only [List.flatMap_singleton, hpart]
      rfl
    · rfl
  | edit other _ | rollback other _ =>
    simp only [writes, List.flatMap_singleton, hpart]
    exact Change.revisions_singleton id _
  | _ => rfl

end Writes

/-- An accepted request adds one version to each tender and each bid that it revises, and to no
other. -/
theorem Request.revisions_writes (m : Market) (request : Request) (id : String) :
    Change.revisions id ((request.writes m).flatMap Write.tenderChanges) =
        (if request.revisesTender id then 1 else 0) ∧
      Change.revisions id ((request.writes m).flatMap Write.bidChanges) =
        (if request.revisesBid id then 1 else 0) := by
  cases request with
  | operation op =>
    cases op with
    | makeResponsible _ username =>
      exact ⟨m.revisions_writesOf username fun _ => rfl, m.revisions_writesOf username fun _ => rfl⟩
    | createTender actor _ _ =>
      exact ⟨m.revisions_writesOf actor fun _ => rfl, m.revisions_writesOf actor fun _ => rfl⟩
    | submitFeedback actor bidId content =>
      exact ⟨m.revisions_feedbackWrites actor bidId content fun _ => rfl,
        m.revisions_feedbackWrites actor bidId content fun _ => rfl⟩
    | submitDecision actor bidId decision =>
      simp only [writes, Operation.writes, Market.decisionWrites, Market.closingWrites]
      cases m.tables.bids.row? bidId <;> cases decision <;> exact ⟨rfl, rfl⟩
    | editTender _ other _ | rollbackTender _ other _ =>
      exact ⟨Change.revisions_singleton id _, rfl⟩
    | editBid _ other _ | rollbackBid _ other _ =>
      exact ⟨rfl, Change.revisions_singleton id _⟩
    | _ => exact ⟨rfl, rfl⟩
  | store op =>
    cases op with
    | insertTender _ creator _ =>
      exact ⟨m.revisions_writesOf creator fun _ => rfl, m.revisions_writesOf creator fun _ => rfl⟩
    | decideIfPublished bidId target =>
      simp only [writes, StoreOperation.writes, Catalogue.transitionWrites]
      split <;> exact ⟨rfl, rfl⟩
    | onTenders op =>
      have hnone : (op.writes tenders .tender m).flatMap Write.bidChanges = [] :=
        op.flatMap_writes_eq_nil (fun _ => rfl) m
      exact ⟨op.revisions_writes (fun _ => rfl) m id, congrArg (Change.revisions id) hnone⟩
    | onBids op =>
      have hnone : (op.writes bids .bid m).flatMap Write.tenderChanges = [] :=
        op.flatMap_writes_eq_nil (fun _ => rfl) m
      exact ⟨congrArg (Change.revisions id) hnone, op.revisions_writes (fun _ => rfl) m id⟩
    | _ => exact ⟨rfl, rfl⟩
  | feedback op => cases op <;> exact ⟨rfl, rfl⟩
  | _ => exact ⟨rfl, rfl⟩

namespace Session

/-- Whether a step is an accepted request of some kind, given its answer. -/
def isAccepted (kind : Request → Bool) : Step × Option Reply → Bool
  | (.request _ request, some (.ok _)) => kind request
  | _ => false

/-- A step revises a tender or a bid once if it is an accepted edit or rollback of it, and never
otherwise. -/
theorem revisions_writes (s : Session) (step : Step) (id : String) :
    Change.revisions id ((s.writes step).flatMap Write.tenderChanges) =
        (if isAccepted (Request.revisesTender id) (step, (s.step step).1) then 1 else 0) ∧
      Change.revisions id ((s.writes step).flatMap Write.bidChanges) =
        (if isAccepted (Request.revisesBid id) (step, (s.step step).1) then 1 else 0) := by
  unfold writes isAccepted
  cases step with
  | request offered request =>
    cases (s.step (.request offered request)).1 with
    | none => exact ⟨rfl, rfl⟩
    | some reply =>
      cases reply with
      | error refusal => exact ⟨rfl, rfl⟩
      | ok answer =>
        exact request.revisions_writes _ id
  | _ => exact ⟨rfl, rfl⟩

/-- How often a request of some kind was accepted in a run. -/
def acceptedCount (s : Session) (steps : List Step) (kind : Request → Bool) : Nat :=
  (s.transcript steps).countP (isAccepted kind)

/-- One more step is counted if it is an accepted request of the kind. -/
theorem acceptedCount_concat (s : Session) (steps : List Step) (step : Step)
    (kind : Request → Bool) :
    s.acceptedCount (steps ++ [step]) kind = s.acceptedCount steps kind +
      if isAccepted kind (step, ((s.after steps).step step).1) then 1 else 0 := by
  unfold acceptedCount
  rw [transcript_concat, List.countP_append, List.countP_singleton]

/-- After any run on a fresh database the registers account for the accepted edits and rollbacks
in it. -/
theorem accounts_after (stage : Stage) (decisionLimit : Option UInt64) (steps : List Step) :
    let s := fresh stage decisionLimit
    (s.after steps).market.tables.tenders.Accounts
        (fun id => s.acceptedCount steps (Request.revisesTender id)) ∧
      (s.after steps).market.tables.bids.Accounts
        (fun id => s.acceptedCount steps (Request.revisesBid id)) := by
  intro s
  induction steps using List.reverseRecOn with
  | nil => exact ⟨Register.accounts_empty, Register.accounts_empty⟩
  | append_singleton steps step ih =>
    obtain ⟨htenders, hbids⟩ := ih
    obtain ⟨n, hn, htables, _⟩ :=
      exists_writeAll? (sound_after (sound_fresh stage decisionLimit) steps) step
    obtain ⟨htenderChanges, hbidChanges⟩ := Market.registers_of_writeAll? hn
    have hcount := revisions_writes (s.after steps) step
    rw [after_concat, ← htables]
    constructor
    · simpa only [acceptedCount_concat, ← (hcount _).1] using htenders.of_changeAll? htenderChanges
    · simpa only [acceptedCount_concat, ← (hcount _).2] using hbids.of_changeAll? hbidChanges

/-- No step takes a version away or changes what it says. -/
theorem revisions_prefix_after {s : Session} (hs : s.market.Sound) (steps : List Step) :
    s.market.tables.tenders.revisions <+: (s.after steps).market.tables.tenders.revisions ∧
      s.market.tables.bids.revisions <+: (s.after steps).market.tables.bids.revisions := by
  induction steps generalizing s with
  | nil => exact ⟨List.prefix_rfl, List.prefix_rfl⟩
  | cons step rest ih =>
    obtain ⟨n, hn, htables, _⟩ := exists_writeAll? hs step
    obtain ⟨htenderChanges, hbidChanges⟩ := Market.registers_of_writeAll? hn
    obtain ⟨htenders, hbids⟩ := ih (sound_step hs step)
    rw [← htables] at htenders hbids
    exact ⟨(hs.tenders.revisions_prefix_of_changeAll? htenderChanges).trans htenders,
      (hs.bids.revisions_prefix_of_changeAll? hbidChanges).trans hbids⟩

/-- After any run on a fresh database every tender and every bid has exactly the versions from
one to the version its row points at, which is one more than the number of its accepted edits
and rollbacks; and all versions are kept by whatever comes later. -/
theorem versions_count_revisions (stage : Stage) (decisionLimit : Option UInt64)
    (steps more : List Step) :
    let s := fresh stage decisionLimit
    let tables := (s.after steps).market.tables
    let later := (s.after (steps ++ more)).market.tables
    tables.tenders.Accounts (fun id => s.acceptedCount steps (Request.revisesTender id)) ∧
      tables.bids.Accounts (fun id => s.acceptedCount steps (Request.revisesBid id)) ∧
      tables.tenders.revisions <+: later.tenders.revisions ∧
      tables.bids.revisions <+: later.bids.revisions := by
  intro s tables later
  obtain ⟨htenders, hbids⟩ := accounts_after stage decisionLimit steps
  have hkept := revisions_prefix_after (sound_after (sound_fresh stage decisionLimit) steps) more
  rw [← after_append] at hkept
  exact ⟨htenders, hbids, hkept⟩

end Session

end Procurement

import Procurement.Proofs.Approvals
import Procurement.Proofs.Authority
import Procurement.Proofs.Chronicle

/-!
# What a step may change

A step changes at most one tender or bid, its target: the one that its request names,
or the one that it creates. Only an approval goes further, for it also closes the tender of the
bid. Whatever else is stored of tenders and bids, rows and contents, stays as it was.
-/

namespace Procurement

/-- A tender or a bid. -/
inductive Target where
  | tender (id : String)
  | bid (id : String)
  deriving DecidableEq

/-! ## The targets of requests -/

/-- The tender or bid that an operation may change: the one that it names, or creates. -/
def Operation.target? (m : Market) : Operation → Option Target
  | createTender _ _ _ => some (.tender m.ids.draw.1)
  | setTenderStatus _ id _ | editTender _ id _ | rollbackTender _ id _ => some (.tender id)
  | createBid _ _ _ => some (.bid m.ids.draw.1)
  | setBidStatus _ id _ | editBid _ id _ | rollbackBid _ id _ | submitDecision _ id _ =>
    some (.bid id)
  | _ => none

/-- The tender or bid that an operation behind the services may change. -/
def StoreOperation.target? (m : Market) : StoreOperation → Option Target
  | insertTender _ _ _ => some (.tender m.ids.draw.1)
  | onTenders op => op.target?.map .tender
  | insertBid _ _ _ => some (.bid m.ids.draw.1)
  | decideIfPublished id _ => some (.bid id)
  | onBids op => op.target?.map .bid
  | _ => none

/-- The tender or bid that a request may change. -/
def Request.target? (m : Market) : Request → Option Target
  | operation op => op.target? m
  | store op => op.target? m
  | _ => none

/-- The tender or bid that a step may change. -/
def Session.target? (s : Session) : Step → Option Target
  | .request offered request => request.target? (s.market.offer offered)
  | _ => none

/-! ## The targets of changes -/

section Change

variable {Status Origin Content : Type}

/-- The entity that a change adds or alters. -/
def Change.target : Change Status Origin Content → String
  | .insert id _ _ _ | .setStatus id _ | .append id _ | .restore id _ => id

/-- A change that alters an entity has it for its target. -/
theorem Change.target_of_altered? {change : Change Status Origin Content} {id : String}
    (h : change.altered? = some id) : change.target = id := by
  cases change with
  | insert => cases h
  | setStatus | append | restore => exact Option.some.inj h

/-- A change leaves the chronicle of whatever is not its target. -/
theorem Change.chronicleAfter_of_target_ne {change : Change Status Origin Content} {id : String}
    (h : change.target ≠ id) (initial : Status) (x? : Option (Chronicle Status Origin Content)) :
    change.chronicleAfter initial id x? = x? := by
  cases change <;> exact if_neg h.symm

end Change

/-- The tender or bid that a write adds or alters. -/
def Write.target? : Write → Option Target
  | .tender change => some (.tender change.target)
  | .bid change => some (.bid change.target)
  | _ => none

/-- An operation behind the services writes to its target alone. -/
theorem StoreOperation.target?_of_mem_writes {m : Market} {op : StoreOperation} {write : Write}
    (h : write ∈ op.writes m) : write.target? = op.target? m := by
  cases op with
  | insertTender organizationId creator content =>
    obtain ⟨creatorId, _, rfl⟩ := Market.exists_of_mem_writesOf h
    rfl
  | insertBid tenderId author content =>
    rw [List.mem_singleton.mp h]
    rfl
  | onTenders op =>
    obtain ⟨change, id, rfl, haltered, htarget⟩ := op.exists_of_mem_writes h
    simp only [Write.target?, target?, htarget, Change.target_of_altered? haltered,
      Option.map_some]
  | onBids op =>
    obtain ⟨change, id, rfl, haltered, htarget⟩ := op.exists_of_mem_writes h
    simp only [Write.target?, target?, htarget, Change.target_of_altered? haltered,
      Option.map_some]
  | decideIfPublished bidId target =>
    simp only [writes, Catalogue.transitionWrites] at h
    split at h
    · rw [List.mem_singleton.mp h]
      rfl
    · cases h
  | _ => cases h

/-- An operation changes no tender but its target and the one that it closes. -/
theorem Operation.target_of_mem_tenderChanges {m : Market} {op : Operation}
    {change : Change TenderStatus TenderOrigin TenderContent} (h : change ∈ op.tenderChanges m) :
    op.target? m = some (.tender change.target) ∨ op.approves m.tables change.target = true := by
  cases op with
  | createTender actor organizationId content =>
    obtain ⟨creatorId, _, rfl⟩ := List.mem_map.mp h
    exact .inl rfl
  | setTenderStatus | editTender | rollbackTender =>
    rw [List.mem_singleton.mp h]
    exact .inl rfl
  | submitDecision actor bidId decision =>
    cases decision with
    | approve =>
      obtain ⟨tenderId, htender, rfl⟩ := List.mem_map.mp h
      exact .inr (beq_iff_eq.mpr (Option.mem_toList.mp htender))
    | reject => cases h
  | _ => cases h

/-- An operation changes no bid but its target. -/
theorem Operation.target_of_mem_bidChanges {m : Market} {op : Operation}
    {change : Change BidStatus BidOrigin BidContent} (h : change ∈ op.bidChanges m) :
    op.target? m = some (.bid change.target) := by
  cases op with
  | createBid | setBidStatus | editBid | rollbackBid | submitDecision =>
    rw [List.mem_singleton.mp h]
    rfl
  | _ => cases h

/-- All that an approval changes of tenders is that it closes one. -/
theorem Operation.tenderChanges_of_approves {m : Market} {op : Operation} {tenderId : String}
    (h : op.approves m.tables tenderId = true) :
    op.tenderChanges m = [.setStatus tenderId .closed] := by
  cases op with
  | submitDecision actor bidId decision =>
    cases decision with
    | approve =>
      have htender : m.tables.tenderOfBid? bidId = some tenderId := beq_iff_eq.mp h
      simp only [tenderChanges, htender, Option.toList_some, List.map_cons, List.map_nil]
    | reject => cases h
  | _ => cases h

/-! ## What stays as it was -/

namespace Register

variable {Status Origin Content : Type} {r r' : Register Status Origin Content}

/-- Neither the row nor the contents of an entity differ between two registers. -/
structure Keeps (r r' : Register Status Origin Content) (id : String) : Prop where
  row : r'.row? id = r.row? id
  revisions : r'.revisionsOf id = r.revisionsOf id

/-- What has the same chronicle has the same row and contents. -/
theorem Dense.keeps_of_chronicle?_eq (hr : r.Dense) (hr' : r'.Dense) {id : String}
    (h : r'.chronicle? id = r.chronicle? id) : r.Keeps r' id where
  row := by rw [hr.row?_eq_map, hr'.row?_eq_map, h]
  revisions := by
    cases hx : r.chronicle? id with
    | some x => rw [hr.revisionsOf_of_chronicle? hx, hr'.revisionsOf_of_chronicle? (h.trans hx)]
    | none =>
      have hnone : r.row? id = none := by rw [hr.row?_eq_map, hx, Option.map_none]
      have hnone' : r'.row? id = none := by rw [hr'.row?_eq_map, h, hx, Option.map_none]
      rw [hr.revisionsOf_eq_nil hnone, hr'.revisionsOf_eq_nil hnone']

/-- Changes keep whatever is not their target. -/
theorem Dense.keeps_of_target_ne {initial : Status} {changes : List (Change Status Origin Content)}
    (hr : r.Dense) (h : r.changeAll? initial changes = some r') {id : String}
    (hother : ∀ change ∈ changes, change.target ≠ id) : r.Keeps r' id := by
  refine hr.keeps_of_chronicle?_eq (hr.of_changeAll? h) ?_
  refine hr.keeps_of_changeAll? h (fun r' => r'.chronicle? id = r.chronicle? id) ?_ rfl
  intro change hmem r₁ r₂ hr₁ h₁ hkept
  rw [hr₁.chronicle?_of_change? h₁, Change.chronicleAfter_of_target_ne (hother change hmem), hkept]

end Register

/-- Two states of the tables differ in at most one tender or bid, and beside that in the status of
the tenders that were closed in between. -/
structure Tables.DiffersIn (t t' : Tables) (target? : Option Target) (closes : String → Bool) :
    Prop where
  tender : ∀ id, target? ≠ some (.tender id) → closes id = false → t.tenders.Keeps t'.tenders id
  bid : ∀ id, target? ≠ some (.bid id) → t.bids.Keeps t'.bids id
  closedRow : ∀ id, closes id = true →
    t'.tenders.row? id = (t.tenders.row? id).map fun row => { row with status := .closed }
  closedRevisions : ∀ id, closes id = true → t'.tenders.revisionsOf id = t.tenders.revisionsOf id

namespace Session

variable {s : Session} {step : Step}

/-- A step changes no tender but its target and the one that it closes. -/
theorem target_of_mem_tenderChanges {change : Change TenderStatus TenderOrigin TenderContent}
    (h : change ∈ (s.writes step).flatMap Write.tenderChanges) :
    s.target? step = some (.tender change.target) ∨ s.approves change.target step = true := by
  rcases s.writes_cases step with hnone | ⟨offered, request, answer, rfl, hanswer, hwrites⟩
  · rw [hnone] at h
    cases h
  · rw [hwrites] at h
    cases request with
    | operation op =>
      have hop : change ∈ op.tenderChanges (s.market.offer offered) :=
        op.flatMap_tenderChanges _ ▸ h
      simp only [approves, hanswer]
      exact Operation.target_of_mem_tenderChanges hop
    | store op =>
      exact .inl (StoreOperation.target?_of_mem_writes (Write.mem_of_mem_tenderChanges h)).symm
    | feedback op => cases op <;> cases h
    | _ => cases h

/-- A step changes no bid but its target. -/
theorem target_of_mem_bidChanges {change : Change BidStatus BidOrigin BidContent}
    (h : change ∈ (s.writes step).flatMap Write.bidChanges) :
    s.target? step = some (.bid change.target) := by
  rcases s.writes_cases step with hnone | ⟨offered, request, answer, rfl, hanswer, hwrites⟩
  · rw [hnone] at h
    cases h
  · rw [hwrites] at h
    cases request with
    | operation op =>
      have hop : change ∈ op.bidChanges (s.market.offer offered) := op.flatMap_bidChanges _ ▸ h
      exact Operation.target_of_mem_bidChanges hop
    | store op =>
      exact (StoreOperation.target?_of_mem_writes (Write.mem_of_mem_bidChanges h)).symm
    | feedback op => cases op <;> cases h
    | _ => cases h

/-- All that an accepted approval changes of tenders is that it closes the one of the bid. -/
theorem tenderChanges_of_approves {tenderId : String} (h : s.approves tenderId step = true) :
    (s.writes step).flatMap Write.tenderChanges = [.setStatus tenderId .closed] := by
  unfold approves at h
  split at h
  · rename_i offered op answer hanswer
    rw [writes_of_accepted hanswer]
    exact (op.flatMap_tenderChanges _).trans (Operation.tenderChanges_of_approves h)
  · cases h

/-- No step changes more than the tender or bid that it is about, but for an approval, which also
closes the tender of the bid. -/
theorem differsIn_step (hs : s.market.Sound) (step : Step) :
    s.market.tables.DiffersIn (s.step step).2.market.tables (s.target? step)
      (fun tenderId => s.approves tenderId step) := by
  obtain ⟨n, hn, htables, _⟩ := exists_writeAll? hs step
  obtain ⟨htenders, hbids⟩ := Market.registers_of_writeAll? hn
  have hclosed (tenderId : String) (happroved : s.approves tenderId step = true) :
      n.tables.tenders = s.market.tables.tenders.setStatus tenderId .closed := by
    rw [tenderChanges_of_approves happroved] at htenders
    exact (Option.some.inj htenders).symm
  rw [← htables]
  constructor
  case tender =>
    intro id htarget hopen
    refine hs.tenders.keeps_of_target_ne htenders fun change hmem => ?_
    rintro rfl
    rcases target_of_mem_tenderChanges hmem with hchanged | happroved
    · exact htarget hchanged
    · rw [hopen] at happroved
      cases happroved
  case bid =>
    intro id htarget
    refine hs.bids.keeps_of_target_ne hbids fun change hmem => ?_
    rintro rfl
    exact htarget (target_of_mem_bidChanges hmem)
  case closedRow =>
    intro id happroved
    rw [hclosed id happroved, Register.row?_setStatus, if_pos rfl]
  case closedRevisions =>
    intro id happroved
    rw [hclosed id happroved]
    rfl

end Session

end Procurement

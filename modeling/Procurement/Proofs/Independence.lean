import Procurement.Proofs.Interchange
import Procurement.Proofs.Objections

/-!
# Status and content

Of a tender or a bid the status is changed apart from the content. Whether the one may be changed is
judged without regard to the other, and what either writes interchanges with what the other writes.
So an operation that changes a status and one that changes content come to the same in either
order, and each is answered or refused as if the other had not been there.
-/

namespace Procurement

/-! ## What changes of one kind keep -/

namespace Register

variable {Status Origin Content : Type} {r r' : Register Status Origin Content}
  {initial : Status} {change : Change Status Origin Content}

/-- A change that adds nothing keeps all births. -/
theorem births_of_quiet (hquiet : change.inserted? = none)
    (h : r.change? initial change = some r') : r'.births = r.births := by
  cases change with
  | insert => cases hquiet
  | _ => exact (births_of_change? h).trans (List.append_nil _)

/-- A change of status keeps all versions. -/
theorem revisions_of_setsStatus (hchange : change.setsStatus = true)
    (h : r.change? initial change = some r') : r'.revisions = r.revisions := by
  cases change with
  | setStatus id status =>
    obtain rfl := Option.some.inj h
    rfl
  | _ => cases hchange

/-- A new version keeps the status of every entity. -/
theorem status?_of_append? {id : String} {content : Content} (h : r.append? id content = some r')
    (other : String) : r'.status? other = r.status? other := by
  obtain ⟨latest, _, rfl⟩ := Option.map_eq_some_iff.mp h
  unfold status?
  rw [row?_mapRow (fun row => { row with version := latest + 1 }) fun _ => rfl]
  split
  · rw [Option.map_map]
    rfl
  · rfl

/-- What adds a version keeps the status of every entity. -/
theorem status?_of_addsVersion (hchange : change.addsVersion = true)
    (h : r.change? initial change = some r') (id : String) : r'.status? id = r.status? id := by
  cases change with
  | append other content => exact status?_of_append? h id
  | restore other version =>
    obtain ⟨content, _, happend⟩ := Option.bind_eq_some_iff.mp h
    exact status?_of_append? happend id
  | _ => cases hchange

/-- Where the births are the same, entities come from the same. -/
theorem origin?_congr (h : r'.births = r.births) (id : String) : r'.origin? id = r.origin? id := by
  have hborn (r : Register Status Origin Content) :
      r.origin? id = (r.births.find? fun birth => birth.id == id).map Birth.origin := by
    rw [← map_birth_row?, Option.map_map]
    rfl
  rw [hborn r', hborn r, h]

end Register

/-! ## What the objections see -/

/-- What the tables hold about people. -/
def Tables.people (t : Tables) : Tables where
  users := t.users
  responsibilities := t.responsibilities

namespace Tables

variable {t t' t'' : Tables}

/-- The same people are stored, and the same tenders and bids, whatever becomes of them. -/
structure AgreeOnOrigins (t t' : Tables) : Prop where
  people : t'.people = t.people
  tenders : t'.tenders.births = t.tenders.births
  bids : t'.bids.births = t.bids.births

/-- The same tenders and bids are stored, with the same statuses. -/
structure AgreeOnStatuses (t t' : Tables) : Prop extends AgreeOnOrigins t t' where
  tenderStatus : ∀ id, t'.tenders.status? id = t.tenders.status? id
  bidStatus : ∀ id, t'.bids.status? id = t.bids.status? id

/-- The same tenders and bids are stored, with the same versions of their contents. -/
structure AgreeOnRevisions (t t' : Tables) : Prop extends AgreeOnOrigins t t' where
  tenderRevisions : t'.tenders.revisions = t.tenders.revisions
  bidRevisions : t'.bids.revisions = t.bids.revisions

/-- Tables agree with themselves on statuses. -/
theorem AgreeOnStatuses.refl (t : Tables) : t.AgreeOnStatuses t where
  people := rfl
  tenders := rfl
  bids := rfl
  tenderStatus _ := rfl
  bidStatus _ := rfl

/-- Tables agree with themselves on versions. -/
theorem AgreeOnRevisions.refl (t : Tables) : t.AgreeOnRevisions t where
  people := rfl
  tenders := rfl
  bids := rfl
  tenderRevisions := rfl
  bidRevisions := rfl

/-- What adds a version leaves tables that agree on statuses. -/
theorem AgreeOnStatuses.applyTo? (h : t.AgreeOnStatuses t') {write : Write}
    (hwrite : write.addsVersion = true) (happlied : write.applyTo? t' = some t'') :
    t.AgreeOnStatuses t'' := by
  cases write with
  | tender change =>
    have hquiet := Change.inserted?_of_addsVersion hwrite
    obtain ⟨register, hregister, rfl⟩ := Catalogue.exists_of_change? happlied
    exact { h with
      tenders := (Register.births_of_quiet hquiet hregister).trans h.tenders
      tenderStatus := fun id =>
        (Register.status?_of_addsVersion hwrite hregister id).trans (h.tenderStatus id) }
  | bid change =>
    have hquiet := Change.inserted?_of_addsVersion hwrite
    obtain ⟨register, hregister, rfl⟩ := Catalogue.exists_of_change? happlied
    exact { h with
      bids := (Register.births_of_quiet hquiet hregister).trans h.bids
      bidStatus := fun id =>
        (Register.status?_of_addsVersion hwrite hregister id).trans (h.bidStatus id) }
  | _ => cases hwrite

/-- What sets a status leaves tables that agree on versions. -/
theorem AgreeOnRevisions.applyTo? (h : t.AgreeOnRevisions t') {write : Write}
    (hwrite : write.setsStatus = true) (happlied : write.applyTo? t' = some t'') :
    t.AgreeOnRevisions t'' := by
  cases write with
  | tender change =>
    have hquiet := Change.inserted?_of_setsStatus hwrite
    obtain ⟨register, hregister, rfl⟩ := Catalogue.exists_of_change? happlied
    exact { h with
      tenders := (Register.births_of_quiet hquiet hregister).trans h.tenders
      tenderRevisions :=
        (Register.revisions_of_setsStatus hwrite hregister).trans h.tenderRevisions }
  | bid change =>
    have hquiet := Change.inserted?_of_setsStatus hwrite
    obtain ⟨register, hregister, rfl⟩ := Catalogue.exists_of_change? happlied
    exact { h with
      bids := (Register.births_of_quiet hquiet hregister).trans h.bids
      bidRevisions := (Register.revisions_of_setsStatus hwrite hregister).trans h.bidRevisions }
  | _ => cases hwrite

/-- Why a decision about a bid is refused whoever makes it: the bid is not published, or its tender
is not and the bid would be approved. -/
def publicationObjection? (t : Tables) (bidId : String) (decision : Decision) :
    Option MarketError :=
  (t.bids.origin? bidId).bind fun origin =>
    if t.bids.status? bidId ≠ some .published then some (.bidNotPublished bidId)
    else if decision = .approve ∧ t.tenders.status? origin.tenderId ≠ some .published then
      some (.tenderNotPublished origin.tenderId)
    else none

section Origins

variable (h : t.AgreeOnOrigins t')

include h

/-- Whether someone acts for an organization is judged by origins alone. -/
theorem AgreeOnOrigins.actorObjection? (actor organizationId : String) :
    t'.actorObjection? actor organizationId = t.actorObjection? actor organizationId := by
  have hpeople (t : Tables) : t.actorObjection? actor organizationId =
      t.people.actorObjection? actor organizationId := rfl
  rw [hpeople t', hpeople t, h.people]

/-- Whether someone acts for a tender is judged by origins alone. -/
theorem AgreeOnOrigins.memberObjection? (actor id : String) :
    t'.memberObjection? actor id = t.memberObjection? actor id := by
  unfold Tables.memberObjection?
  rw [Register.origin?_congr h.tenders]
  cases t.tenders.origin? id with
  | none => rfl
  | some origin => exact h.actorObjection? actor origin.organizationId

/-- Whether someone is the author of a bid is judged by origins alone. -/
theorem AgreeOnOrigins.authorObjection? (actor id : String) :
    t'.authorObjection? actor id = t.authorObjection? actor id := by
  unfold Tables.authorObjection?
  rw [Register.origin?_congr h.bids]
  cases t.bids.origin? id with
  | none => rfl
  | some origin =>
    have hpeople := congrArg (fun people : Tables =>
      if ∀ user ∈ people.users, user.username ≠ actor then some (MarketError.notFound .user actor)
      else if ¬ people.Authored actor origin.author then some (MarketError.notAuthor actor id)
      else none) h.people
    exact hpeople

/-- Whether someone may decide on a bid is judged by origins alone. -/
theorem AgreeOnOrigins.issuerObjection? (actor bidId : String) :
    t'.issuerObjection? actor bidId = t.issuerObjection? actor bidId := by
  have hissued (t : Tables) : t.organizationOfBid? bidId = (t.bids.origin? bidId).bind fun origin =>
      (t.tenders.origin? origin.tenderId).map TenderOrigin.organizationId := by
    unfold organizationOfBid? Register.origin?
    cases t.bids.row? bidId with
    | none => rfl
    | some bid => cases htender : t.tenders.row? bid.origin.tenderId <;> simp [htender]
  unfold Tables.issuerObjection?
  rw [hissued t', hissued t, Register.origin?_congr h.bids]
  simp only [Register.origin?_congr h.tenders, h.actorObjection?]

end Origins

/-- Whether a bid may get another status is judged by statuses alone. -/
theorem AgreeOnStatuses.moveObjection? (h : t.AgreeOnStatuses t') (bidId : String)
    (target : BidStatus) : t'.moveObjection? bidId target = t.moveObjection? bidId target := by
  unfold Tables.moveObjection?
  rw [h.bidStatus]

/-- Whether a bid can be decided now is judged by statuses alone. -/
theorem AgreeOnStatuses.publicationObjection? (h : t.AgreeOnStatuses t') (bidId : String)
    (decision : Decision) :
    t'.publicationObjection? bidId decision = t.publicationObjection? bidId decision := by
  unfold Tables.publicationObjection?
  rw [Register.origin?_congr h.bids]
  simp only [h.bidStatus, h.tenderStatus]

end Tables

/-- Whether there is a version to go back to is judged by the versions alone. -/
theorem Register.versionObjection?_congr {Status Origin Content : Type}
    {r r' : Register Status Origin Content} (h : r'.revisions = r.revisions) (kind : EntityKind)
    (id : String) (version : Int) :
    r'.versionObjection? kind id version = r.versionObjection? kind id version := by
  unfold versionObjection? revisionsOf
  rw [h]

namespace Market

variable {m n : Market}

/-! ## Decisions in time or not -/

/-- Why any decision is refused: at a slow pace it exceeds its limit. -/
def deadlineObjection? (m : Market) : Option MarketError :=
  if m.slow then m.decisionLimit.map (.deadlineExceeded "decision_transaction") else none

/-- A decision can be made in time unless a slow pace meets a limit. -/
theorem deadlineObjection?_eq_none_iff :
    m.deadlineObjection? = none ↔ (m.slow = true → m.decisionLimit = none) := by
  unfold deadlineObjection?
  cases m.slow <;> simp

/-- What exceeds its limit is refused for it, with the limit. -/
theorem deadlineObjection?_eq_some_iff {refusal : MarketError} :
    m.deadlineObjection? = some refusal ↔ m.slow = true ∧ ∃ milliseconds,
      m.decisionLimit = some milliseconds ∧
        .deadlineExceeded "decision_transaction" milliseconds = refusal := by
  unfold deadlineObjection?
  cases m.slow <;> simp

/-- The pace and the limit last. -/
theorem deadlineObjection?_of_substance (h : m.substance = n.substance) :
    m.deadlineObjection? = n.deadlineObjection? :=
  (congrArg deadlineObjection? h :)

/-- Writes change neither the pace nor the limit. -/
theorem deadlineObjection?_of_writeAll? {writes : List Write} (h : m.writeAll? writes = some n) :
    n.deadlineObjection? = m.deadlineObjection? := by
  induction writes generalizing m with
  | nil =>
    obtain rfl := Option.some.inj h
    rfl
  | cons write rest ih =>
    obtain ⟨next, hnext, hrest⟩ := Option.bind_eq_some_iff.mp h
    obtain ⟨tables, _, rfl⟩ := Option.map_eq_some_iff.mp hnext
    refine (ih hrest).trans ?_
    cases write.registration? with
    | none => rfl
    | some registration =>
      obtain ⟨_, _, transaction, _⟩ := m
      cases transaction <;> rfl

/-- A transaction is refused for its deadline first, and then for what its work is refused for. -/
theorem TouchesTables.refusal?_decisionTransaction_bind {β : Type} {request : MarketM Unit}
    {next : MarketM β} (h : TouchesTables request)
    (hnext : m.opened.answer request = .ok () → ∃ b, ({ m.opened.after request with
      transaction := m.transaction } : Market).answer next = .ok b) :
    refusal? (m.answer (do
      match ← (decisionTransaction m.decisionLimit (workOf request) :
          StateM Market (Ending Unit)) with
      | .returns (.error refusal) => throw refusal
      | _ => next)) =
      m.deadlineObjection?.or (refusal? (m.opened.answer request)) := by
  cases hdeadline : m.deadlineObjection? with
  | none =>
    have hlimit := deadlineObjection?_eq_none_iff.mp hdeadline
    refine (congrArg refusal? (h.answer_decisionTransaction_bind hlimit)).trans ?_
    cases hanswer : m.opened.answer request with
    | error refusal => rfl
    | ok _ =>
      obtain ⟨b, hb⟩ := hnext hanswer
      exact refusal?_eq_none_iff.mpr ⟨b, hb⟩
  | some refusal =>
    obtain ⟨hslow, milliseconds, hlimit, rfl⟩ := deadlineObjection?_eq_some_iff.mp hdeadline
    have hexceeded : Conclusion.exceeded?
        ({ ending := .returns (m.opened.answer request) } : Conclusion Unit) m m.decisionLimit =
          some milliseconds := by
      unfold Conclusion.exceeded?
      rw [hslow, hlimit]
      rfl
    have hwork : workOf request m.opened =
        ({ ending := .returns (m.opened.answer request) }, m.opened.after request) := rfl
    rw [answer_bind, answer_decisionTransaction, decisionTransaction_of_exceeded hwork hexceeded]
    rfl

/-- The work of a decision is refused just if the bid or the tender is not published. -/
theorem refusal?_applyDecision {bidId : String} {bid : Row BidStatus BidOrigin}
    {tender : Row TenderStatus TenderOrigin} (hknows : m.caches.bids.knows bidId = true)
    (hbid : m.tables.bids.row? bidId = some bid)
    (hknowsTender : m.caches.tenders.knows bid.origin.tenderId = true)
    (htender : m.tables.tenders.row? bid.origin.tenderId = some tender) (decision : Decision) :
    refusal? (m.answer (applyDecision bidId decision)) =
      m.tables.publicationObjection? bidId decision := by
  unfold Tables.publicationObjection? Register.origin? Register.status?
  rw [answer_applyDecision hknows hbid hknowsTender htender, hbid]
  simp only [Option.map_some, Option.bind_some, htender, ne_eq, Option.some.injEq]
  split
  · rfl
  · split <;> rfl

/-- A decision is refused for who makes it first, then for its deadline, and then for what it is
about. -/
theorem Faithful.refusal?_submitDecision (hm : m.Faithful) (actor bidId : String)
    (decision : Decision) :
    refusal? (m.answer (submitDecision actor bidId decision)) =
      (m.tables.issuerObjection? actor bidId).or
        (m.deadlineObjection?.or (m.tables.publicationObjection? bidId decision)) := by
  let drawn : Market := { m with ids := m.ids.draw.2 }
  have hdrawn : drawn.Faithful := ⟨⟨hm.tenders, hm.bids, hm.settled⟩, hm.keyed, hm.mirror⟩
  have hchecked : m.answer (submitDecision actor bidId decision) =
      drawn.answer ((bidOrganization bidId >>= requireResponsible actor) >>= fun _ => do
        let limit := (← get).decisionLimit
        match ← (decisionTransaction limit (workOf (applyDecision bidId decision)) :
            StateM Market (Ending Unit)) with
        | .returns (.error refusal) => throw refusal
        | _ => bids.get bidId) := by
    unfold submitDecision
    rw [answer_bind, answer_drawId, after_drawId, bind_assoc]
    rfl
  rw [hchecked, (onlyReads_requireIssuer actor bidId).refusal?_bind,
    hdrawn.refusal?_requireIssuer]
  intro hpassed n hn
  obtain ⟨organizationId, hissued, _⟩ := answer_bind_eq_ok_iff.mp hpassed
  obtain ⟨bid, tender, hbid, htender, _⟩ :=
    Tables.exists_of_organizationOfBid? (of_answer_bidOrganization hissued).2
  obtain ⟨x, hx, _⟩ := hdrawn.bids.exists_chronicle? hbid
  have hn' := hdrawn.of_uncounted hn
  have htables : n.tables = drawn.tables := tables_of_uncounted hn
  have hdeadline : n.deadlineObjection? = drawn.deadlineObjection? :=
    deadlineObjection?_of_substance (substance_of_uncounted hn)
  rw [← htables] at hbid htender
  -- The work finds the tables and the caches as the checks did.
  have hwork : refusal? (n.opened.answer (applyDecision bidId decision)) =
      n.tables.publicationObjection? bidId decision :=
    refusal?_applyDecision (m := n.opened) (hn'.knows_of_bid hbid) hbid
      (hn'.knows_of_tender htender) htender decision
  rw [answer_bind, answer_get, after_get]
  dsimp only
  refine ((touchesTables_applyDecision bidId decision).refusal?_decisionTransaction_bind
    fun hdone => ?_).trans ?_
  · exact ⟨_, hm.answer_get_of_applyDecision hx decision hn hdone⟩
  · rw [hwork, hdeadline, htables]
    rfl

/-! ## What an operation leaves -/

/-- What a market writes for an operation in a session. -/
def written (m : Market) (offered : Option String) (op : Operation) : List Write :=
  Session.writes ⟨.assembled, m⟩ (.request offered (.operation op))

/-- Nothing is written for an operation that is refused. -/
theorem written_eq (m : Market) (offered : Option String) (op : Operation) :
    m.written offered op =
      if refusal? (m.step (.request offered (.operation op))).1 = none then
        op.writes (m.offer offered)
      else [] := by
  unfold written Session.writes
  simp only [Session.step_assembled]
  cases (m.step (.request offered (.operation op))).1 <;> rfl

/-- Under the same verdict the same is written. -/
theorem written_congr {m' : Market} {offered : Option String} {op : Operation}
    (hrefusal : refusal? (m'.step (.request offered (.operation op))).1 =
      refusal? (m.step (.request offered (.operation op))).1)
    (hwrites : op.writes (m'.offer offered) = op.writes (m.offer offered)) :
    m'.written offered op = m.written offered op := by
  rw [written_eq, written_eq, hrefusal, hwrites]

/-- What a market writes for an operation in a session is among the writes of the operation. -/
theorem mem_writes_of_mem_written {offered : Option String} {op : Operation} {write : Write}
    (h : write ∈ m.written offered op) : write ∈ op.writes (m.offer offered) := by
  rw [written_eq] at h
  split at h
  · exact h
  · cases h

/-- An operation leaves a faithful market faithful. -/
theorem Faithful.step (hm : m.Faithful) (offered : Option String) (op : Operation) :
    (m.step (.request offered (.operation op))).2.Faithful := by
  have hquiet : (Step.request offered (.operation op)).learns = false := rfl
  exact Session.faithful_step (s := ⟨.assembled, m⟩) hm hquiet

/-- Writes to a market are writes to its tables. -/
theorem foldlM_of_writeAll? {writes : List Write} (h : m.writeAll? writes = some n) :
    writes.foldlM Write.applyTo? m.tables = some n.tables := by
  induction writes generalizing m with
  | nil =>
    obtain rfl := Option.some.inj h
    rfl
  | cons write rest ih =>
    obtain ⟨next, hnext, hrest⟩ := Option.bind_eq_some_iff.mp h
    rw [List.foldlM_cons, applyTo?_of_write? hnext]
    exact ih hrest

/-- What is written for a new status and for a new version is written in either order. -/
theorem interchange_written {change revision : Operation} (hchange : change.setsStatus = true)
    (hrevision : revision.addsVersion = true) (m : Market) (offered offered' : Option String) :
    Tables.Interchange ((m.written offered change).foldlM Write.applyTo?)
      ((m.written offered' revision).foldlM Write.applyTo?) := by
  refine .foldlM fun write hwrite => (Tables.Interchange.foldlM fun write' hwrite' => ?_).symm
  have hrevised := Operation.addsVersion_of_mem_writes hrevision (mem_writes_of_mem_written hwrite)
  have hchanged := Operation.setsStatus_of_mem_writes hchange (mem_writes_of_mem_written hwrite')
  exact (Write.interchange hchanged hrevised).symm

section Step

variable (hm : m.Sound) (offered : Option String) (op : Operation)

include hm

/-- An operation leaves the market as its writes do. -/
theorem Sound.exists_writeAll?_written :
    ∃ n, m.writeAll? (m.written offered op) = some n ∧
      n.substance = (m.step (.request offered (.operation op))).2.substance := by
  rw [written_eq]
  cases hreply : (m.step (.request offered (.operation op))).1 with
  | ok answer =>
    rw [if_pos (refusal?_ok answer)]
    exact Session.writeAll?_of_accepted hm hreply
  | error refusal =>
    rw [refusal?_error, if_neg (Option.some_ne_none refusal)]
    exact ⟨m, rfl, ((op.performs (Session.sound_offer hm offered)).refused rfl hreply).symm⟩

/-- The tables after an operation are those before it with what is written for it. -/
theorem Sound.foldlM_written :
    (m.written offered op).foldlM Write.applyTo? m.tables =
      some (m.step (.request offered (.operation op))).2.tables := by
  obtain ⟨n, hn, hsubstance⟩ := hm.exists_writeAll?_written offered op
  rw [foldlM_of_writeAll? hn, tables_of_substance hsubstance]

/-- An operation changes neither the pace nor the limit. -/
theorem Sound.deadlineObjection?_step :
    (m.step (.request offered (.operation op))).2.deadlineObjection? = m.deadlineObjection? := by
  obtain ⟨n, hn, hsubstance⟩ := hm.exists_writeAll?_written offered op
  rw [← deadlineObjection?_of_substance hsubstance, deadlineObjection?_of_writeAll? hn]

/-- What each write of an operation keeps is kept by the operation. -/
theorem Sound.keeps_step (Kept : Tables → Prop)
    (hkeeps : ∀ write ∈ op.writes (m.offer offered), ∀ {t t' : Tables},
      write.applyTo? t = some t' → Kept t → Kept t')
    (hkept : Kept m.tables) : Kept (m.step (.request offered (.operation op))).2.tables := by
  obtain ⟨n, hn, hsubstance⟩ := hm.exists_writeAll?_written offered op
  rw [← tables_of_substance hsubstance]
  exact keeps_of_writeAll? hn Kept (fun write hwrite =>
    hkeeps write (mem_writes_of_mem_written hwrite)) hkept

variable {op}

/-- An operation that adds a version leaves tables that agree on statuses. -/
theorem Sound.agreeOnStatuses_step (hop : op.addsVersion = true) :
    m.tables.AgreeOnStatuses (m.step (.request offered (.operation op))).2.tables :=
  hm.keeps_step offered op m.tables.AgreeOnStatuses
    (fun _ hwrite _ _ happlied hagree =>
      hagree.applyTo? (Operation.addsVersion_of_mem_writes hop hwrite) happlied)
    (.refl m.tables)

/-- An operation that sets a status leaves tables that agree on versions. -/
theorem Sound.agreeOnRevisions_step (hop : op.setsStatus = true) :
    m.tables.AgreeOnRevisions (m.step (.request offered (.operation op))).2.tables :=
  hm.keeps_step offered op m.tables.AgreeOnRevisions
    (fun _ hwrite _ _ happlied hagree =>
      hagree.applyTo? (Operation.setsStatus_of_mem_writes hop hwrite) happlied)
    (.refl m.tables)

end Step

end Market

namespace Operation

open Market

variable {m m' : Market} {op : Operation}

/-- What is written for a new status depends on what the bids answer. -/
theorem writes_congr_of_setsStatus (hop : op.setsStatus = true)
    (h : m.tables.AgreeOnOrigins m'.tables) : op.writes m' = op.writes m := by
  cases op with
  | setTenderStatus | setBidStatus => rfl
  | submitDecision actor bidId decision =>
    have hclosing (m : Market) : m.closingWrites bidId decision =
        if decision = .approve then
          (m.tables.bids.origin? bidId).toList.map fun origin =>
            .tender (.setStatus origin.tenderId .closed)
        else [] := by
      unfold closingWrites Register.origin?
      cases m.tables.bids.row? bidId <;> rfl
    have hsame : m'.closingWrites bidId decision = m.closingWrites bidId decision := by
      rw [hclosing m', hclosing m, Register.origin?_congr h.bids]
    exact congrArg (List.cons _) hsame
  | _ => cases hop

/-- What is written for a new version does not depend on the market. -/
theorem writes_congr_of_addsVersion (hop : op.addsVersion = true) : op.writes m' = op.writes m := by
  cases op with
  | editTender | rollbackTender | editBid | rollbackBid => rfl
  | _ => cases hop

/-- An operation is refused alike where the objections to it are the same. -/
theorem refusal?_congr {offered : Option String} {α : Type} {work : MarketM α} {form : α → Answer}
    {objection objection' : Option MarketError} (hperform : op.perform = form <$> work)
    (h : refusal? ((m.offer offered).answer work) = objection)
    (h' : refusal? ((m'.offer offered).answer work) = objection')
    (hsame : objection' = objection) :
    refusal? (m'.step (.request offered (.operation op))).1 =
      refusal? (m.step (.request offered (.operation op))).1 := by
  rw [refusal?_step hperform h', refusal?_step hperform h, hsame]

section Refusals

variable (hm : m.Faithful) (hm' : m'.Faithful) (offered : Option String)

include hm hm'

/-- A new status is refused without regard to the content. -/
theorem refusal?_congr_of_setsStatus (hop : op.setsStatus = true)
    (h : m.tables.AgreeOnStatuses m'.tables)
    (hdeadline : m'.deadlineObjection? = m.deadlineObjection?) :
    refusal? (m'.step (.request offered (.operation op))).1 =
      refusal? (m.step (.request offered (.operation op))).1 := by
  have ho := Session.faithful_offer hm offered
  have ho' := Session.faithful_offer hm' offered
  cases op with
  | setTenderStatus actor id status =>
    exact refusal?_congr rfl (ho.refusal?_setTenderStatus actor id status)
      (ho'.refusal?_setTenderStatus actor id status) (h.memberObjection? actor id)
  | setBidStatus actor id status =>
    exact refusal?_congr rfl (ho.refusal?_setBidStatus actor id status)
      (ho'.refusal?_setBidStatus actor id status)
      (congrArg₂ Option.or (h.authorObjection? actor id) (h.moveObjection? id status))
  | submitDecision actor bidId decision =>
    have hlater := congrArg₂ Option.or hdeadline (h.publicationObjection? bidId decision)
    exact refusal?_congr rfl (ho.refusal?_submitDecision actor bidId decision)
      (ho'.refusal?_submitDecision actor bidId decision)
      (congrArg₂ Option.or (h.issuerObjection? actor bidId) hlater)
  | _ => cases hop

/-- A new version is refused without regard to the status. -/
theorem refusal?_congr_of_addsVersion (hop : op.addsVersion = true)
    (h : m.tables.AgreeOnRevisions m'.tables) :
    refusal? (m'.step (.request offered (.operation op))).1 =
      refusal? (m.step (.request offered (.operation op))).1 := by
  have ho := Session.faithful_offer hm offered
  have ho' := Session.faithful_offer hm' offered
  cases op with
  | editTender actor id content =>
    exact refusal?_congr rfl (ho.refusal?_editTender actor id content)
      (ho'.refusal?_editTender actor id content) (h.memberObjection? actor id)
  | rollbackTender actor id version =>
    have hversion := Register.versionObjection?_congr h.tenderRevisions .tender id version
    exact refusal?_congr rfl (ho.refusal?_rollbackTender actor id version)
      (ho'.refusal?_rollbackTender actor id version)
      (congrArg₂ Option.or (h.memberObjection? actor id) hversion)
  | editBid actor id content =>
    exact refusal?_congr rfl (ho.refusal?_editBid actor id content)
      (ho'.refusal?_editBid actor id content) (h.authorObjection? actor id)
  | rollbackBid actor id version =>
    have hversion := Register.versionObjection?_congr h.bidRevisions .bid id version
    exact refusal?_congr rfl (ho.refusal?_rollbackBid actor id version)
      (ho'.refusal?_rollbackBid actor id version)
      (congrArg₂ Option.or (h.authorObjection? actor id) hversion)
  | _ => cases hop

end Refusals

end Operation

namespace Session

/-- In every run, an operation that gives tenders or bids another status and one that gives a tender
or a bid another version of its content leave the same tables in either order, and each is answered
in the one order just if it is answered in the other, and refused alike. -/
theorem status_and_content_are_independent (stage : Stage) (decisionLimit : Option UInt64)
    (steps : List Step) (hsteps : ∀ step ∈ steps, step.learns = false) (change revision : Operation)
    (hchange : change.setsStatus = true) (hrevision : revision.addsVersion = true)
    (offered offered' : Option String) :
    let m := ((fresh stage decisionLimit).after steps).market
    let first := Step.request offered (.operation change)
    let second := Step.request offered' (.operation revision)
    ((m.step first).2.step second).2.tables = ((m.step second).2.step first).2.tables ∧
      refusal? ((m.step second).2.step first).1 = refusal? (m.step first).1 ∧
      refusal? ((m.step first).2.step second).1 = refusal? (m.step second).1 := by
  intro m first second
  have hm : m.Faithful := faithful_after (faithful_fresh stage decisionLimit) hsteps
  have hchanged : (m.step first).2.Faithful := hm.step offered change
  have hrevised : (m.step second).2.Faithful := hm.step offered' revision
  have hstatuses := hm.agreeOnStatuses_step offered' hrevision
  have hrevisions := hm.agreeOnRevisions_step offered hchange
  have hsame : refusal? ((m.step second).2.step first).1 = refusal? (m.step first).1 :=
    Operation.refusal?_congr_of_setsStatus hm hrevised offered hchange hstatuses
      (hm.deadlineObjection?_step offered' revision)
  have hsame' : refusal? ((m.step first).2.step second).1 = refusal? (m.step second).1 :=
    Operation.refusal?_congr_of_addsVersion hm hchanged offered' hrevision hrevisions
  refine ⟨?_, hsame, hsame'⟩
  -- Either operation writes in second place what it writes in first, and these writes interchange.
  have hwritten : (m.step second).2.written offered change = m.written offered change :=
    Market.written_congr hsame
      (Operation.writes_congr_of_setsStatus hchange hstatuses.toAgreeOnOrigins)
  have hwritten' : (m.step first).2.written offered' revision = m.written offered' revision :=
    Market.written_congr hsame' (Operation.writes_congr_of_addsVersion hrevision)
  have hforth := hchanged.foldlM_written offered' revision
  have hback := hrevised.foldlM_written offered change
  rw [hwritten'] at hforth
  rw [hwritten] at hback
  have hinterchange := Market.interchange_written hchange hrevision m offered offered' m.tables
  dsimp only at hinterchange
  rw [hm.foldlM_written, hm.foldlM_written, Option.bind_some, Option.bind_some] at hinterchange
  exact Option.some.inj (hforth.symm.trans (hinterchange.trans hback))

/-- Whether it is edited before the bid is approved or after, the tender is closed and has two
versions. -/
theorem status_and_content_are_independent_approved :
    let m := ((fresh .assembled none).after biddingRun).market
    let bridge : TenderContent := ⟨"bridge", "", .construction⟩
    let approve := Step.request none (.operation (.submitDecision "ann" "b" .approve))
    let edit := Step.request none (.operation (.editTender "ann" "t" bridge))
    let t := ((m.step edit).2.step approve).2.tables
    (∀ step ∈ biddingRun, step.learns = false) ∧
      ((m.step approve).2.step edit).2.tables = t ∧
      refusal? ((m.step approve).2.step edit).1 = none ∧
      refusal? ((m.step edit).2.step approve).1 = none ∧
      t.tenders.status? "t" = some .closed ∧ (t.tenders.revisionsOf "t").length = 2 := by
  intro m bridge approve edit t
  have hlearns : ∀ step ∈ biddingRun, step.learns = false := by decide
  have hedited : refusal? (m.step edit).1 = none := by decide
  have happroved : refusal? (m.step approve).1 = none := by decide
  obtain ⟨htables, hsame, hsame'⟩ := status_and_content_are_independent .assembled none biddingRun
    hlearns (.submitDecision "ann" "b" .approve) (.editTender "ann" "t" bridge) rfl rfl none none
  exact ⟨hlearns, htables, hsame'.trans hedited, hsame.trans happroved, by decide, by decide⟩

end Session

end Procurement

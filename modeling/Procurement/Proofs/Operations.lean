import Procurement.Proofs.CatalogueWrites
import Procurement.Proofs.Guards
import Procurement.Proofs.Tables
import Procurement.Proofs.Transaction

/-!
# What operations write

Each operation first checks who acts and then performs its writes. The checks
only read, so a refusal by them leaves everything as it was; and once something
is written for good, nothing can be refused any more.
-/

namespace Procurement

namespace Market

/-! ## Users and organizations -/

section Membership

variable {m : Market}

/-- A user is created under the next identifier. -/
theorem performs_createUser (m : Market) (username firstName lastName : String) :
    Performs m (createUser username firstName lastName)
      [.user { id := m.ids.draw.1, username, firstName, lastName, createdAt := m.now }] := by
  refine performs_drawId_get_bind fun {m'} hnow => ?_
  rw [hnow]
  exact performs_store_register rfl rfl _

/-- An organization is created under the next identifier. -/
theorem performs_createOrganization (m : Market) (type : OrganizationType)
    (name description : String) :
    Performs m (createOrganization type name description)
      [.organization { id := m.ids.draw.1, name, description, type, createdAt := m.now }] := by
  refine performs_drawId_get_bind fun {m'} hnow => ?_
  rw [hnow]
  exact (performs_store rfl rfl).bind_reads (fun _ => onlyReads_pure _) fun _ _ _ =>
    Or.inl ⟨_, rfl⟩

/-- What the given username makes of a write that needs to know the user. -/
def writesOf (m : Market) (username : String) (write : String → Write) : List Write :=
  (m.caches.users.value? username).toList.map write

/-- What needs to know the user writes what the username makes of it. -/
theorem performs_userId_bind {β : Type} {next : String → MarketM β} (username : String)
    {write : String → Write} (hnext : ∀ userId, Performs m (next userId) [write userId]) :
    Performs m (userId username >>= next) (m.writesOf username write) := by
  refine (onlyReads_userId username).performs_bind fun {userId} huserId => ?_
  rw [answer_userId] at huserId
  unfold writesOf
  rw [found_eq_ok_iff.mp huserId]
  exact hnext userId

/-- A user is made responsible under the next identifier of a link. -/
theorem performs_makeResponsible (m : Market) (organizationId username : String) :
    Performs m (makeResponsible organizationId username)
      (m.writesOf username fun userId =>
        .responsibility { id := m.ids.draw.1, organizationId, userId }) :=
  performs_userId_bind username fun _ => performs_drawId_bind (performs_store rfl rfl)

end Membership

/-! ## Tenders -/

section Tendering

variable {m : Market}

/-- A tender is added in the name of its creator. -/
theorem performs_insertTender (m : Market) (organizationId creator : String)
    (content : TenderContent) :
    Performs m (insertTender organizationId creator content)
      (m.writesOf creator fun creatorId =>
        .tender (.insert m.ids.draw.1 { organizationId, creatorId } m.now content)) :=
  performs_userId_bind creator fun _ => tenders_writes.performs_insert m _ content

/-- A tender is created in the name of its actor. -/
theorem performs_createTender (hm : m.Sound) (actor organizationId : String)
    (content : TenderContent) :
    Performs m (createTender actor organizationId content)
      (m.writesOf actor fun creatorId =>
        .tender (.insert m.ids.draw.1 { organizationId, creatorId } m.now content)) := by
  refine (onlyReads_requireResponsible actor organizationId).performs_bind fun {_} _ => ?_
  unfold insertTender
  rw [bind_assoc]
  exact performs_userId_bind actor fun _ =>
    tenders_writes.performs_insert_get hm.tenders hm.settled _ content

/-- A member gives a tender another status. -/
theorem performs_setTenderStatus (hm : m.Sound) (actor id : String) (status : TenderStatus) :
    Performs m (setTenderStatus actor id status) [.tender (.setStatus id status)] :=
  (onlyReads_requireMember actor id).performs_bind fun _ =>
    tenders_writes.performs_setStatus hm.tenders id status

/-- A member appends content to a tender. -/
theorem performs_editTender (hm : m.Sound) (actor id : String) (content : TenderContent) :
    Performs m (editTender actor id content) [.tender (.append id content)] :=
  (onlyReads_requireMember actor id).performs_bind fun _ =>
    tenders_writes.performs_edit hm.tenders id content

/-- A member restores a version of a tender. -/
theorem performs_rollbackTender (hm : m.Sound) (actor id : String) (version : Int) :
    Performs m (rollbackTender actor id version) [.tender (.restore id version)] :=
  (onlyReads_requireMember actor id).performs_bind fun _ =>
    tenders_writes.performs_rollback hm.tenders id version

end Tendering

/-! ## Bids -/

section Bidding

variable {m : Market}

/-- A bid is created by its author. -/
theorem performs_createBid (hm : m.Sound) (tenderId : String) (author : Author)
    (content : BidContent) :
    Performs m (createBid tenderId author content)
      [.bid (.insert m.ids.draw.1 { tenderId, author } m.now content)] := by
  refine (onlyReads_authorExists author).performs_bind fun {found} hfound => ?_
  cases found with
  | true => exact bids_writes.performs_insert_get hm.bids hm.settled { tenderId, author } content
  | false =>
    exact ((onlyReads_throw _).performs m).of_refused (fun _ _ h => by cases h) _

/-- The author sets the status if the bid is neither decided nor canceled. -/
theorem performs_setBidStatus (hm : m.Sound) (actor bidId : String) (status : BidStatus) :
    Performs m (setBidStatus actor bidId status) [.bid (.setStatus bidId status)] := by
  refine (onlyReads_requireAuthor actor bidId).performs_bind fun {_} _ => ?_
  dsimp only
  split
  · exact ((onlyReads_throw _).performs m).of_refused (fun _ _ h => by cases h) _
  · exact bids_writes.performs_setStatusFrom_get hm.bids bidId _ status _

/-- The author appends content to a bid. -/
theorem performs_editBid (hm : m.Sound) (actor id : String) (content : BidContent) :
    Performs m (editBid actor id content) [.bid (.append id content)] :=
  (onlyReads_requireAuthor actor id).performs_bind fun _ =>
    bids_writes.performs_edit hm.bids id content

/-- The author restores a version of a bid. -/
theorem performs_rollbackBid (hm : m.Sound) (actor id : String) (version : Int) :
    Performs m (rollbackBid actor id version) [.bid (.restore id version)] :=
  (onlyReads_requireAuthor actor id).performs_bind fun _ =>
    bids_writes.performs_rollback hm.bids id version

/-- Feedback is added under the next identifier. -/
theorem performs_insertFeedback (m : Market) (bidId content authorId receiverId : String) :
    Performs m (insertFeedback bidId content authorId receiverId)
      [.feedback
        { id := m.ids.draw.1, bidId, content, authorId, receiverId, createdAt := m.now }] := by
  refine performs_drawId_get_bind fun {m'} hnow => ?_
  rw [hnow]
  exact (performs_store rfl rfl).bind_reads (fun _ => onlyReads_pure _) fun _ _ _ =>
    Or.inl ⟨_, rfl⟩

/-- What feedback on a bid writes: it is addressed to the author of the bid. -/
def feedbackWrites (m : Market) (actor bidId content : String) : List Write :=
  (m.tables.bids.row? bidId).toList.flatMap fun row => m.writesOf actor fun authorId =>
    .feedback { id := m.ids.draw.1, bidId, content, authorId, receiverId := row.origin.author.id,
                createdAt := m.now }

/-- Feedback on a bid is left for its author. -/
theorem performs_submitFeedback (m : Market) (actor bidId content : String) :
    Performs m (submitFeedback actor bidId content) (m.feedbackWrites actor bidId content) := by
  refine (onlyReads_bidOrganization bidId).performs_bind fun {_} horganization => ?_
  refine (onlyReads_requireResponsible actor _).performs_bind fun {_} _ => ?_
  obtain ⟨hknows, hissued⟩ := of_answer_bidOrganization horganization
  obtain ⟨bid, _, hbid, _⟩ := Tables.exists_of_organizationOfBid? hissued
  unfold feedbackWrites
  rw [hbid, Option.toList_some, List.flatMap_singleton]
  refine performs_userId_bind actor fun authorId => ?_
  refine (onlyReads_bidAuthor bidId).performs_bind fun {author} hauthor => ?_
  obtain ⟨bid', hbid', rfl⟩ := exists_of_answer_bidAuthor hauthor
  obtain rfl := Option.some.inj (hbid.symm.trans hbid')
  exact performs_insertFeedback m bidId content authorId _

end Bidding

/-! ## Decisions -/

section Deciding

variable {m : Market}

/-- What a decision writes to the tenders: an approval closes the tender of the bid. -/
def closingWrites (m : Market) (bidId : String) (decision : Decision) : List Write :=
  if decision = .approve then
    (m.tables.bids.row? bidId).toList.map fun row =>
      .tender (.setStatus row.origin.tenderId .closed)
  else []

/-- What a decision writes, first to the bid and then to its tender. -/
def decisionWrites (m : Market) (bidId : String) (decision : Decision) : List Write :=
  .bid (.setStatus bidId decision.bidStatus) :: m.closingWrites bidId decision

/-- No cache has to learn of a decision. -/
theorem silent_of_mem_decisionWrites {bidId : String} {decision : Decision} {write : Write}
    (h : write ∈ m.decisionWrites bidId decision) : write.registration? = none := by
  unfold decisionWrites closingWrites at h
  rcases List.mem_cons.mp h with rfl | hclosing
  · rfl
  · split at hclosing
    · obtain ⟨row, _, rfl⟩ := List.mem_map.mp hclosing
      rfl
    · simp at hclosing

/-- A published bid passes to the status of a decision, and no other bid does. -/
theorem performs_decideIfPublished (m : Market) (bidId : String) (target : BidStatus) :
    Performs m (decideIfPublished bidId target)
      (bids.transitionWrites .bid m bidId [.published] target) :=
  (bids_writes.performs_transition m bidId [.published] target).bind_reads
    (fun _ => onlyReads_pure _) fun _ _ _ => Or.inl ⟨_, rfl⟩

/-- Only a published bid is decided. -/
theorem exists_of_answer_decideIfPublished {bidId : String} {target : BidStatus}
    {tenderId : String} (h : m.answer (decideIfPublished bidId target) = .ok (some tenderId)) :
    ∃ row, m.tables.bids.row? bidId = some row ∧ row.status = .published ∧
      row.origin.tenderId = tenderId := by
  obtain ⟨decided, hdecided, htender⟩ := answer_bind_eq_ok_iff.mp h
  have hfilter := bids_writes.eq_of_answer_transition hdecided
  obtain ⟨row, rfl, horigin⟩ := Option.map_eq_some_iff.mp (Except.ok.inj htender)
  obtain ⟨hrow, hpublished⟩ := Option.filter_eq_some_iff.mp hfilter
  exact ⟨row, hrow, by simpa using hpublished, horigin⟩

/-- A decision is applied to a published bid only. -/
theorem exists_of_answer_applyDecision {bidId : String} {decision : Decision}
    (h : m.answer (applyDecision bidId decision) = .ok ()) :
    ∃ row, m.tables.bids.row? bidId = some row ∧ row.status = .published := by
  obtain ⟨tenderId?, hdecided, hrest⟩ := answer_bind_eq_ok_iff.mp h
  cases tenderId? with
  | none => cases hrest
  | some tenderId =>
    obtain ⟨row, hrow, hpublished, _⟩ := exists_of_answer_decideIfPublished hdecided
    exact ⟨row, hrow, hpublished⟩

/-- An applied decision writes to the bid and to its tender. -/
theorem achieves_applyDecision (m : Market) (bidId : String) (decision : Decision) :
    Achieves m (applyDecision bidId decision) (m.decisionWrites bidId decision) := by
  intro m' hm a ha
  obtain ⟨row, hrow, hpublished⟩ := exists_of_answer_applyDecision ha
  rw [tables_of_uncounted hm] at hrow
  have hbid : Achieves m (decideIfPublished bidId decision.bidStatus)
      [.bid (.setStatus bidId decision.bidStatus)] := by
    have hdecide := (performs_decideIfPublished m bidId decision.bidStatus).accepted
    rwa [Catalogue.transitionWrites_of_mem hrow (by simp [hpublished])] at hdecide
  have hwrites : Achieves m (applyDecision bidId decision)
      ([.bid (.setStatus bidId decision.bidStatus)] ++ m.closingWrites bidId decision) := by
    refine hbid.bind fun {n} hn {tenderId?} hdecided => ?_
    unfold closingWrites
    cases tenderId? with
    | none =>
      intro _ _ _ h
      cases h
    | some tenderId =>
      obtain ⟨row', hrow', _, rfl⟩ := exists_of_answer_decideIfPublished hdecided
      rw [tables_of_uncounted hn, hrow] at hrow'
      obtain rfl := Option.some.inj hrow'
      rw [hrow]
      dsimp only
      split
      · exact tenders_writes.achieves_setStatusFrom_bind _ _ _ _ (onlyReads_pure ()) _
      · exact ((onlyReads_pure ()).performs _).accepted
  exact hwrites hm ha

/-- Replacing a register touches nothing but the tables. -/
theorem touchesTables_update {Status Origin Content : Type} {c : Catalogue Status Origin Content}
    (f : Register Status Origin Content → Register Status Origin Content) :
    TouchesTables (c.update f) :=
  fun _ => rfl

/-- Passing to another status touches nothing but the tables. -/
theorem touchesTables_transition {Status Origin Content : Type} [DecidableEq Status]
    {c : Catalogue Status Origin Content} (hc : c.Lawful) (id : String) (sources : List Status)
    (target : Status) : TouchesTables (c.transition id sources target) := by
  refine (hc.onlyReads_ensureExists id).touchesTables.bind fun _ => ?_
  refine (onlyReads_stored _).touchesTables.bind fun row? => ?_
  split
  · exact (onlyReads_pure _).touchesTables
  · exact (touchesTables_update _).bind fun _ => (onlyReads_pure _).touchesTables

/-- Applying a decision touches nothing but the tables. -/
theorem touchesTables_applyDecision (bidId : String) (decision : Decision) :
    TouchesTables (applyDecision bidId decision) := by
  refine ((touchesTables_transition bids_lawful bidId _ _).bind fun _ =>
    (onlyReads_pure _).touchesTables).bind fun tenderId? => ?_
  cases tenderId? with
  | none => exact (onlyReads_throw _).touchesTables
  | some tenderId =>
    dsimp only
    split
    · refine ((touchesTables_transition tenders_lawful tenderId _ _).bind fun _ =>
        (onlyReads_pure _).touchesTables).bind fun closed => ?_
      cases closed with
      | true => exact (onlyReads_pure ()).touchesTables
      | false => exact (onlyReads_throw _).touchesTables
    · exact (onlyReads_pure ()).touchesTables

/-- The bid that was decided can be read. -/
theorem exists_answer_get_decided (hm : m.Sound) {bidId : String}
    (hhas : bids.Has m bidId) {decision : Decision} {n : Market}
    (h : (m.writeAll? (m.decisionWrites bidId decision)).map substance = some n.substance) :
    ∃ bid, n.answer (bids.get bidId) = .ok bid := by
  obtain ⟨written, hwritten, hsubstance⟩ := Option.map_eq_some_iff.mp h
  obtain ⟨hknows, hmem⟩ := hhas
  have hids := Register.ids_prefix_of_changeAll? (registers_of_writeAll? hwritten).2
  have hsound := hm.of_writeAll? hwritten
  rw [writeAll?_of_silent _ fun _ => silent_of_mem_decisionWrites] at hwritten
  obtain ⟨tables, _, rfl⟩ := Option.map_eq_some_iff.mp hwritten
  exact bids_lawful.exists_answer_get (hsound.of_substance hsubstance).bids
    (bids_lawful.has_congr hsubstance ⟨hknows, hids.subset hmem⟩)

/-- A decision takes effect on the bid and on its tender, or on neither. -/
theorem performs_submitDecision (hm : m.Sound) (actor bidId : String) (decision : Decision) :
    Performs m (submitDecision actor bidId decision) (m.decisionWrites bidId decision) := by
  refine performs_drawId_bind ?_
  refine (onlyReads_bidOrganization bidId).performs_bind fun {organizationId} horganization => ?_
  refine (onlyReads_requireResponsible actor organizationId).performs_bind fun {_} _ => ?_
  refine performs_get_bind fun {m'} _ => ?_
  have hdrawn : ({ m with ids := m.ids.draw.2 } : Market).Sound := ⟨hm.tenders, hm.bids, hm.settled⟩
  have hhas : bids.Has { m with ids := m.ids.draw.2 } bidId := by
    obtain ⟨hknows, hissued⟩ := of_answer_bidOrganization horganization
    obtain ⟨bid, _, hbid, _⟩ := Tables.exists_of_organizationOfBid? hissued
    exact ⟨hknows, Register.mem_ids_of_row? hbid⟩
  exact (touchesTables_applyDecision bidId decision).performs_decisionTransaction m'.decisionLimit
    (achieves_applyDecision _ bidId decision) (fun _ => silent_of_mem_decisionWrites)
    (bids_lawful.onlyReads_get bidId) (exists_answer_get_decided hdrawn hhas)

end Deciding

end Market

/-! ## All operations -/

namespace Operation

/-- What an operation writes if it is accepted. -/
def writes (m : Market) : Operation → List Write
  | createUser username firstName lastName =>
    [.user { id := m.ids.draw.1, username, firstName, lastName, createdAt := m.now }]
  | createOrganization type name description =>
    [.organization { id := m.ids.draw.1, name, description, type, createdAt := m.now }]
  | makeResponsible organizationId username =>
    m.writesOf username fun userId =>
      .responsibility { id := m.ids.draw.1, organizationId, userId }
  | createTender actor organizationId content =>
    m.writesOf actor fun creatorId =>
      .tender (.insert m.ids.draw.1 { organizationId, creatorId } m.now content)
  | setTenderStatus _ id status => [.tender (.setStatus id status)]
  | editTender _ id content => [.tender (.append id content)]
  | rollbackTender _ id version => [.tender (.restore id version)]
  | createBid tenderId author content =>
    [.bid (.insert m.ids.draw.1 { tenderId, author } m.now content)]
  | setBidStatus _ id status => [.bid (.setStatus id status)]
  | editBid _ id content => [.bid (.append id content)]
  | rollbackBid _ id version => [.bid (.restore id version)]
  | submitDecision _ bidId decision => m.decisionWrites bidId decision
  | submitFeedback actor bidId content => m.feedbackWrites actor bidId content
  | _ => []

/-- Every operation performs its writes or is refused without a trace. -/
theorem performs {m : Market} (hm : m.Sound) (op : Operation) :
    m.Performs op.perform (op.writes m) := by
  cases op with
  | createUser username first last => exact (Market.performs_createUser m username first last).map _
  | userId username => exact ((Market.onlyReads_userId username).map _).performs m
  | userExists id => exact ((Market.onlyReads_userExists id).map _).performs m
  | usernames => exact (Market.onlyReads_usernames.map _).performs m
  | createOrganization type name description =>
    exact (Market.performs_createOrganization m type name description).map _
  | makeResponsible organizationId username =>
    exact (Market.performs_makeResponsible m organizationId username).map _
  | organizationExists id => exact ((Market.onlyReads_organizationExists id).map _).performs m
  | createTender actor organizationId content =>
    exact (Market.performs_createTender hm actor organizationId content).map _
  | publishedTenders serviceTypes page =>
    exact ((Market.onlyReads_publishedTenders serviceTypes page).map _).performs m
  | tendersOf username page => exact ((Market.onlyReads_tendersOf username page).map _).performs m
  | getTender id => exact ((tenders_lawful.onlyReads_get id).map _).performs m
  | tenderStatus id => exact ((tenders_lawful.onlyReads_status id).map _).performs m
  | setTenderStatus actor id status =>
    exact (Market.performs_setTenderStatus hm actor id status).map _
  | editTender actor id content => exact (Market.performs_editTender hm actor id content).map _
  | rollbackTender actor id version =>
    exact (Market.performs_rollbackTender hm actor id version).map _
  | tenderHistory id => exact ((tenders_lawful.onlyReads_history id).map _).performs m
  | createBid tenderId author content =>
    exact (Market.performs_createBid hm tenderId author content).map _
  | bidsOf username page => exact ((Market.onlyReads_bidsOf username page).map _).performs m
  | bidsOn actor tenderId page =>
    exact ((Market.onlyReads_bidsOn actor tenderId page).map _).performs m
  | getBid id => exact ((bids_lawful.onlyReads_get id).map _).performs m
  | bidStatus id => exact ((bids_lawful.onlyReads_status id).map _).performs m
  | setBidStatus actor id status => exact (Market.performs_setBidStatus hm actor id status).map _
  | editBid actor id content => exact (Market.performs_editBid hm actor id content).map _
  | rollbackBid actor id version => exact (Market.performs_rollbackBid hm actor id version).map _
  | bidHistory id => exact ((bids_lawful.onlyReads_history id).map _).performs m
  | submitDecision actor bidId decision =>
    exact (Market.performs_submitDecision hm actor bidId decision).map _
  | submitFeedback actor bidId content =>
    exact (Market.performs_submitFeedback m actor bidId content).map _
  | reviews requester tenderId author page =>
    exact ((Market.onlyReads_reviews requester tenderId author page).map _).performs m

end Operation

end Procurement

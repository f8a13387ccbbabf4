import Procurement.Market.Request
import Procurement.Proofs.Operations

/-!
# What requests and steps write

Beside the operations there are requests that check no one's authority. They too
perform their writes or leave no trace. A step of a market therefore either
writes what its request says or leaves all that lasts as it was.
-/

namespace Procurement

/-- What an operation on the entities of one kind writes if it is accepted. -/
def CatalogueOperation.writes {Status Origin Content : Type} [DecidableEq Status]
    (c : Catalogue Status Origin Content) (write : Change Status Origin Content → Write)
    (m : Market) : CatalogueOperation Status Content → List Write
  | .setStatus id target => [write (.setStatus id target)]
  | .setStatusFrom sources id target => c.transitionWrites write m id sources target
  | .setStatusIfPublished id target => c.transitionWrites write m id [c.published] target
  | .edit id content => [write (.append id content)]
  | .rollback id version => [write (.restore id version)]
  | _ => []

/-- The entity that an operation on the entities of one kind may change: the one that it names. -/
def CatalogueOperation.target? {Status Content : Type} :
    CatalogueOperation Status Content → Option String
  | .setStatus id _ | .setStatusFrom _ id _ | .setStatusIfPublished id _ | .edit id _
  | .rollback id _ => some id
  | _ => none

/-- What an operation on the entities of one kind writes alters the entity that it names. -/
theorem CatalogueOperation.exists_of_mem_writes {Status Origin Content : Type}
    [DecidableEq Status] {c : Catalogue Status Origin Content}
    {write : Change Status Origin Content → Write} {m : Market}
    {op : CatalogueOperation Status Content} {w : Write} (h : w ∈ op.writes c write m) :
    ∃ change id, w = write change ∧ change.altered? = some id ∧ op.target? = some id := by
  cases op with
  | setStatus id target => exact ⟨_, id, List.mem_singleton.mp h, rfl, rfl⟩
  | setStatusFrom sources id target | setStatusIfPublished id target =>
    simp only [writes, Catalogue.transitionWrites] at h
    split at h
    · exact ⟨_, id, List.mem_singleton.mp h, rfl, rfl⟩
    · cases h
  | edit id content => exact ⟨_, id, List.mem_singleton.mp h, rfl, rfl⟩
  | rollback id version => exact ⟨_, id, List.mem_singleton.mp h, rfl, rfl⟩
  | _ => cases h

/-- An operation on the entities of one kind performs its writes or is refused without a trace. -/
theorem CatalogueOperation.performs {Status Origin Content : Type} [DecidableEq Status]
    {c : Catalogue Status Origin Content} {write : Change Status Origin Content → Write}
    (hw : c.Writes write) {m : Market} (hdense : (c.register m.tables).Dense)
    (forms : Answer.Forms Status Origin Content) (op : CatalogueOperation Status Content) :
    m.Performs (op.perform c forms) (op.writes c write m) := by
  cases op with
  | «exists» id => exact ((hw.onlyReads_exists? id).map _).performs m
  | loadIds => exact (Catalogue.onlyReads_loadIds.map _).performs m
  | get id => exact ((hw.onlyReads_get id).map _).performs m
  | status id => exact ((hw.onlyReads_status id).map _).performs m
  | setStatus id target => exact (hw.performs_setStatus hdense id target).map _
  | setStatusFrom sources id target => exact (hw.performs_setStatusFrom m id sources target).map _
  | setStatusIfPublished id target =>
    exact (hw.performs_setStatusFrom m id [c.published] target).map _
  | edit id content => exact (hw.performs_edit hdense id content).map _
  | rollback id version => exact (hw.performs_rollback hdense id version).map _
  | contentVersion id version => exact ((hw.onlyReads_contentVersion id version).map _).performs m
  | history id => exact ((hw.onlyReads_history id).map _).performs m

/-- What an operation on tenders or bids writes if it is accepted. -/
def StoreOperation.writes (m : Market) : StoreOperation → List Write
  | insertTender organizationId creator content =>
    m.writesOf creator fun creatorId =>
      .tender (.insert m.ids.draw.1 { organizationId, creatorId } m.now content)
  | onTenders op => op.writes tenders .tender m
  | insertBid tenderId author content =>
    [.bid (.insert m.ids.draw.1 { tenderId, author } m.now content)]
  | decideIfPublished bidId target => bids.transitionWrites .bid m bidId [.published] target
  | onBids op => op.writes bids .bid m
  | _ => []

/-- An operation of a store performs its writes or is refused without a trace. -/
theorem StoreOperation.performs {m : Market} (htenders : m.tables.tenders.Dense)
    (hbids : m.tables.bids.Dense) (op : StoreOperation) :
    m.Performs op.perform (op.writes m) := by
  cases op with
  | insertTender organizationId creator content =>
    exact (Market.performs_insertTender m organizationId creator content).map _
  | publishedTenders serviceTypes page =>
    exact ((Market.onlyReads_publishedTenders serviceTypes page).map _).performs m
  | tendersOf username page => exact ((Market.onlyReads_tendersOf username page).map _).performs m
  | onTenders op => exact op.performs tenders_writes htenders Answer.tenderForms
  | insertBid tenderId author content =>
    exact (bids_writes.performs_insert m { tenderId, author } content).map _
  | bidsWithTender tenderId page =>
    exact ((Market.onlyReads_bidsWithTender tenderId page).map _).performs m
  | bidsWithAuthor authorId page =>
    exact ((Market.onlyReads_bidsWithAuthor authorId page).map _).performs m
  | tenderOf bidId => exact ((Market.onlyReads_tenderOf bidId).map _).performs m
  | bidAuthor bidId => exact ((Market.onlyReads_bidAuthor bidId).map _).performs m
  | decideIfPublished bidId target => exact (Market.performs_decideIfPublished m bidId target).map _
  | onBids op => exact op.performs bids_writes hbids Answer.bidForms

/-- What an operation on feedback writes if it is accepted. -/
def FeedbackOperation.writes (m : Market) : FeedbackOperation → List Write
  | insert bidId content authorId receiverId =>
    [.feedback { id := m.ids.draw.1, bidId, content, authorId, receiverId, createdAt := m.now }]
  | reviewsFor _ _ => []

/-- An operation on feedback performs its writes or is refused without a trace. -/
theorem FeedbackOperation.performs (m : Market) (op : FeedbackOperation) :
    m.Performs op.perform (op.writes m) := by
  cases op with
  | insert bidId content authorId receiverId =>
    exact (Market.performs_insertFeedback m bidId content authorId receiverId).map _
  | reviewsFor userId page => exact ((Market.onlyReads_reviewsFor userId page).map _).performs m

/-- Questions about who belongs to what only read. -/
theorem RelationQuery.onlyReads (query : RelationQuery) : Market.OnlyReads query.perform := by
  cases query with
  | isUserResponsible username organizationId =>
    exact (Market.onlyReads_isUserResponsible username organizationId).map _
  | tenderAuthor tenderId => exact (Market.onlyReads_tenderAuthor tenderId).map _
  | tenderOrganization tenderId => exact (Market.onlyReads_tenderOrganization tenderId).map _
  | bidOrganization bidId => exact (Market.onlyReads_bidOrganization bidId).map _
  | belongsToTender username tenderId =>
    exact (Market.onlyReads_belongsToTender username tenderId).map _
  | isBidAuthor username bidId => exact (Market.onlyReads_isBidAuthor username bidId).map _

namespace Market

/-- A survey writes nothing. -/
theorem performs_survey (m : Market) : m.Performs survey [] := by
  refine Catalogue.onlyReads_loadIds.performs_bind fun {ids} _ => ?_
  refine (onlyReads_mapM ids tenders_lawful.onlyReads_dossier).performs_bind fun {_} _ => ?_
  refine Catalogue.onlyReads_loadIds.performs_bind fun {ids} _ => ?_
  refine (onlyReads_mapM ids bids_lawful.onlyReads_dossier).performs_bind fun {_} _ => ?_
  refine onlyReads_usernames.performs_bind fun {_} _ => ?_
  exact performs_get_bind fun _ => (onlyReads_pure _).performs m

/-- The numbers of known rows do not show how often they were looked up. -/
theorem onlyReads_counts : OnlyReads (do pure (Answer.counts (← get).counts)) where
  after_uncounted _ := rfl
  answer_of_contents h := congrArg (fun counts => (.ok (.counts counts) : Reply))
    (counts_of_contents h)

/-- Teaching a cache by hand stores nothing. -/
theorem performs_register (m : Market) (registration : Registration) :
    m.Performs (register registration) [.notice registration] where
  accepted {m'} hm _ _ := by
    refine congrArg some ?_
    change (m.registered registration).substance = (m'.registered registration).substance
    rw [substance_registered m, substance_registered m', substance_of_uncounted hm]
  refused _ _ _ hrefusal := by cases hrefusal

end Market

namespace Request

/-- What a request writes if it is accepted. -/
def writes (m : Market) : Request → List Write
  | operation op => op.writes m
  | store op => op.writes m
  | feedback op => op.writes m
  | learn registration => [.notice registration]
  | _ => []

/-- Every request performs its writes or is refused without a trace. -/
theorem performs {m : Market} (hm : m.Sound) (request : Request) :
    m.Performs request.perform (request.writes m) := by
  cases request with
  | operation op => exact op.performs hm
  | relation query => exact query.onlyReads.performs m
  | store op => exact op.performs hm.tenders hm.bids
  | feedback op => exact op.performs m
  | counts => exact Market.onlyReads_counts.performs m
  | usage => exact Market.performs_get_bind fun _ => (Market.onlyReads_pure _).performs m
  | survey => exact (Market.performs_survey m).map _
  | learn registration =>
    exact (Market.performs_register m registration).bind_reads (fun _ => Market.onlyReads_counts)
      fun _ _ _ => Or.inl ⟨_, rfl⟩

end Request

end Procurement

import Procurement.Proofs.Mirror

/-!
# What is not found

A request about one entity is refused because the entity is not found exactly if
no row of it is stored, and a username is resolved exactly if a user of that name
is stored. The cache, which is asked first, does not show in these answers.
-/

namespace Procurement

namespace Market

variable {α β : Type} {m : Market} {first : MarketM α} {next : α → MarketM β}
  {refusal : MarketError}

/-- A request that is refused is refused whatever was to come after it. -/
theorem answer_bind_of_error (h : m.answer first = .error refusal) :
    m.answer (first >>= next) = .error refusal := by
  rw [answer_bind, h]

/-- What refuses neither first nor next for a reason does not refuse for it at all. -/
theorem answer_bind_ne_error (hfirst : m.answer first ≠ .error refusal)
    (hnext : ∀ a, m.answer first = .ok a → (m.after first).answer (next a) ≠ .error refusal) :
    m.answer (first >>= next) ≠ .error refusal := by
  rw [answer_bind]
  cases h : m.answer first with
  | error refusal' =>
    intro heq
    cases heq
    exact hfirst h
  | ok a => exact hnext a h

/-- Putting something around an answer leaves the refusals. -/
theorem answer_map_eq_error_iff {f : α → β} {request : MarketM α} :
    m.answer (f <$> request) = .error refusal ↔ m.answer request = .error refusal := by
  rw [answer_map]
  cases m.answer request <;> simp [Except.map]

section Unresolved

variable {kind : EntityKind} (hkind : kind ≠ .user) (username organizationId id : String)

include hkind

/-- Looking up a username finds nothing missing but the user. -/
theorem answer_userId_ne_error : m.answer (userId username) ≠ .error (.notFound kind id) := by
  rw [answer_userId]
  cases m.caches.users.value? username with
  | none =>
    intro h
    cases h
    exact hkind rfl
  | some userId => simp

/-- Asking for a responsible user finds nothing missing but the user. -/
theorem answer_isUserResponsible_ne_error :
    m.answer (isUserResponsible username organizationId) ≠ .error (.notFound kind id) :=
  answer_bind_ne_error (answer_userId_ne_error hkind username id) fun _ _ => by simp

/-- A check of responsibility finds nothing missing but the user. -/
theorem answer_requireResponsible_ne_error :
    m.answer (requireResponsible username organizationId) ≠ .error (.notFound kind id) :=
  answer_bind_ne_error (answer_isUserResponsible_ne_error hkind username organizationId id)
    fun responsible _ => by cases responsible <;> simp

end Unresolved

end Market

namespace Catalogue

open Market

variable {Status Origin Content : Type} {c : Catalogue Status Origin Content}
  {write : Change Status Origin Content → Write} {m : Market} {id : String}

section Unknown

variable (hunknown : (c.cache m.caches).knows id = false)

include hunknown

/-- The check refuses an entity that the cache does not know. -/
theorem answer_ensureExists_of_unknown :
    m.answer (c.ensureExists id) = .error (.notFound c.kind id) := by
  rw [answer_ensureExists, if_neg (by simp [hunknown])]

/-- What the cache does not know is not read. -/
theorem answer_get_of_unknown : m.answer (c.get id) = .error (.notFound c.kind id) :=
  answer_bind_of_error (answer_ensureExists_of_unknown hunknown)

/-- The row of what the cache does not know is not read. -/
theorem answer_row_of_unknown : m.answer (c.row id) = .error (.notFound c.kind id) :=
  answer_bind_of_error (answer_ensureExists_of_unknown hunknown)

/-- The status of what the cache does not know is not read. -/
theorem answer_status_of_unknown : m.answer (c.status id) = .error (.notFound c.kind id) :=
  answer_bind_of_error (answer_row_of_unknown hunknown)

/-- The history of what the cache does not know is not read. -/
theorem answer_history_of_unknown : m.answer (c.history id) = .error (.notFound c.kind id) :=
  answer_bind_of_error (answer_ensureExists_of_unknown hunknown)

end Unknown

section Known

variable (hhas : c.Has m id)

include hhas

/-- The row of what is there is read. -/
theorem Lawful.exists_answer_row (hc : c.Lawful) : ∃ row, m.answer (c.row id) = .ok row := by
  obtain ⟨row, hrow⟩ := Has.exists_row? hhas
  exact ⟨row, by rw [hc.answer_row, if_pos hhas.1, hrow, found_some]⟩

/-- The status of what is there is read. -/
theorem Lawful.exists_answer_status (hc : c.Lawful) :
    ∃ status, m.answer (c.status id) = .ok status := by
  obtain ⟨row, hrow⟩ := hc.exists_answer_row hhas
  exact ⟨row.status, answer_bind_eq_ok_iff.mpr ⟨row, hrow, rfl⟩⟩

/-- The history of what is there is read. -/
theorem exists_answer_history : ∃ versions, m.answer (c.history id) = .ok versions := by
  have hpassed : m.answer (c.ensureExists id) = .ok () := by
    rw [answer_ensureExists, if_pos hhas.1]
  exact ⟨_, answer_bind_eq_ok_iff.mpr ⟨(), hpassed, rfl⟩⟩

/-- What is there is still there after a request that only reads. -/
theorem Lawful.has_after {α : Type} (hc : c.Lawful) {request : MarketM α}
    (hrequest : OnlyReads request) : c.Has (m.after request) id :=
  hc.has_congr (substance_of_uncounted (hrequest.after_uncounted m)).symm hhas

/-- The check lets pass what is there. -/
theorem answer_ensureExists_of_has : m.answer (c.ensureExists id) = .ok () := by
  rw [answer_ensureExists, if_pos hhas.1]

variable (hw : c.Writes write) (hdense : (c.register m.tables).Dense)

include hw hdense

/-- What is there can be edited. -/
theorem Writes.exists_answer_edit (content : Content) :
    ∃ entity, m.answer (c.edit id content) = .ok entity := by
  have htables := (hw.onlyReads_ensureExists id).tables_after m
  obtain ⟨entity, hentity⟩ := hw.exists_answer_append (htables ▸ hdense)
    (hw.has_after hhas (hw.onlyReads_ensureExists id)) content
  exact ⟨entity, answer_bind_eq_ok_iff.mpr ⟨(), answer_ensureExists_of_has hhas, hentity⟩⟩

/-- No edit of what is there is refused. -/
theorem Writes.answer_edit_ne_error (content : Content) (refusal : MarketError) :
    m.answer (c.edit id content) ≠ .error refusal := by
  obtain ⟨entity, hentity⟩ := Writes.exists_answer_edit hhas hw hdense content
  simp [hentity]

/-- A rollback of what is there can only fail for the version. -/
theorem Writes.answer_rollback_ne_error (version : Int) (kind : EntityKind) (id' : String) :
    m.answer (c.rollback id version) ≠ .error (.notFound kind id') := by
  have htables := (hw.onlyReads_ensureExists id).tables_after m
  refine answer_bind_ne_error (by simp [answer_ensureExists_of_has hhas]) fun _ _ => ?_
  refine answer_bind_ne_error ?_ fun content _ => ?_
  · rw [answer_storedOr]
    cases (c.register (m.after (c.ensureExists id)).tables).content? id version <;> simp
  · rw [after_storedOr]
    obtain ⟨entity, hentity⟩ := hw.exists_answer_append (htables ▸ hdense)
      (hw.has_after hhas (hw.onlyReads_ensureExists id)) content
    simp [hentity]

end Known

/-- A request that the cache refuses if it does not know the entity, and that does not miss
what is there, misses exactly what is not stored. -/
theorem answer_eq_error_iff_of_agree {α : Type}
    (hagree : (c.cache m.caches).ids = (c.register m.tables).ids) {request : MarketM α}
    {refusal : MarketError}
    (hunknown : (c.cache m.caches).knows id = false → m.answer request = .error refusal)
    (hknown : c.Has m id → m.answer request ≠ .error refusal) :
    m.answer request = .error refusal ↔ id ∉ (c.register m.tables).ids := by
  by_cases hmem : id ∈ (c.register m.tables).ids
  · have hknows := ((c.cache m.caches).knows_iff id).mpr (hagree ▸ hmem)
    exact iff_of_false (hknown ⟨hknows, hmem⟩) (not_not.mpr hmem)
  · refine iff_of_true (hunknown ?_) hmem
    rw [← Bool.not_eq_true, ExistenceCache.knows_iff, hagree]
    exact hmem

/-- A check of who acts does not change what is missed, if it misses the same entity. -/
theorem Lawful.answer_guarded_eq_error_iff {α : Type} (hc : c.Lawful)
    (hdense : (c.register m.tables).Dense)
    (hagree : (c.cache m.caches).ids = (c.register m.tables).ids) {guard : MarketM Unit}
    (hguard : OnlyReads guard) {request : MarketM α} {refusal : MarketError}
    (hunknown : (c.cache m.caches).knows id = false → m.answer guard = .error refusal)
    (hpassed : c.Has m id → m.answer guard ≠ .error refusal)
    (hrequest : ∀ {m' : Market}, (c.register m'.tables).Dense → c.Has m' id →
      m'.answer request ≠ .error refusal) :
    m.answer (guard >>= fun _ => request) = .error refusal ↔ id ∉ (c.register m.tables).ids :=
  answer_eq_error_iff_of_agree hagree (fun h => answer_bind_of_error (hunknown h)) fun hhas =>
    answer_bind_ne_error (hpassed hhas) fun _ _ =>
      hrequest (hguard.tables_after m ▸ hdense) (hc.has_after hhas hguard)

end Catalogue

/-- The entity that an operation on one kind reads or revises. -/
def CatalogueOperation.subject? {Status Content : Type} :
    CatalogueOperation Status Content → Option String
  | .get id | .status id | .history id | .edit id _ | .rollback id _ => some id
  | _ => none

/-- An operation on one kind of entities misses exactly what is not stored. -/
theorem CatalogueOperation.answer_eq_notFound_iff {Status Origin Content : Type}
    [DecidableEq Status] {c : Catalogue Status Origin Content}
    {write : Change Status Origin Content → Write} (hw : c.Writes write) {m : Market}
    (hdense : (c.register m.tables).Dense)
    (hagree : (c.cache m.caches).ids = (c.register m.tables).ids)
    (forms : Answer.Forms Status Origin Content) {op : CatalogueOperation Status Content}
    {id : String} (h : op.subject? = some id) :
    m.answer (op.perform c forms) = .error (.notFound c.kind id) ↔
      id ∉ (c.register m.tables).ids := by
  cases op with
  | get other =>
    obtain rfl := Option.some.inj h
    refine Market.answer_map_eq_error_iff.trans (Catalogue.answer_eq_error_iff_of_agree hagree
      Catalogue.answer_get_of_unknown fun hhas => ?_)
    obtain ⟨entity, hentity⟩ := hw.exists_answer_get hdense hhas
    simp [hentity]
  | status other =>
    obtain rfl := Option.some.inj h
    refine Market.answer_map_eq_error_iff.trans (Catalogue.answer_eq_error_iff_of_agree hagree
      Catalogue.answer_status_of_unknown fun hhas => ?_)
    obtain ⟨status, hstatus⟩ := hw.exists_answer_status hhas
    simp [hstatus]
  | history other =>
    obtain rfl := Option.some.inj h
    refine Market.answer_map_eq_error_iff.trans (Catalogue.answer_eq_error_iff_of_agree hagree
      Catalogue.answer_history_of_unknown fun hhas => ?_)
    obtain ⟨versions, hversions⟩ := Catalogue.exists_answer_history hhas
    simp [hversions]
  | edit other content =>
    obtain rfl := Option.some.inj h
    exact Market.answer_map_eq_error_iff.trans (Catalogue.answer_eq_error_iff_of_agree hagree
      (fun hunknown => Market.answer_bind_of_error
        (Catalogue.answer_ensureExists_of_unknown hunknown))
      fun hhas => Catalogue.Writes.answer_edit_ne_error hhas hw hdense content _)
  | rollback other version =>
    obtain rfl := Option.some.inj h
    exact Market.answer_map_eq_error_iff.trans (Catalogue.answer_eq_error_iff_of_agree hagree
      (fun hunknown => Market.answer_bind_of_error
        (Catalogue.answer_ensureExists_of_unknown hunknown))
      fun hhas => Catalogue.Writes.answer_rollback_ne_error hhas hw hdense version _ _)
  | _ => cases h

/-! ## Requests of users -/

namespace Market

variable {m : Market}

/-- The check for a member refuses a tender that the cache does not know. -/
theorem answer_requireMember_of_unknown {tenderId : String}
    (h : m.caches.tenders.knows tenderId = false) (actor : String) :
    m.answer (requireMember actor tenderId) = .error (.notFound .tender tenderId) :=
  answer_bind_of_error (answer_bind_of_error (Catalogue.answer_row_of_unknown h))

/-- The check for a member does not miss a tender that is there. -/
theorem answer_requireMember_ne_error {tenderId : String} (hhas : tenders.Has m tenderId)
    (actor id : String) :
    m.answer (requireMember actor tenderId) ≠ .error (.notFound .tender id) := by
  refine answer_bind_ne_error ?_ fun organizationId _ =>
    answer_requireResponsible_ne_error (by simp) actor organizationId id
  obtain ⟨row, hrow⟩ := tenders_lawful.exists_answer_row hhas
  refine answer_bind_ne_error (by simp [hrow]) fun _ _ => by simp

/-- The check for an author refuses a bid that the cache does not know. -/
theorem answer_requireAuthor_of_unknown {bidId : String}
    (h : m.caches.bids.knows bidId = false) (actor : String) :
    m.answer (requireAuthor actor bidId) = .error (.notFound .bid bidId) :=
  answer_bind_of_error (answer_bind_of_error (answer_bind_of_error
    (Catalogue.answer_row_of_unknown h)))

/-- The check for an author does not miss a bid that is there. -/
theorem answer_requireAuthor_ne_error {bidId : String} (hhas : bids.Has m bidId)
    (actor id : String) : m.answer (requireAuthor actor bidId) ≠ .error (.notFound .bid id) := by
  refine answer_bind_ne_error ?_ fun isAuthor _ => by cases isAuthor <;> simp
  refine answer_bind_ne_error ?_ fun author _ => ?_
  · obtain ⟨row, hrow⟩ := bids_lawful.exists_answer_row hhas
    refine answer_bind_ne_error (by simp [hrow]) fun _ _ => by simp
  · obtain ⟨type, authorId⟩ := author
    cases type with
    | user =>
      exact answer_bind_ne_error (answer_userId_ne_error (by simp) actor id) fun _ _ => by simp
    | organization => exact answer_isUserResponsible_ne_error (by simp) actor authorId id

end Market

/-- The identifiers under which entities of some kind are stored. -/
def Tables.ids (t : Tables) : EntityKind → List String
  | .tender => t.tenders.ids
  | .bid => t.bids.ids
  | .user => t.users.map User.id
  | .organization => t.organizations.map Organization.id

/-- The tender or bid that an operation reads or revises. -/
def Operation.subject? : Operation → Option (EntityKind × String)
  | getTender id | tenderStatus id | tenderHistory id | editTender _ id _
  | rollbackTender _ id _ => some (.tender, id)
  | getBid id | bidStatus id | bidHistory id | editBid _ id _ | rollbackBid _ id _ =>
    some (.bid, id)
  | _ => none

/-- The tender or bid that a request reads or revises. -/
def Request.subject? : Request → Option (EntityKind × String)
  | operation op => op.subject?
  | store (.onTenders op) => op.subject?.map fun id => (.tender, id)
  | store (.onBids op) => op.subject?.map fun id => (.bid, id)
  | _ => none

namespace Market

section Guarded

variable {α : Type} {m : Market} (hm : m.Faithful) (actor id : String) {request : MarketM α}

include hm

/-- Of a tender, members miss exactly what is not stored. -/
theorem Faithful.answer_member_eq_notFound_iff
    (hrequest : ∀ {m' : Market}, m'.tables.tenders.Dense → tenders.Has m' id →
      m'.answer request ≠ .error (.notFound .tender id)) :
    m.answer (requireMember actor id >>= fun _ => request) = .error (.notFound .tender id) ↔
      id ∉ m.tables.tenders.ids :=
  tenders_lawful.answer_guarded_eq_error_iff hm.tenders hm.mirror.tenders
    (onlyReads_requireMember actor id) (fun h => answer_requireMember_of_unknown h actor)
    (fun hhas => answer_requireMember_ne_error hhas actor id) hrequest

/-- Of a bid, authors miss exactly what is not stored. -/
theorem Faithful.answer_author_eq_notFound_iff
    (hrequest : ∀ {m' : Market}, m'.tables.bids.Dense → bids.Has m' id →
      m'.answer request ≠ .error (.notFound .bid id)) :
    m.answer (requireAuthor actor id >>= fun _ => request) = .error (.notFound .bid id) ↔
      id ∉ m.tables.bids.ids :=
  bids_lawful.answer_guarded_eq_error_iff hm.bids hm.mirror.bids
    (onlyReads_requireAuthor actor id) (fun h => answer_requireAuthor_of_unknown h actor)
    (fun hhas => answer_requireAuthor_ne_error hhas actor id) hrequest

end Guarded

/-- Of a tender, the requests about tenders miss exactly what is not stored. -/
theorem Faithful.answer_onTenders_eq_notFound_iff {m : Market} (hm : m.Faithful)
    {op : CatalogueOperation TenderStatus TenderContent} {id : String} (h : op.subject? = some id) :
    m.answer (op.perform tenders Answer.tenderForms) = .error (.notFound .tender id) ↔
      id ∉ m.tables.tenders.ids :=
  CatalogueOperation.answer_eq_notFound_iff tenders_writes hm.tenders hm.mirror.tenders _ h

/-- Of a bid, the requests about bids miss exactly what is not stored. -/
theorem Faithful.answer_onBids_eq_notFound_iff {m : Market} (hm : m.Faithful)
    {op : CatalogueOperation BidStatus BidContent} {id : String} (h : op.subject? = some id) :
    m.answer (op.perform bids Answer.bidForms) = .error (.notFound .bid id) ↔
      id ∉ m.tables.bids.ids :=
  CatalogueOperation.answer_eq_notFound_iff bids_writes hm.bids hm.mirror.bids _ h

/-- An operation misses its subject exactly if the subject is not stored. -/
theorem Faithful.answer_operation_eq_notFound_iff {m : Market} (hm : m.Faithful) {op : Operation}
    {kind : EntityKind} {id : String} (h : op.subject? = some (kind, id)) :
    m.answer op.perform = .error (.notFound kind id) ↔ id ∉ m.tables.ids kind := by
  cases op with
  | getTender other =>
    cases h
    exact hm.answer_onTenders_eq_notFound_iff (rfl : (CatalogueOperation.get id).subject? = _)
  | tenderStatus other =>
    cases h
    exact hm.answer_onTenders_eq_notFound_iff (rfl : (CatalogueOperation.status id).subject? = _)
  | tenderHistory other =>
    cases h
    exact hm.answer_onTenders_eq_notFound_iff (rfl : (CatalogueOperation.history id).subject? = _)
  | editTender actor other content =>
    cases h
    exact answer_map_eq_error_iff.trans (hm.answer_member_eq_notFound_iff actor id
      fun hdense hhas => Catalogue.Writes.answer_edit_ne_error hhas tenders_writes hdense content _)
  | rollbackTender actor other version =>
    cases h
    exact answer_map_eq_error_iff.trans (hm.answer_member_eq_notFound_iff actor id
      fun hdense hhas =>
        Catalogue.Writes.answer_rollback_ne_error hhas tenders_writes hdense version _ _)
  | getBid other =>
    cases h
    exact hm.answer_onBids_eq_notFound_iff (rfl : (CatalogueOperation.get id).subject? = _)
  | bidStatus other =>
    cases h
    exact hm.answer_onBids_eq_notFound_iff (rfl : (CatalogueOperation.status id).subject? = _)
  | bidHistory other =>
    cases h
    exact hm.answer_onBids_eq_notFound_iff (rfl : (CatalogueOperation.history id).subject? = _)
  | editBid actor other content =>
    cases h
    exact answer_map_eq_error_iff.trans (hm.answer_author_eq_notFound_iff actor id
      fun hdense hhas => Catalogue.Writes.answer_edit_ne_error hhas bids_writes hdense content _)
  | rollbackBid actor other version =>
    cases h
    exact answer_map_eq_error_iff.trans (hm.answer_author_eq_notFound_iff actor id
      fun hdense hhas =>
        Catalogue.Writes.answer_rollback_ne_error hhas bids_writes hdense version _ _)
  | _ => cases h

/-- A request misses its subject exactly if the subject is not stored. -/
theorem Faithful.answer_eq_notFound_iff {m : Market} (hm : m.Faithful) {request : Request}
    {kind : EntityKind} {id : String} (h : request.subject? = some (kind, id)) :
    m.answer request.perform = .error (.notFound kind id) ↔ id ∉ m.tables.ids kind := by
  cases request with
  | operation op => exact hm.answer_operation_eq_notFound_iff h
  | store op =>
    cases op with
    | onTenders op =>
      obtain ⟨other, hother, heq⟩ := Option.map_eq_some_iff.mp h
      obtain ⟨rfl, rfl⟩ := Prod.mk.inj heq
      exact hm.answer_onTenders_eq_notFound_iff hother
    | onBids op =>
      obtain ⟨other, hother, heq⟩ := Option.map_eq_some_iff.mp h
      obtain ⟨rfl, rfl⟩ := Prod.mk.inj heq
      exact hm.answer_onBids_eq_notFound_iff hother
    | _ => cases h
  | _ => cases h

end Market

/-- As long as no cache is taught anything by hand, the caches of a session hold exactly what
is stored. Hence what is not found is not stored, and a username is resolved exactly if a user
of that name is stored, to the identifier of that user. -/
theorem Session.caches_mirror_tables (stage : Stage) (decisionLimit : Option UInt64)
    (steps : List Step) (hsteps : ∀ step ∈ steps, step.learns = false)
    (offered : Option String) :
    let m := ((fresh stage decisionLimit).after steps).market
    let reply request := (m.step (.request offered request)).1
    m.caches.Mirror m.tables ∧ m.tables.Keyed ∧
      (∀ request kind id, request.subject? = some (kind, id) →
        (reply request = .error (.notFound kind id) ↔ id ∉ m.tables.ids kind)) ∧
      (∀ username id, reply (.operation (.userId username)) = .ok (.text id) ↔
        ∃ user ∈ m.tables.users, user.username = username ∧ user.id = id) ∧
      (∀ username, reply (.operation (.userId username)) = .error (.notFound .user username) ↔
        ∀ user ∈ m.tables.users, user.username ≠ username) ∧
      ∀ user ∈ m.tables.users, reply (.operation (.userExists user.id)) = .ok (.flag true) := by
  intro m reply
  have hm : m.Faithful := faithful_after (faithful_fresh stage decisionLimit) hsteps
  have hoffered : (m.offer offered).Faithful := faithful_offer hm offered
  have hresolved (username : String) : reply (.operation (.userId username)) =
      (Market.found (.notFound .user username) (m.caches.users.value? username)).map .text := by
    change (m.offer offered).answer (Answer.text <$> Market.userId username) = _
    rw [Market.answer_map, Market.answer_userId]
    rfl
  refine ⟨hm.mirror, hm.keyed, ?_, ?_, ?_, ?_⟩
  · intro request kind id h
    exact hoffered.answer_eq_notFound_iff h
  · intro username id
    rw [hresolved, ← hm.value?_eq_some_iff]
    cases m.caches.users.value? username <;> simp [Except.map]
  · intro username
    rw [hresolved, ← hm.value?_eq_none_iff]
    cases m.caches.users.value? username <;> simp [Except.map]
  · intro user huser
    have hstored : m.tables.hasUser user.id = true := List.any_eq_true.mpr ⟨user, huser, by simp⟩
    change (m.offer offered).answer (Answer.flag <$> Market.userExists user.id) = _
    rw [Market.answer_map]
    exact congrArg (fun stored => (.ok (.flag stored) : Reply)) hstored

/-- After a run that stores a bid its status can be asked for, and that of no other. -/
theorem Session.caches_mirror_tables_bidding :
    let m := ((fresh .migrated none).after (.assemble :: biddingRun)).market
    (∀ step ∈ Step.assemble :: biddingRun, step.learns = false) ∧ m.caches.Mirror m.tables ∧
      (m.step (.request none (.operation (.bidStatus "c")))).1 = .error (.notFound .bid "c") ∧
      (m.step (.request none (.operation (.bidStatus "b")))).1 ≠ .error (.notFound .bid "b") := by
  intro m
  have hstored : ∀ step ∈ Step.assemble :: biddingRun, step.learns = false := by decide
  obtain ⟨hmirror, _, hsubject, _⟩ := caches_mirror_tables .migrated none _ hstored none
  refine ⟨hstored, hmirror, (hsubject _ .bid "c" rfl).mpr (by decide), fun hmissed => ?_⟩
  exact (hsubject _ .bid "b" rfl).mp hmissed (by decide)

end Procurement

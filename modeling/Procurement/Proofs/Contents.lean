import Procurement.Proofs.Requests

/-!
# What answers depend on

No request that a market is made for asks how often its caches were used. So two
markets that differ in counters alone answer alike and still differ in counters
alone afterwards. For requests that only read this is part of their description;
here it is shown of the requests that write, from the smallest to the largest.
-/

namespace Procurement

/-- What caches know after a registration depends on what they knew before it. -/
theorem Registration.contents_applyTo (r : Registration) {caches caches' : Caches}
    (h : caches.contents = caches'.contents) :
    (r.applyTo caches).contents = (r.applyTo caches').contents := by
  have hstep : ∀ c : Caches, (r.applyTo c).contents = (r.applyTo c.contents).contents := by
    intro c
    cases r with
    | tender id =>
      exact congrArg (fun tenders => { c.contents with tenders }) (c.tenders.contents_add id)
    | bid id => exact congrArg (fun bids => { c.contents with bids }) (c.bids.contents_add id)
    | user username id =>
      exact congrArg (fun users => { c.contents with users }) (c.users.contents_add username id)
  rw [hstep caches, hstep caches', h]

/-- What caches know after registrations depends on what they knew before them. -/
theorem Registration.contents_foldl_applyTo (registrations : List Registration)
    {caches caches' : Caches} (h : caches.contents = caches'.contents) :
    (registrations.foldl (fun caches r => r.applyTo caches) caches).contents =
      (registrations.foldl (fun caches r => r.applyTo caches) caches').contents := by
  induction registrations generalizing caches caches' with
  | nil => exact h
  | cons r rest ih => exact ih (r.contents_applyTo h)

namespace Market

variable {α β : Type}

/-- What is left of a registration but for counters does not depend on counters. -/
theorem contents_registered (r : Registration) {m m' : Market} (h : m.contents = m'.contents) :
    (m.registered r).contents = (m'.registered r).contents := by
  unfold registered
  rw [transaction_of_contents h]
  cases m'.transaction with
  | none =>
    have hcaches := r.contents_applyTo (caches_of_contents h)
    exact (congrArg₂
      (fun (n : Market) caches => { n with caches, transaction := none }) h hcaches :)
  | some handle =>
    exact (congrArg (fun n : Market => { n with transaction := some (handle.defer r) }) h :)

/-- A request whose answer, and whose effect but for counters, depend on no counter. -/
structure DependsOnContents (request : MarketM α) : Prop where
  answer_congr : ∀ {m m' : Market}, m.contents = m'.contents →
    m.answer request = m'.answer request
  after_congr : ∀ {m m' : Market}, m.contents = m'.contents →
    (m.after request).contents = (m'.after request).contents

/-- For a request that only reads, contents are all that matters. -/
theorem OnlyReads.dependsOnContents {request : MarketM α} (h : OnlyReads request) :
    DependsOnContents request where
  answer_congr := h.answer_of_contents
  after_congr {m m'} hm := by
    rw [contents_of_uncounted (h.after_uncounted m), contents_of_uncounted (h.after_uncounted m'),
      hm]

/-! ## Composition -/

section Composition

variable {first : MarketM α} {next : α → MarketM β}

/-- Two requests in a row depend on contents if each of them does. -/
theorem DependsOnContents.bind (hfirst : DependsOnContents first)
    (hnext : ∀ a, DependsOnContents (next a)) : DependsOnContents (first >>= next) where
  answer_congr {m m'} hm := by
    rw [answer_bind, answer_bind, hfirst.answer_congr hm]
    cases m'.answer first with
    | error refusal => rfl
    | ok a => exact (hnext a).answer_congr (hfirst.after_congr hm)
  after_congr {m m'} hm := by
    rw [after_bind, after_bind, hfirst.answer_congr hm]
    cases m'.answer first with
    | error refusal => exact hfirst.after_congr hm
    | ok a => exact (hnext a).after_congr (hfirst.after_congr hm)

/-- Putting something around an answer brings no counters into it. -/
theorem DependsOnContents.map (h : DependsOnContents first) (f : α → β) :
    DependsOnContents (f <$> first) where
  answer_congr hm := by rw [answer_map, answer_map, h.answer_congr hm]
  after_congr hm := by rw [after_map, after_map, h.after_congr hm]

/-- A request depends on contents if it does so in either case. -/
theorem dependsOnContents_ite (condition : Prop) [Decidable condition] {yes no : MarketM α}
    (hyes : DependsOnContents yes) (hno : DependsOnContents no) :
    DependsOnContents (if condition then yes else no) := by
  split
  · exact hyes
  · exact hno

/-- Reading the whole market does no harm to a request that looks at the contents alone. -/
theorem dependsOnContents_get_bind {next : Market → MarketM β}
    (hsame : ∀ {m m' : Market}, m.contents = m'.contents → next m = next m')
    (hnext : ∀ m, DependsOnContents (next m)) : DependsOnContents (get >>= next) where
  answer_congr {m m'} hm := by
    rw [answer_bind, answer_bind, answer_get, answer_get, after_get, after_get]
    dsimp only
    rw [hsame hm]
    exact (hnext m').answer_congr hm
  after_congr {m m'} hm := by
    rw [after_bind, after_bind, answer_get, answer_get, after_get, after_get]
    dsimp only
    rw [hsame hm]
    exact (hnext m').after_congr hm

end Composition

/-! ## Single writes -/

/-- Drawing an identifier has nothing to do with counters. -/
theorem dependsOnContents_drawId : DependsOnContents drawId where
  answer_congr hm := by rw [answer_drawId, answer_drawId, ids_of_contents hm]
  after_congr {m m'} hm := by
    rw [after_drawId, after_drawId, ids_of_contents hm]
    exact congrArg (fun n : Market => { n with ids := m'.ids.draw.2 }) hm

/-- An identifier is drawn, and then the time is read. -/
theorem dependsOnContents_drawId_get_bind {next : String → Market → MarketM β}
    (hsame : ∀ id {m m' : Market}, m.now = m'.now → next id m = next id m')
    (hnext : ∀ id m, DependsOnContents (next id m)) :
    DependsOnContents (drawId >>= fun id => get >>= next id) :=
  dependsOnContents_drawId.bind fun id =>
    dependsOnContents_get_bind (fun hm => hsame id (now_of_contents hm)) (hnext id)

/-- Storing something has nothing to do with counters. -/
theorem dependsOnContents_store (refusal : Violation → MarketError)
    (insertion : Tables → Except Violation Tables) :
    DependsOnContents (store refusal insertion) where
  answer_congr hm := by rw [answer_store, answer_store, tables_of_contents hm]
  after_congr {m m'} hm := by
    rw [after_store, after_store, tables_of_contents hm]
    cases insertion m'.tables with
    | error violation => exact hm
    | ok tables => exact congrArg (fun n : Market => { n with tables }) hm

/-- Teaching the caches has nothing to do with their counters. -/
theorem dependsOnContents_register (r : Registration) : DependsOnContents (register r) where
  answer_congr _ := rfl
  after_congr hm := contents_registered r hm

/-! ## Transactions -/

/-- Discarding what a transaction did does not bring counters into play. -/
theorem contents_discard {m m' n n' : Market} (hm : m.contents = m'.contents)
    (hn : n.contents = n'.contents) : (discard m n).contents = (discard m' n').contents :=
  (congrArg₂ (fun (m n : Market) => discard m n) hm hn :)

/-- Settling a transaction does not bring counters into play. -/
theorem contents_settle {m m' n n' : Market} (hm : m.contents = m'.contents)
    (hn : n.contents = n'.contents) (registrations : List Registration) :
    (settle m n registrations).contents = (settle m' n' registrations).contents := by
  have hcaches := Registration.contents_foldl_applyTo registrations (caches_of_contents hn)
  unfold settle
  rw [transaction_of_contents hm]
  exact (congrArg₂
    (fun (n : Market) caches => { n with transaction := m'.transaction, caches }) hn hcaches :)

/-- The outcome of a transaction depends on contents if its work does. -/
private theorem DependsOnContents.decisionTransaction_congr {request : MarketM Unit}
    (h : DependsOnContents request) (limit : Option UInt64) {m m' : Market}
    (hm : m.contents = m'.contents) :
    (decisionTransaction limit (workOf request) m).1 =
        (decisionTransaction limit (workOf request) m').1 ∧
      (decisionTransaction limit (workOf request) m).2.contents =
        (decisionTransaction limit (workOf request) m').2.contents := by
  have hopened : m.opened.contents = m'.opened.contents :=
    (congrArg opened hm :)
  have hanswer := h.answer_congr hopened
  have hafter := h.after_congr hopened
  have hwork (n : Market) : workOf request { n with transaction := some {} } =
      ({ ending := .returns (n.opened.answer request) }, n.opened.after request) := rfl
  unfold Market.decisionTransaction
  rw [hwork, hwork, hanswer, slow_of_contents hm]
  dsimp only
  rw [transaction_of_contents hafter]
  cases (if (m'.slow || false) = true then limit else none) with
  | some milliseconds => exact ⟨rfl, contents_discard hm hafter⟩
  | none =>
    cases m'.opened.answer request with
    | error refusal => exact ⟨rfl, contents_discard hm hafter⟩
    | ok value =>
      simp only [Bool.false_eq_true, if_false]
      cases ((m'.opened.after request).transaction.getD {}).commit with
      | error refusal => exact ⟨rfl, contents_discard hm hafter⟩
      | ok registrations => exact ⟨rfl, contents_settle hm hafter registrations⟩

/-- A transaction depends on contents if its work does. -/
theorem DependsOnContents.decisionTransaction {request : MarketM Unit}
    (h : DependsOnContents request) (limit : Option UInt64) :
    DependsOnContents
      (liftM (decisionTransaction limit (workOf request)) : MarketM (Ending Unit)) where
  answer_congr hm := by
    rw [answer_decisionTransaction, answer_decisionTransaction,
      (h.decisionTransaction_congr limit hm).1]
  after_congr hm := (h.decisionTransaction_congr limit hm).2

end Market

/-! ## Catalogues -/

namespace Catalogue

open Market

variable {Status Origin Content : Type} {c : Catalogue Status Origin Content}

/-- Replacing a register has nothing to do with counters. -/
theorem dependsOnContents_update (f : Register Status Origin Content → _) :
    DependsOnContents (c.update f) where
  answer_congr _ := rfl
  after_congr {m m'} hm := by
    rw [after_update, after_update, tables_of_contents hm]
    exact congrArg (fun n : Market =>
      { n with tables := c.setRegister m'.tables (f (c.register m'.tables)) }) hm

/-- Adding an entity depends on contents. -/
theorem dependsOnContents_insert (c : Catalogue Status Origin Content) (origin : Origin)
    (content : Content) : DependsOnContents (c.insert origin content) := by
  refine dependsOnContents_drawId_get_bind (fun id {m m'} hnow => ?_) fun id m => ?_
  · rw [hnow]
  · exact (dependsOnContents_store _ _).bind fun _ => (dependsOnContents_register _).bind fun _ =>
      (onlyReads_pure id).dependsOnContents

variable (hc : c.Lawful)

include hc

/-- Setting a status depends on contents. -/
theorem Lawful.dependsOnContents_setStatus (id : String) (status : Status) :
    DependsOnContents (c.setStatus id status) :=
  (hc.onlyReads_ensureExists id).dependsOnContents.bind fun _ =>
    (dependsOnContents_update _).bind fun _ => (hc.onlyReads_get id).dependsOnContents

/-- Passing to another status depends on contents. -/
theorem Lawful.dependsOnContents_transition [DecidableEq Status] (id : String)
    (sources : List Status) (target : Status) :
    DependsOnContents (c.transition id sources target) := by
  refine (hc.onlyReads_ensureExists id).dependsOnContents.bind fun _ => ?_
  refine (onlyReads_stored _).dependsOnContents.bind fun row? => ?_
  split
  · exact (onlyReads_pure none).dependsOnContents
  · exact (dependsOnContents_update _).bind fun _ => (onlyReads_pure _).dependsOnContents

/-- Setting a status from some others depends on contents. -/
theorem Lawful.dependsOnContents_setStatusFrom [DecidableEq Status] (id : String)
    (sources : List Status) (target : Status) :
    DependsOnContents (c.setStatusFrom id sources target) :=
  (hc.dependsOnContents_transition id sources target).bind fun _ =>
    (onlyReads_pure _).dependsOnContents

/-- Appending content depends on contents. -/
theorem Lawful.dependsOnContents_append (id : String) (content : Content) :
    DependsOnContents (c.append id content) :=
  (onlyReads_storedOr _ _).dependsOnContents.bind fun _ =>
    (dependsOnContents_update _).bind fun _ => (hc.onlyReads_get id).dependsOnContents

/-- An edit depends on contents. -/
theorem Lawful.dependsOnContents_edit (id : String) (content : Content) :
    DependsOnContents (c.edit id content) :=
  (hc.onlyReads_ensureExists id).dependsOnContents.bind fun _ =>
    hc.dependsOnContents_append id content

/-- A roll-back depends on contents. -/
theorem Lawful.dependsOnContents_rollback (id : String) (version : Int) :
    DependsOnContents (c.rollback id version) :=
  (hc.onlyReads_ensureExists id).dependsOnContents.bind fun _ =>
    (onlyReads_storedOr _ _).dependsOnContents.bind fun content =>
      hc.dependsOnContents_append id content

end Catalogue

/-! ## Requests of users -/

namespace Market

/-- Creating a user depends on contents. -/
theorem dependsOnContents_createUser (username firstName lastName : String) :
    DependsOnContents (createUser username firstName lastName) := by
  refine dependsOnContents_drawId_get_bind (fun id {m m'} hnow => ?_) fun id m => ?_
  · rw [hnow]
  · exact (dependsOnContents_store _ _).bind fun _ => (dependsOnContents_register _).bind fun _ =>
      (onlyReads_pure id).dependsOnContents

/-- Creating an organization depends on contents. -/
theorem dependsOnContents_createOrganization (type : OrganizationType)
    (name description : String) :
    DependsOnContents (createOrganization type name description) := by
  refine dependsOnContents_drawId_get_bind (fun id {m m'} hnow => ?_) fun id m => ?_
  · rw [hnow]
  · exact (dependsOnContents_store _ _).bind fun _ => (onlyReads_pure id).dependsOnContents

/-- Making a user responsible depends on contents. -/
theorem dependsOnContents_makeResponsible (organizationId username : String) :
    DependsOnContents (makeResponsible organizationId username) :=
  (onlyReads_userId username).dependsOnContents.bind fun _ =>
    dependsOnContents_drawId.bind fun _ => dependsOnContents_store _ _

/-- Adding a tender depends on contents. -/
theorem dependsOnContents_insertTender (organizationId creator : String)
    (content : TenderContent) : DependsOnContents (insertTender organizationId creator content) :=
  (onlyReads_userId creator).dependsOnContents.bind fun _ =>
    tenders.dependsOnContents_insert _ content

/-- Creating a tender depends on contents. -/
theorem dependsOnContents_createTender (actor organizationId : String)
    (content : TenderContent) : DependsOnContents (createTender actor organizationId content) :=
  (onlyReads_requireResponsible actor organizationId).dependsOnContents.bind fun _ =>
    (dependsOnContents_insertTender organizationId actor content).bind fun id =>
      (tenders_lawful.onlyReads_get id).dependsOnContents

/-- What only members do depends on contents if it does so without the check. -/
theorem dependsOnContents_requireMember_bind {α : Type} {request : MarketM α}
    (h : DependsOnContents request) (actor tenderId : String) :
    DependsOnContents (requireMember actor tenderId >>= fun _ => request) :=
  (onlyReads_requireMember actor tenderId).dependsOnContents.bind fun _ => h

/-- What only authors do depends on contents if it does so without the check. -/
theorem dependsOnContents_requireAuthor_bind {α : Type} {request : MarketM α}
    (h : DependsOnContents request) (actor bidId : String) :
    DependsOnContents (requireAuthor actor bidId >>= fun _ => request) :=
  (onlyReads_requireAuthor actor bidId).dependsOnContents.bind fun _ => h

/-- Creating a bid depends on contents. -/
theorem dependsOnContents_createBid (tenderId : String) (author : Author)
    (content : BidContent) : DependsOnContents (createBid tenderId author content) := by
  refine (onlyReads_authorExists author).dependsOnContents.bind fun found => ?_
  cases found with
  | true =>
    exact (bids.dependsOnContents_insert { tenderId, author } content).bind fun id =>
      (bids_lawful.onlyReads_get id).dependsOnContents
  | false => exact (onlyReads_throw _).dependsOnContents

/-- Setting the status of a bid depends on contents. -/
theorem dependsOnContents_setBidStatus (actor bidId : String) (status : BidStatus) :
    DependsOnContents (setBidStatus actor bidId status) := by
  refine dependsOnContents_requireAuthor_bind ?_ actor bidId
  dsimp only
  split
  · exact (onlyReads_throw _).dependsOnContents
  · refine (bids_lawful.dependsOnContents_setStatusFrom bidId _ status).bind fun changed => ?_
    cases changed with
    | true => exact (bids_lawful.onlyReads_get bidId).dependsOnContents
    | false => exact (onlyReads_throw _).dependsOnContents

/-- Deciding a bid that is published depends on contents. -/
theorem dependsOnContents_decideIfPublished (bidId : String) (target : BidStatus) :
    DependsOnContents (decideIfPublished bidId target) :=
  (bids_lawful.dependsOnContents_transition bidId _ target).bind fun _ =>
    (onlyReads_pure _).dependsOnContents

/-- Applying a decision depends on contents. -/
theorem dependsOnContents_applyDecision (bidId : String) (decision : Decision) :
    DependsOnContents (applyDecision bidId decision) := by
  refine (dependsOnContents_decideIfPublished bidId _).bind fun tenderId? => ?_
  cases tenderId? with
  | none => exact (onlyReads_throw _).dependsOnContents
  | some tenderId =>
    refine dependsOnContents_ite _ ?_ (onlyReads_pure ()).dependsOnContents
    refine (tenders_lawful.dependsOnContents_setStatusFrom tenderId _ _).bind fun closed => ?_
    exact dependsOnContents_ite _ (onlyReads_pure ()).dependsOnContents
      (onlyReads_throw _).dependsOnContents

/-- A decision is judged and carried out without regard to counters. -/
theorem dependsOnContents_submitDecision (actor bidId : String) (decision : Decision) :
    DependsOnContents (submitDecision actor bidId decision) := by
  refine dependsOnContents_drawId.bind fun _ => ?_
  refine (onlyReads_bidOrganization bidId).dependsOnContents.bind fun organizationId => ?_
  refine (onlyReads_requireResponsible actor organizationId).dependsOnContents.bind fun _ => ?_
  refine dependsOnContents_get_bind ?_ fun n => ?_
  · intro m m' hm
    rw [decisionLimit_of_contents hm]
  · refine ((dependsOnContents_applyDecision bidId decision).decisionTransaction
      n.decisionLimit).bind fun ending => ?_
    split
    · exact (onlyReads_throw _).dependsOnContents
    · exact (bids_lawful.onlyReads_get bidId).dependsOnContents

/-- Adding feedback depends on contents. -/
theorem dependsOnContents_insertFeedback (bidId content authorId receiverId : String) :
    DependsOnContents (insertFeedback bidId content authorId receiverId) := by
  refine dependsOnContents_drawId_get_bind (fun id {m m'} hnow => ?_) fun id m => ?_
  · rw [hnow]
  · exact (dependsOnContents_store _ _).bind fun _ => (onlyReads_pure _).dependsOnContents

/-- Leaving feedback depends on contents. -/
theorem dependsOnContents_submitFeedback (actor bidId content : String) :
    DependsOnContents (submitFeedback actor bidId content) :=
  (onlyReads_bidOrganization bidId).dependsOnContents.bind fun organizationId =>
    (onlyReads_requireResponsible actor organizationId).dependsOnContents.bind fun _ =>
      (onlyReads_userId actor).dependsOnContents.bind fun authorId =>
        (onlyReads_bidAuthor bidId).dependsOnContents.bind fun author =>
          dependsOnContents_insertFeedback bidId content authorId author.id

/-- A survey of what is stored depends on contents. -/
theorem dependsOnContents_survey : DependsOnContents survey := by
  refine Catalogue.onlyReads_loadIds.dependsOnContents.bind fun tenderIds => ?_
  refine (onlyReads_mapM tenderIds tenders_lawful.onlyReads_dossier).dependsOnContents.bind
    fun tenders => ?_
  refine Catalogue.onlyReads_loadIds.dependsOnContents.bind fun bidIds => ?_
  refine (onlyReads_mapM bidIds bids_lawful.onlyReads_dossier).dependsOnContents.bind
    fun bids => ?_
  refine onlyReads_usernames.dependsOnContents.bind fun users => ?_
  refine dependsOnContents_get_bind (fun {m m'} hm => ?_) fun m => ?_
  · rw [counts_of_contents hm]
  · exact (onlyReads_pure _).dependsOnContents

end Market

/-! ## All requests -/

section Requests

open Market

/-- Every operation on a catalogue depends on contents. -/
theorem CatalogueOperation.dependsOnContents {Status Origin Content : Type} [DecidableEq Status]
    {c : Catalogue Status Origin Content} (hc : c.Lawful)
    (forms : Answer.Forms Status Origin Content) (op : CatalogueOperation Status Content) :
    DependsOnContents (op.perform c forms) := by
  cases op with
  | «exists» id => exact (hc.onlyReads_exists? id).dependsOnContents.map _
  | loadIds => exact Catalogue.onlyReads_loadIds.dependsOnContents.map _
  | get id => exact (hc.onlyReads_get id).dependsOnContents.map _
  | status id => exact (hc.onlyReads_status id).dependsOnContents.map _
  | setStatus id target => exact (hc.dependsOnContents_setStatus id target).map _
  | setStatusFrom sources id target =>
    exact (hc.dependsOnContents_setStatusFrom id sources target).map _
  | setStatusIfPublished id target => exact (hc.dependsOnContents_setStatusFrom id _ target).map _
  | edit id content => exact (hc.dependsOnContents_edit id content).map _
  | rollback id version => exact (hc.dependsOnContents_rollback id version).map _
  | contentVersion id version =>
    exact (hc.onlyReads_contentVersion id version).dependsOnContents.map _
  | history id => exact (hc.onlyReads_history id).dependsOnContents.map _

/-- Every operation of a store depends on contents. -/
theorem StoreOperation.dependsOnContents (op : StoreOperation) :
    DependsOnContents op.perform := by
  cases op with
  | insertTender organizationId creator content =>
    exact (dependsOnContents_insertTender organizationId creator content).map _
  | publishedTenders serviceTypes page =>
    exact (onlyReads_publishedTenders serviceTypes page).dependsOnContents.map _
  | tendersOf username page => exact (onlyReads_tendersOf username page).dependsOnContents.map _
  | onTenders op => exact op.dependsOnContents tenders_lawful Answer.tenderForms
  | insertBid tenderId author content =>
    exact (bids.dependsOnContents_insert { tenderId, author } content).map _
  | bidsWithTender tenderId page =>
    exact (onlyReads_bidsWithTender tenderId page).dependsOnContents.map _
  | bidsWithAuthor authorId page =>
    exact (onlyReads_bidsWithAuthor authorId page).dependsOnContents.map _
  | tenderOf bidId => exact (onlyReads_tenderOf bidId).dependsOnContents.map _
  | bidAuthor bidId => exact (onlyReads_bidAuthor bidId).dependsOnContents.map _
  | decideIfPublished bidId target => exact (dependsOnContents_decideIfPublished bidId target).map _
  | onBids op => exact op.dependsOnContents bids_lawful Answer.bidForms

/-- Every operation on feedback depends on contents. -/
theorem FeedbackOperation.dependsOnContents (op : FeedbackOperation) :
    DependsOnContents op.perform := by
  cases op with
  | insert bidId content authorId receiverId =>
    exact (dependsOnContents_insertFeedback bidId content authorId receiverId).map _
  | reviewsFor userId page => exact (onlyReads_reviewsFor userId page).dependsOnContents.map _

/-- Every operation of a service depends on contents. -/
theorem Operation.dependsOnContents (op : Operation) : DependsOnContents op.perform := by
  cases op with
  | createUser username first last => exact (dependsOnContents_createUser username first last).map _
  | userId username => exact (onlyReads_userId username).dependsOnContents.map _
  | userExists id => exact (onlyReads_userExists id).dependsOnContents.map _
  | usernames => exact onlyReads_usernames.dependsOnContents.map _
  | createOrganization type name description =>
    exact (dependsOnContents_createOrganization type name description).map _
  | makeResponsible organizationId username =>
    exact (dependsOnContents_makeResponsible organizationId username).bind fun _ =>
      (onlyReads_pure _).dependsOnContents
  | organizationExists id => exact (onlyReads_organizationExists id).dependsOnContents.map _
  | createTender actor organizationId content =>
    exact (dependsOnContents_createTender actor organizationId content).map _
  | publishedTenders serviceTypes page =>
    exact (onlyReads_publishedTenders serviceTypes page).dependsOnContents.map _
  | tendersOf username page => exact (onlyReads_tendersOf username page).dependsOnContents.map _
  | getTender id => exact (tenders_lawful.onlyReads_get id).dependsOnContents.map _
  | tenderStatus id => exact (tenders_lawful.onlyReads_status id).dependsOnContents.map _
  | setTenderStatus actor id status =>
    exact (dependsOnContents_requireMember_bind
      (tenders_lawful.dependsOnContents_setStatus id status) actor id).map _
  | editTender actor id content =>
    exact (dependsOnContents_requireMember_bind
      (tenders_lawful.dependsOnContents_edit id content) actor id).map _
  | rollbackTender actor id version =>
    exact (dependsOnContents_requireMember_bind
      (tenders_lawful.dependsOnContents_rollback id version) actor id).map _
  | tenderHistory id => exact (tenders_lawful.onlyReads_history id).dependsOnContents.map _
  | createBid tenderId author content =>
    exact (dependsOnContents_createBid tenderId author content).map _
  | bidsOf username page => exact (onlyReads_bidsOf username page).dependsOnContents.map _
  | bidsOn actor tenderId page =>
    exact (onlyReads_bidsOn actor tenderId page).dependsOnContents.map _
  | getBid id => exact (bids_lawful.onlyReads_get id).dependsOnContents.map _
  | bidStatus id => exact (bids_lawful.onlyReads_status id).dependsOnContents.map _
  | setBidStatus actor id status => exact (dependsOnContents_setBidStatus actor id status).map _
  | editBid actor id content =>
    exact (dependsOnContents_requireAuthor_bind
      (bids_lawful.dependsOnContents_edit id content) actor id).map _
  | rollbackBid actor id version =>
    exact (dependsOnContents_requireAuthor_bind
      (bids_lawful.dependsOnContents_rollback id version) actor id).map _
  | bidHistory id => exact (bids_lawful.onlyReads_history id).dependsOnContents.map _
  | submitDecision actor bidId decision =>
    exact (dependsOnContents_submitDecision actor bidId decision).map _
  | submitFeedback actor bidId content =>
    exact (dependsOnContents_submitFeedback actor bidId content).map _
  | reviews requester tenderId author page =>
    exact (onlyReads_reviews requester tenderId author page).dependsOnContents.map _

/-- What is asked about the counters is the only question that they answer. -/
theorem Request.dependsOnContents {request : Request} (h : request ≠ .usage) :
    DependsOnContents request.perform := by
  cases request with
  | operation op => exact op.dependsOnContents
  | relation query => exact query.onlyReads.dependsOnContents
  | store op => exact op.dependsOnContents
  | feedback op => exact op.dependsOnContents
  | counts => exact onlyReads_counts.dependsOnContents
  | usage => exact absurd rfl h
  | survey => exact dependsOnContents_survey.map _
  | learn registration =>
    exact (dependsOnContents_register registration).bind fun _ =>
      onlyReads_counts.dependsOnContents

/-- Whatever is asked, even about counters, what is left but for counters does not depend on
them. -/
theorem Request.contents_after (request : Request) {m m' : Market}
    (h : m.contents = m'.contents) :
    (m.after request.perform).contents = (m'.after request.perform).contents := by
  by_cases husage : request = .usage
  · rw [husage]
    exact h
  · exact (dependsOnContents husage).after_congr h

end Requests

end Procurement

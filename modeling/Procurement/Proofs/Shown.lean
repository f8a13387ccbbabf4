import Procurement.Proofs.Extension

/-!
# What answers show

An answer may show tenders, bids and feedback. Whatever is shown is stored when the
answer is given: each tender and bid with the birth it is shown with, and feedback
as it is. A request ends with a look at the tables, so it does not matter what came
before that; only a survey looks at them more than once.
-/

namespace Procurement

variable {Status Origin Content : Type}

/-- What of an entity never changes. -/
def Entity.birth (e : Entity Status Origin Content) : Birth Origin := ⟨e.id, e.origin, e.createdAt⟩

namespace Register

variable {r : Register Status Origin Content} {e : Entity Status Origin Content}

/-- An entity is shown with the birth of its row. -/
theorem birth_of_join? {row : Row Status Origin} (h : r.join? row = some e) :
    e.birth = row.birth := by
  obtain ⟨content, _, rfl⟩ := Option.map_eq_some_iff.mp h
  rfl

/-- An entity that is found has its birth in the register. -/
theorem birth_mem_of_find? {id : String} (h : r.find? id = some e) : e.birth ∈ r.births := by
  obtain ⟨row, hrow, hjoin⟩ := Option.bind_eq_some_iff.mp h
  rw [birth_of_join? hjoin]
  exact List.mem_map_of_mem (mem_of_row? hrow)

/-- An entity that is listed has its birth in the register. -/
theorem birth_mem_of_mem_listing [Named Content] {admits : Entity Status Origin Content → Bool}
    (h : e ∈ r.listing admits) : e.birth ∈ r.births := by
  obtain ⟨hmem, _⟩ := List.mem_filter.mp (List.mem_mergeSort.mp h)
  obtain ⟨row, hrow, hjoin⟩ := List.mem_filterMap.mp hmem
  rw [birth_of_join? hjoin]
  exact List.mem_map_of_mem hrow

end Register

/-- Whatever is on a page is in the listing. -/
theorem Page.mem_of_mem_select {α : Type} {page : Page} {listing : List α} {a : α}
    (h : a ∈ page.select listing) : a ∈ listing := by
  unfold Page.select at h
  dsimp only at h
  split at h
  · exact List.mem_of_mem_drop h
  · exact List.mem_of_mem_drop (List.mem_of_mem_take h)

namespace Answer

/-- The tenders that an answer shows. -/
def shownTenders : Answer → List Tender
  | tender value => [value]
  | tenders values => values
  | survey value => value.tenders.map Dossier.entity
  | _ => []

/-- The bids that an answer shows. -/
def shownBids : Answer → List Bid
  | bid value => [value]
  | bids values => values
  | survey value => value.bids.map Dossier.entity
  | _ => []

/-- The feedback that an answer shows. -/
def shownFeedback : Answer → List Feedback
  | feedback value => [value]
  | reviews values => values
  | _ => []

/-- What an answer shows is stored, each tender and bid with the birth that is shown. -/
structure ShowsStored (t : Tables) (answer : Answer) : Prop where
  tender : ∀ e ∈ answer.shownTenders, e.birth ∈ t.tenders.births
  bid : ∀ e ∈ answer.shownBids, e.birth ∈ t.bids.births
  feedback : ∀ f ∈ answer.shownFeedback, f ∈ t.feedback

section ShowsStored

variable {t : Tables} {answer : Answer}

/-- Where nothing is shown all that is shown is stored. -/
private theorem forall_mem_of_eq_nil {α : Type} {shown : List α} (h : shown = [])
    {stored : α → Prop} : ∀ a ∈ shown, stored a :=
  fun a hmem => absurd (h ▸ hmem : a ∈ []) List.not_mem_nil

/-- An answer that shows nothing but tenders shows what is stored if these are. -/
theorem ShowsStored.of_tenders (h : ∀ e ∈ answer.shownTenders, e.birth ∈ t.tenders.births)
    (hbids : answer.shownBids = []) (hfeedback : answer.shownFeedback = []) :
    answer.ShowsStored t :=
  ⟨h, forall_mem_of_eq_nil hbids, forall_mem_of_eq_nil hfeedback⟩

/-- An answer that shows nothing but bids shows what is stored if these are. -/
theorem ShowsStored.of_bids (h : ∀ e ∈ answer.shownBids, e.birth ∈ t.bids.births)
    (htenders : answer.shownTenders = []) (hfeedback : answer.shownFeedback = []) :
    answer.ShowsStored t :=
  ⟨forall_mem_of_eq_nil htenders, h, forall_mem_of_eq_nil hfeedback⟩

/-- An answer that shows nothing but feedback shows what is stored if this is. -/
theorem ShowsStored.of_feedback (h : ∀ f ∈ answer.shownFeedback, f ∈ t.feedback)
    (htenders : answer.shownTenders = []) (hbids : answer.shownBids = []) :
    answer.ShowsStored t :=
  ⟨forall_mem_of_eq_nil htenders, forall_mem_of_eq_nil hbids, h⟩

/-- Whether an answer shows no tender, no bid and no feedback. -/
def showsNothing (answer : Answer) : Bool :=
  answer.shownTenders.isEmpty && answer.shownBids.isEmpty && answer.shownFeedback.isEmpty

/-- An answer that shows nothing shows what is stored. -/
theorem ShowsStored.of_nothing (h : answer.showsNothing = true) : answer.ShowsStored t := by
  simp only [showsNothing, Bool.and_eq_true, List.isEmpty_iff] at h
  exact .of_tenders (forall_mem_of_eq_nil h.1.1) h.1.2 h.2

end ShowsStored

end Answer

/-! ## Requests that end with a look at the tables -/

namespace Market

variable {α β : Type}

/-- Whatever a request is answered with is related so to the tables that it leaves behind. -/
def Yields (related : Tables → α → Prop) (request : MarketM α) : Prop :=
  ∀ ⦃m : Market⦄ ⦃a⦄, m.answer request = .ok a → related (m.after request).tables a

variable {related : Tables → α → Prop}

/-- It does not matter what comes before the end of a request. -/
theorem Yields.bind {first : MarketM β} {next : β → MarketM α}
    (h : ∀ b, Yields related (next b)) : Yields related (first >>= next) := by
  intro m a ha
  obtain ⟨b, hb, ha⟩ := answer_bind_eq_ok_iff.mp ha
  rw [after_bind_of_answer hb]
  exact h b ha

/-- What is put around an answer is related to the tables by what is in it. -/
theorem Yields.map {f : β → α} {request : MarketM β}
    (h : Yields (fun t b => related t (f b)) request) : Yields related (f <$> request) := by
  intro m a ha
  obtain ⟨b, hb, rfl⟩ := answer_map_eq_ok_iff.mp ha
  rw [after_map]
  exact h hb

/-- What is related to the tables in one way is so in every way that follows from it. -/
theorem Yields.mono {related' : Tables → α → Prop} {request : MarketM α}
    (h : Yields related request) (himplies : ∀ t a, related t a → related' t a) :
    Yields related' request :=
  fun _ a ha => himplies _ a (h ha)

/-- Any request is answered with something that is related to all tables. -/
theorem yields_of_forall (h : ∀ t a, related t a) (request : MarketM α) :
    Yields related request :=
  fun _ a _ => h _ a

/-- A refused request is answered with nothing. -/
theorem yields_throw (refusal : MarketError) : Yields related (throw refusal) := by
  intro m a ha
  cases ha

/-- A request's answer is related to the tables if it is so in either case. -/
theorem yields_ite (condition : Prop) [Decidable condition] {yes no : MarketM α}
    (hyes : Yields related yes) (hno : Yields related no) :
    Yields related (if condition then yes else no) := by
  split
  · exact hyes
  · exact hno

/-- The answer to a question is related to the tables that answer it. -/
theorem yields_stored {query : Tables → α} (h : ∀ t, related t (query t)) :
    Yields related (stored query) := by
  intro m a ha
  obtain rfl := Except.ok.inj ha
  exact h m.tables

/-- The answer to a question that can be refused is related to the tables that answer it. -/
theorem yields_storedOr {refusal : MarketError} {query : Tables → Option α}
    (h : ∀ t a, query t = some a → related t a) : Yields related (storedOr refusal query) := by
  intro m a ha
  rw [answer_storedOr] at ha
  rw [after_storedOr]
  exact h m.tables a (found_eq_ok_iff.mp ha)

end Market

namespace Catalogue

open Market

variable {c : Catalogue Status Origin Content}

/-- That an entity is stored with its birth. -/
def IsBorn (c : Catalogue Status Origin Content) (t : Tables)
    (e : Entity Status Origin Content) : Prop :=
  e.birth ∈ (c.register t).births

/-- An entity that is read is stored with its birth. -/
theorem yields_get (id : String) : Yields c.IsBorn (c.get id) :=
  Yields.bind fun _ => yields_storedOr fun _ _ => Register.birth_mem_of_find?

/-- An entity that was given a status is stored with its birth. -/
theorem yields_setStatus (id : String) (status : Status) :
    Yields c.IsBorn (c.setStatus id status) :=
  Yields.bind fun _ => Yields.bind fun _ => yields_get id

/-- An entity that content was appended to is stored with its birth. -/
theorem yields_append (id : String) (content : Content) : Yields c.IsBorn (c.append id content) :=
  Yields.bind fun _ => Yields.bind fun _ => yields_get id

/-- An entity that was edited is stored with its birth. -/
theorem yields_edit (id : String) (content : Content) : Yields c.IsBorn (c.edit id content) :=
  Yields.bind fun _ => yields_append id content

/-- An entity that was rolled back is stored with its birth. -/
theorem yields_rollback (id : String) (version : Int) :
    Yields c.IsBorn (c.rollback id version) :=
  Yields.bind fun _ => Yields.bind fun content => yields_append id content

/-- Entities that are listed are stored with their births. -/
theorem yields_list [Named Content] (admits : Entity Status Origin Content → Bool) (page : Page) :
    Yields (fun t es => ∀ e ∈ es, c.IsBorn t e) (c.list admits page) :=
  yields_stored fun _ _ hmem => Register.birth_mem_of_mem_listing (Page.mem_of_mem_select hmem)

/-- All there is of an entity is shown of one that is stored with its birth. -/
theorem isBorn_of_dossier (hc : c.Lawful) {m : Market} {id : String}
    {d : Dossier Status Origin Content} (h : m.answer (c.dossier id) = .ok d) :
    c.IsBorn m.tables d.entity := by
  obtain ⟨e, he, hrest⟩ := answer_bind_eq_ok_iff.mp h
  obtain ⟨_, _, hd⟩ := answer_bind_eq_ok_iff.mp hrest
  obtain rfl := Except.ok.inj hd
  exact (hc.onlyReads_get id).tables_after m ▸ yields_get id he

/-- All there is of some entities is shown of some that are stored with their births. -/
theorem isBorn_of_mem_dossiers (hc : c.Lawful) {m : Market} {ids : List String}
    {ds : List (Dossier Status Origin Content)} (h : m.answer (ids.mapM c.dossier) = .ok ds) :
    ∀ d ∈ ds, c.IsBorn m.tables d.entity := by
  induction ids generalizing m ds with
  | nil =>
    obtain rfl := Except.ok.inj h
    exact fun _ hmem => absurd hmem List.not_mem_nil
  | cons id rest ih =>
    rw [List.mapM_cons] at h
    obtain ⟨d, hd, hrest⟩ := answer_bind_eq_ok_iff.mp h
    obtain ⟨ds', hds', heq⟩ := answer_bind_eq_ok_iff.mp hrest
    obtain rfl := Except.ok.inj heq
    intro d' hmem
    rcases List.mem_cons.mp hmem with rfl | htail
    · exact isBorn_of_dossier hc hd
    · exact (hc.onlyReads_dossier id).tables_after m ▸ ih hds' d' htail

end Catalogue

/-! ## All requests -/

namespace Market

/-- A request that shows nothing shows what is stored. -/
theorem yields_nothing {α : Type} {f : α → Answer} (h : ∀ a, (f a).showsNothing = true)
    (request : MarketM α) : Yields Answer.ShowsStored (f <$> request) := by
  have hall : Yields (fun t a => (f a).ShowsStored t) request :=
    yields_of_forall (fun _ a => .of_nothing (h a)) request
  exact hall.map

/-- A request that shows one tender shows what is stored if the tender is. -/
theorem yields_tender {request : MarketM Tender} (h : Yields tenders.IsBorn request) :
    Yields Answer.ShowsStored (.tender <$> request) :=
  (h.mono fun _ _ hborn => .of_tenders (List.forall_mem_singleton.mpr hborn) rfl rfl).map

/-- A request that shows tenders shows what is stored if the tenders are. -/
theorem yields_tenders {request : MarketM (List Tender)}
    (h : Yields (fun t es => ∀ e ∈ es, tenders.IsBorn t e) request) :
    Yields Answer.ShowsStored (.tenders <$> request) :=
  (h.mono fun _ _ hborn => .of_tenders hborn rfl rfl).map

/-- A request that shows one bid shows what is stored if the bid is. -/
theorem yields_bid {request : MarketM Bid} (h : Yields bids.IsBorn request) :
    Yields Answer.ShowsStored (.bid <$> request) :=
  (h.mono fun _ _ hborn => .of_bids (List.forall_mem_singleton.mpr hborn) rfl rfl).map

/-- A request that shows bids shows what is stored if the bids are. -/
theorem yields_bids {request : MarketM (List Bid)}
    (h : Yields (fun t es => ∀ e ∈ es, bids.IsBorn t e) request) :
    Yields Answer.ShowsStored (.bids <$> request) :=
  (h.mono fun _ _ hborn => .of_bids hborn rfl rfl).map

/-- A request that shows one piece of feedback shows what is stored if the feedback is. -/
theorem yields_feedback {request : MarketM Feedback}
    (h : Yields (fun t f => f ∈ t.feedback) request) :
    Yields Answer.ShowsStored (.feedback <$> request) :=
  (h.mono fun _ _ hstored => .of_feedback (List.forall_mem_singleton.mpr hstored) rfl rfl).map

/-- A request that shows reviews shows what is stored if the reviews are. -/
theorem yields_reviews {request : MarketM (List Feedback)}
    (h : Yields (fun t fs => ∀ f ∈ fs, f ∈ t.feedback) request) :
    Yields Answer.ShowsStored (.reviews <$> request) :=
  (h.mono fun _ _ hstored => .of_feedback hstored rfl rfl).map

/-- Feedback that was added is stored. -/
theorem yields_insertFeedback (bidId content authorId receiverId : String) :
    Yields (fun t f => f ∈ t.feedback) (insertFeedback bidId content authorId receiverId) := by
  refine Yields.bind fun id => Yields.bind fun now => ?_
  intro m f h
  obtain ⟨_, hstored, hf⟩ := answer_bind_eq_ok_iff.mp h
  obtain rfl := Except.ok.inj hf
  rw [after_bind_of_answer hstored, after_store]
  rw [answer_store] at hstored
  cases hadded : m.tables.addFeedback _ with
  | error violation => simp only [hadded, reduceCtorEq] at hstored
  | ok tables =>
    have htables := Tables.eq_of_addFeedback (congrArg Except.toOption hadded)
    change _ ∈ tables.feedback
    rw [htables]
    exact List.mem_append_right _ List.mem_cons_self

/-- Feedback for a user is stored. -/
theorem yields_reviewsFor (userId : String) (page : Page) :
    Yields (fun t fs => ∀ f ∈ fs, f ∈ t.feedback) (reviewsFor userId page) :=
  yields_stored fun _ _ hmem =>
    (List.mem_filter.mp (List.mem_mergeSort.mp (Page.mem_of_mem_select hmem))).1

/-- A survey looks at the tables more than once, but changes nothing in between. -/
theorem yields_survey : Yields Answer.ShowsStored (Answer.survey <$> survey) := by
  refine Yields.map fun m s hs => ?_
  have hkept : m.substance = (m.after survey).substance :=
    Option.some.inj ((performs_survey m).accepted rfl hs)
  rw [← tables_of_substance hkept]
  obtain ⟨tenderIds, _, _, hm, hs⟩ := Catalogue.onlyReads_loadIds.exists_of_answer_bind rfl hs
  obtain ⟨tenderDossiers, _, htenders, hm, hs⟩ :=
    (onlyReads_mapM tenderIds tenders_lawful.onlyReads_dossier).exists_of_answer_bind hm hs
  obtain ⟨bidIds, _, _, hm, hs⟩ := Catalogue.onlyReads_loadIds.exists_of_answer_bind hm hs
  obtain ⟨bidDossiers, _, hbids, hm, hs⟩ :=
    (onlyReads_mapM bidIds bids_lawful.onlyReads_dossier).exists_of_answer_bind hm hs
  obtain ⟨users, _, hs⟩ := answer_bind_eq_ok_iff.mp hs
  obtain ⟨counted, _, hs⟩ := answer_bind_eq_ok_iff.mp hs
  obtain rfl := Except.ok.inj hs
  exact
    { tender := List.forall_mem_map.mpr (Catalogue.isBorn_of_mem_dossiers tenders_lawful htenders)
      bid := List.forall_mem_map.mpr (Catalogue.isBorn_of_mem_dossiers bids_lawful hbids)
      feedback := fun _ hmem => absurd hmem List.not_mem_nil }

end Market

section CatalogueOperation

variable [DecidableEq Status] {c : Catalogue Status Origin Content}
  {forms : Answer.Forms Status Origin Content}

/-- An operation on the entities of one kind shows an entity that is stored, or none. -/
theorem CatalogueOperation.yields
    (hentity : ∀ {request}, Market.Yields c.IsBorn request →
      Market.Yields Answer.ShowsStored (forms.entity <$> request))
    (hstatus : ∀ status, (forms.status status).showsNothing = true)
    (hversion : ∀ version, (forms.version version).showsNothing = true)
    (hhistory : ∀ versions, (forms.history versions).showsNothing = true)
    (op : CatalogueOperation Status Content) :
    Market.Yields Answer.ShowsStored (op.perform c forms) := by
  cases op with
  | get id => exact hentity (c.yields_get id)
  | setStatus id target => exact hentity (c.yields_setStatus id target)
  | edit id content => exact hentity (c.yields_edit id content)
  | rollback id version => exact hentity (c.yields_rollback id version)
  | status id => exact Market.yields_nothing hstatus _
  | contentVersion id version => exact Market.yields_nothing hversion _
  | history id => exact Market.yields_nothing hhistory _
  | «exists» | loadIds | setStatusFrom | setStatusIfPublished =>
    exact Market.yields_nothing (fun _ => rfl) _

end CatalogueOperation

/-- An operation of a store shows what is stored. -/
theorem StoreOperation.yields (op : StoreOperation) :
    Market.Yields Answer.ShowsStored op.perform := by
  cases op with
  | publishedTenders serviceTypes page => exact Market.yields_tenders (Catalogue.yields_list _ page)
  | tendersOf username page =>
    exact Market.yields_tenders (.bind fun _ => Catalogue.yields_list _ page)
  | bidsWithTender tenderId page => exact Market.yields_bids (Catalogue.yields_list _ page)
  | bidsWithAuthor authorId page => exact Market.yields_bids (Catalogue.yields_list _ page)
  | onTenders op =>
    exact op.yields Market.yields_tender (fun _ => rfl) (fun _ => rfl) fun _ => rfl
  | onBids op => exact op.yields Market.yields_bid (fun _ => rfl) (fun _ => rfl) fun _ => rfl
  | insertTender | insertBid | tenderOf | bidAuthor | decideIfPublished =>
    exact Market.yields_nothing (fun _ => rfl) _

/-- An operation of a service shows what is stored. -/
theorem Operation.yields (op : Operation) : Market.Yields Answer.ShowsStored op.perform := by
  cases op with
  | createTender actor organizationId content =>
    exact Market.yields_tender (.bind fun _ => .bind fun id => Catalogue.yields_get id)
  | publishedTenders serviceTypes page => exact Market.yields_tenders (Catalogue.yields_list _ page)
  | tendersOf username page =>
    exact Market.yields_tenders (.bind fun _ => Catalogue.yields_list _ page)
  | getTender id => exact Market.yields_tender (Catalogue.yields_get id)
  | setTenderStatus actor id status =>
    exact Market.yields_tender (.bind fun _ => Catalogue.yields_setStatus id status)
  | editTender actor id content =>
    exact Market.yields_tender (.bind fun _ => Catalogue.yields_edit id content)
  | rollbackTender actor id version =>
    exact Market.yields_tender (.bind fun _ => Catalogue.yields_rollback id version)
  | createBid tenderId author content =>
    refine Market.yields_bid (.bind fun found => ?_)
    exact Market.yields_ite _ (.bind fun id => Catalogue.yields_get id) (Market.yields_throw _)
  | bidsOf username page =>
    exact Market.yields_bids (.bind fun _ => Catalogue.yields_list _ page)
  | bidsOn actor tenderId page =>
    exact Market.yields_bids (.bind fun _ => Catalogue.yields_list _ page)
  | getBid id => exact Market.yields_bid (Catalogue.yields_get id)
  | setBidStatus actor id status =>
    refine Market.yields_bid (.bind fun _ => Market.yields_ite _ (Market.yields_throw _) ?_)
    refine .bind fun changed => Market.yields_ite _ (Catalogue.yields_get id) ?_
    exact Market.yields_throw _
  | editBid actor id content =>
    exact Market.yields_bid (.bind fun _ => Catalogue.yields_edit id content)
  | rollbackBid actor id version =>
    exact Market.yields_bid (.bind fun _ => Catalogue.yields_rollback id version)
  | submitDecision actor bidId decision =>
    refine Market.yields_bid (.bind fun _ => .bind fun _ => .bind fun _ => .bind fun _ => ?_)
    refine .bind fun ending => ?_
    split
    · exact Market.yields_throw _
    · exact Catalogue.yields_get bidId
  | submitFeedback actor bidId content =>
    refine Market.yields_feedback (.bind fun _ => .bind fun _ => .bind fun _ => .bind fun _ => ?_)
    exact Market.yields_insertFeedback bidId content _ _
  | reviews requester tenderId author page =>
    refine Market.yields_reviews (.bind fun _ => .bind fun _ => ?_)
    exact Market.yields_ite _ (.bind fun userId => Market.yields_reviewsFor userId page)
      (Market.yields_throw _)
  | createUser | userId | userExists | usernames | createOrganization | organizationExists
  | tenderStatus | tenderHistory | bidStatus | bidHistory =>
    exact Market.yields_nothing (fun _ => rfl) _
  | makeResponsible organizationId username =>
    exact .bind fun _ => Market.yields_nothing (f := fun _ => Answer.done) (fun _ => rfl) (pure ())

/-- An operation on feedback shows what is stored. -/
theorem FeedbackOperation.yields (op : FeedbackOperation) :
    Market.Yields Answer.ShowsStored op.perform := by
  cases op with
  | insert bidId content authorId receiverId =>
    exact Market.yields_feedback
      (Market.yields_insertFeedback bidId content authorId receiverId)
  | reviewsFor userId page => exact Market.yields_reviews (Market.yields_reviewsFor userId page)

/-- What the answer to a request shows is stored once the request is done. -/
theorem Request.yields (request : Request) : Market.Yields Answer.ShowsStored request.perform := by
  have hcounts (f : Market → Answer) (hf : ∀ m, (f m).showsNothing = true) :
      Market.Yields Answer.ShowsStored (do pure (f (← get))) :=
    .bind fun m => Market.yields_nothing (f := fun _ : Unit => f m) (fun _ => hf m) (pure ())
  cases request with
  | operation op => exact op.yields
  | relation query => cases query <;> exact Market.yields_nothing (fun _ => rfl) _
  | store op => exact op.yields
  | feedback op => exact op.yields
  | counts => exact hcounts (fun m => .counts m.counts) fun _ => rfl
  | usage => exact hcounts (fun m => .usage m.usage) fun _ => rfl
  | survey => exact Market.yields_survey
  | learn registration =>
    exact .bind fun _ => hcounts (fun m => .counts m.counts) fun _ => rfl

/-- What the answer to a step shows is stored after the step. -/
theorem Session.showsStored_of_step {s : Session} {step : Step} {answer : Answer}
    (h : (s.step step).1 = some (.ok answer)) :
    answer.ShowsStored (s.step step).2.market.tables := by
  obtain ⟨stage, m⟩ := s
  cases step with
  | setClock | setPace | migrate =>
    obtain rfl := Except.ok.inj (Option.some.inj h)
    exact .of_nothing rfl
  | assemble => cases stage with
    | bare => cases h
    | migrated | assembled =>
      obtain rfl := Except.ok.inj (Option.some.inj h)
      exact .of_nothing rfl
  | request offered request => cases stage with
    | bare | migrated => cases h
    | assembled => exact request.yields (Option.some.inj h)

end Procurement

import Procurement.Market.Plan
import Procurement.Proofs.Requests

/-!
# Work in a transaction

What is done in a transaction is a finite tree: each operation on tenders or bids
is followed by whatever the work makes of the reply, until the work ends. As long
as the transaction is open the caches know nothing of what the work creates; it
waits for the commit, in the order of its creation, while the tables that the
work sees hold it already.
-/

namespace Procurement

/-- Work on tenders and bids. It may go on in any way after a reply, and knows nothing of where
identifiers come from. -/
inductive Work (α : Type) where
  | ends (conclusion : Conclusion α)
  /-- From now on the given identifier is offered for what is created, or none is. -/
  | offers (id : Option String) (rest : Work α)
  | performs (op : StoreOperation) (next : Reply → Work α)

/-- An operation that work has performed: the reply to it, and the market that it left. -/
structure Moment where
  op : StoreOperation
  reply : Reply
  market : Market

/-- The row that an operation creates, if it does so with the given reply. -/
def StoreOperation.created? : StoreOperation → Reply → Option Registration
  | insertTender _ _ _, .ok (.text id) => some (.tender id)
  | insertBid _ _ _, .ok (.text id) => some (.bid id)
  | _, _ => none

namespace Work

variable {α : Type}

/-- Does the work. -/
def run : Work α → StateM Market (Conclusion α)
  | ends conclusion => pure conclusion
  | offers id rest => do
    modify (Market.offer id)
    rest.run
  | performs op next => do
    let reply ← op.perform.run
    (next reply).run

/-- The operations that the work performs on a market, one after the other. -/
def moments : Work α → Market → List Moment
  | ends _, _ => []
  | offers id rest, m => rest.moments (m.offer id)
  | performs op next, m =>
    let reply := m.answer op.perform
    let after := m.after op.perform
    ⟨op, reply, after⟩ :: (next reply).moments after

/-- The rows that the work creates, in order. -/
def created (work : Work α) (m : Market) : List Registration :=
  (work.moments m).filterMap fun moment => moment.op.created? moment.reply

end Work

/-- The identifier of the tender that a registration is about. -/
def Registration.tender? : Registration → Option String
  | .tender id => some id
  | _ => none

/-- The identifier of the bid that a registration is about. -/
def Registration.bid? : Registration → Option String
  | .bid id => some id
  | _ => none

/-! ## Requests that create nothing -/

/-- Between two states of the tables exactly the given rows were added to the tenders and bids,
each behind those of its kind. -/
structure Tables.Gains (t t' : Tables) (created : List Registration) : Prop where
  tenders : t'.tenders.ids = t.tenders.ids ++ created.filterMap Registration.tender?
  bids : t'.bids.ids = t.bids.ids ++ created.filterMap Registration.bid?

/-- Tables gain nothing over themselves. -/
theorem Tables.gains_refl (t : Tables) : t.Gains t [] where
  tenders := (List.append_nil _).symm
  bids := (List.append_nil _).symm

/-- What is gained is gained one after the other. -/
theorem Tables.Gains.trans {t t' t'' : Tables} {created created' : List Registration}
    (h : t.Gains t' created) (h' : t'.Gains t'' created') : t.Gains t'' (created ++ created') where
  tenders := by rw [h'.tenders, h.tenders, List.filterMap_append, List.append_assoc]
  bids := by rw [h'.bids, h.bids, List.filterMap_append, List.append_assoc]

/-- A catalogue in whose register alone the tables gain what is added to it. -/
structure Catalogue.Apart {Status Origin Content : Type}
    (c : Catalogue Status Origin Content) : Prop extends c.Lawful where
  gains_setRegister : ∀ tables register ids, register.ids = (c.register tables).ids ++ ids →
    tables.Gains (c.setRegister tables register) (ids.map c.registration)

/-- The tenders gain in their own table, and the bids nothing. -/
theorem tenders_apart : tenders.Apart where
  toLawful := tenders_lawful
  gains_setRegister tables register ids h := by
    have htenders : (ids.map tenders.registration).filterMap Registration.tender? = ids := by
      rw [List.filterMap_map]
      exact List.filterMap_some
    have hbids : (ids.map tenders.registration).filterMap Registration.bid? = [] := by
      rw [List.filterMap_map]
      exact List.filterMap_none _
    exact ⟨by rw [htenders]; exact h, by rw [hbids, List.append_nil]; rfl⟩

/-- The bids gain in their own table, and the tenders nothing. -/
theorem bids_apart : bids.Apart where
  toLawful := bids_lawful
  gains_setRegister tables register ids h := by
    have htenders : (ids.map bids.registration).filterMap Registration.tender? = [] := by
      rw [List.filterMap_map]
      exact List.filterMap_none _
    have hbids : (ids.map bids.registration).filterMap Registration.bid? = ids := by
      rw [List.filterMap_map]
      exact List.filterMap_some
    exact ⟨by rw [htenders, List.append_nil]; rfl, by rw [hbids]; exact h⟩

/-- What keeps the identifiers of one catalogue adds nothing. -/
theorem Catalogue.Apart.gains_nil {Status Origin Content : Type}
    {c : Catalogue Status Origin Content} (hc : c.Apart) {tables : Tables}
    {register : Register Status Origin Content} (h : register.ids = (c.register tables).ids) :
    tables.Gains (c.setRegister tables register) [] :=
  hc.gains_setRegister tables register [] (by rw [h, List.append_nil])

namespace Market

variable {α β : Type}

/-- A request that changes nothing that lasts but the tables, and creates no entity there. -/
structure CreatesNothing (request : MarketM α) : Prop where
  touchesTables : TouchesTables request
  gains : ∀ m : Market, m.tables.Gains (m.after request).tables []

/-- What only reads creates nothing. -/
theorem OnlyReads.createsNothing {request : MarketM α} (h : OnlyReads request) :
    CreatesNothing request where
  touchesTables := h.touchesTables
  gains m := by
    rw [h.tables_after]
    exact m.tables.gains_refl

/-- Requests that create nothing do so one after the other. -/
theorem CreatesNothing.bind {first : MarketM α} {next : α → MarketM β}
    (hfirst : CreatesNothing first) (hnext : ∀ a, CreatesNothing (next a)) :
    CreatesNothing (first >>= next) where
  touchesTables := hfirst.touchesTables.bind fun a => (hnext a).touchesTables
  gains m := by
    rw [after_bind]
    cases m.answer first with
    | error refusal => exact hfirst.gains m
    | ok a => exact (hfirst.gains m).trans ((hnext a).gains _)

/-- What is made of the answer creates nothing. -/
theorem CreatesNothing.map {first : MarketM α} (h : CreatesNothing first) (f : α → β) :
    CreatesNothing (f <$> first) where
  touchesTables m := by rw [after_map, h.touchesTables]
  gains m := by
    rw [after_map]
    exact h.gains m

end Market

namespace Catalogue

open Market

variable {Status Origin Content : Type} {c : Catalogue Status Origin Content}

section CreatesNothing

variable (hc : c.Apart)

include hc

/-- Writing a status creates nothing. -/
theorem Apart.createsNothing_update_setStatus (id : String) (status : Status) :
    CreatesNothing (c.update fun register => register.setStatus id status) where
  touchesTables := touchesTables_update _
  gains _ := hc.gains_nil (Register.ids_setStatus id status)

/-- Setting a status creates nothing. -/
theorem Apart.createsNothing_setStatus (id : String) (status : Status) :
    CreatesNothing (c.setStatus id status) :=
  (hc.onlyReads_ensureExists id).createsNothing.bind fun _ =>
    (hc.createsNothing_update_setStatus id status).bind fun _ =>
      (hc.onlyReads_get id).createsNothing

/-- A guarded change of status creates nothing. -/
theorem Apart.createsNothing_transition [DecidableEq Status] (id : String)
    (sources : List Status) (target : Status) :
    CreatesNothing (c.transition id sources target) := by
  refine (hc.onlyReads_ensureExists id).createsNothing.bind fun _ => ?_
  refine (onlyReads_stored _).createsNothing.bind fun row? => ?_
  split
  · exact (onlyReads_pure none).createsNothing
  · exact (hc.createsNothing_update_setStatus id target).bind fun _ =>
      (onlyReads_pure _).createsNothing

/-- A further version is no further entity. -/
theorem Apart.createsNothing_append (id : String) (content : Content) :
    CreatesNothing (c.append id content) where
  touchesTables := (onlyReads_storedOr _ _).touchesTables.bind fun _ =>
    (touchesTables_update _).bind fun _ => (hc.onlyReads_get id).touchesTables
  gains m := by
    unfold append
    rw [after_bind, answer_storedOr, after_storedOr]
    cases happend : (c.register m.tables).append? id content with
    | none => exact m.tables.gains_refl
    | some register =>
      exact (hc.gains_nil (Register.ids_of_append? happend)).trans
        ((hc.onlyReads_get id).createsNothing.gains
          { m with tables := c.setRegister m.tables register })

end CreatesNothing

/-- An addition to a catalogue is refused, or stores the entity and registers it. -/
theorem insert_cases (c : Catalogue Status Origin Content) (m : Market) (origin : Origin)
    (content : Content) :
    (∃ refusal, m.answer (c.insert origin content) = .error refusal ∧
        m.after (c.insert origin content) = { m with ids := m.ids.draw.2 }) ∨
      ∃ id register, (c.register m.tables).insert? id c.initial origin m.now content =
          some register ∧
        m.answer (c.insert origin content) = .ok id ∧
        m.after (c.insert origin content) =
          ({ m with ids := m.ids.draw.2, tables := c.setRegister m.tables register } :
            Market).registered (c.registration id) := by
  unfold insert
  rw [answer_bind, after_bind, answer_drawId, after_drawId]
  dsimp only
  rw [answer_bind, after_bind, answer_get, after_get]
  dsimp only
  rw [answer_bind, after_bind, answer_store, after_store]
  cases hinsert : (c.register m.tables).insert? m.ids.draw.1 c.initial origin m.now content with
  | none => exact .inl ⟨_, rfl, rfl⟩
  | some register =>
    dsimp only
    by_cases hsupports : c.supports m.tables origin = true
    · rw [if_pos hsupports]
      exact .inr ⟨m.ids.draw.1, register, hinsert, rfl, rfl⟩
    · rw [if_neg hsupports]
      exact .inl ⟨_, rfl, rfl⟩

end Catalogue

/-- No operation on what is in a catalogue adds to it. -/
theorem CatalogueOperation.createsNothing {Status Origin Content : Type} [DecidableEq Status]
    {c : Catalogue Status Origin Content} (hc : c.Apart)
    (forms : Answer.Forms Status Origin Content) (op : CatalogueOperation Status Content) :
    Market.CreatesNothing (op.perform c forms) := by
  cases op with
  | «exists» id => exact (hc.onlyReads_exists? id).createsNothing.map _
  | loadIds => exact Catalogue.onlyReads_loadIds.createsNothing.map _
  | get id => exact (hc.onlyReads_get id).createsNothing.map _
  | status id => exact (hc.onlyReads_status id).createsNothing.map _
  | setStatus id target => exact (hc.createsNothing_setStatus id target).map _
  | setStatusFrom sources id target | setStatusIfPublished id target =>
    exact ((hc.createsNothing_transition id _ target).bind fun _ =>
      (Market.onlyReads_pure _).createsNothing).map _
  | edit id content =>
    exact ((hc.onlyReads_ensureExists id).createsNothing.bind fun _ =>
      hc.createsNothing_append id content).map _
  | rollback id version =>
    exact ((hc.onlyReads_ensureExists id).createsNothing.bind fun _ =>
      (Market.onlyReads_storedOr _ _).createsNothing.bind fun content =>
        hc.createsNothing_append id content).map _
  | contentVersion id version => exact (hc.onlyReads_contentVersion id version).createsNothing.map _
  | history id => exact (hc.onlyReads_history id).createsNothing.map _

/-- Whether an operation adds an entity. -/
def StoreOperation.inserts : StoreOperation → Bool
  | insertTender _ _ _ | insertBid _ _ _ => true
  | _ => false

/-- All operations but the two insertions create nothing. -/
theorem StoreOperation.createsNothing {op : StoreOperation} (h : op.inserts = false) :
    Market.CreatesNothing op.perform := by
  cases op with
  | insertTender | insertBid => cases h
  | publishedTenders serviceTypes page =>
    exact (Market.onlyReads_publishedTenders serviceTypes page).createsNothing.map _
  | tendersOf username page => exact (Market.onlyReads_tendersOf username page).createsNothing.map _
  | onTenders op => exact op.createsNothing tenders_apart Answer.tenderForms
  | bidsWithTender tenderId page =>
    exact (Market.onlyReads_bidsWithTender tenderId page).createsNothing.map _
  | bidsWithAuthor authorId page =>
    exact (Market.onlyReads_bidsWithAuthor authorId page).createsNothing.map _
  | tenderOf bidId => exact (Market.onlyReads_tenderOf bidId).createsNothing.map _
  | bidAuthor bidId => exact (Market.onlyReads_bidAuthor bidId).createsNothing.map _
  | decideIfPublished bidId target =>
    exact ((bids_apart.createsNothing_transition bidId _ target).bind fun _ =>
      (Market.onlyReads_pure _).createsNothing).map _
  | onBids op => exact op.createsNothing bids_apart Answer.bidForms

/-! ## What waits for the commit -/

namespace Market

/-- How a market with an open transaction moves on: the caches learn nothing, and the rows that
the tables gain are what waits for the commit in addition. -/
structure Gains (handle : Handle Registration) (m m' : Market) (created : List Registration) :
    Prop where
  transaction : m'.transaction = some { handle with deferred := handle.deferred ++ created }
  caches : m'.caches.uncounted = m.caches.uncounted
  tables : m.tables.Gains m'.tables created

variable {α : Type} {m m' m'' : Market} {handle : Handle Registration}

/-- What waits for the commit is appended one operation after the other. -/
theorem Gains.trans {created created' : List Registration} (h : Gains handle m m' created)
    (h' : Gains { handle with deferred := handle.deferred ++ created } m' m'' created') :
    Gains handle m m'' (created ++ created') where
  transaction := by rw [h'.transaction, List.append_assoc]
  caches := h'.caches.trans h.caches
  tables := h.tables.trans h'.tables

/-- Nothing new waits after a request that creates nothing. -/
theorem CreatesNothing.gains_after {request : MarketM α} (h : CreatesNothing request)
    (hm : m.transaction = some handle) : Gains handle m (m.after request) [] where
  transaction := by
    have hsame : (m.after request).transaction = m.transaction :=
      (congrArg Market.transaction (h.touchesTables m) :)
    rw [hsame, hm, List.append_nil]
  caches := (congrArg Market.caches (h.touchesTables m) :)
  tables := h.gains m

/-- What is added in a transaction waits for its commit. -/
theorem gains_insert {Status Origin Content : Type} {c : Catalogue Status Origin Content}
    (hc : c.Apart) (hm : m.transaction = some handle) (origin : Origin) (content : Content) :
    Gains handle m (m.after (c.insert origin content))
      ((m.answer (c.insert origin content)).toOption.map c.registration).toList := by
  rcases c.insert_cases m origin content with
    ⟨refusal, hanswer, hafter⟩ | ⟨id, register, hinsert, hanswer, hafter⟩
  · rw [hanswer, hafter]
    have hnothing : m.transaction = some { handle with deferred := handle.deferred ++ [] } := by
      rw [hm, List.append_nil]
    exact ⟨hnothing, rfl, m.tables.gains_refl⟩
  · rw [hanswer, hafter]
    unfold registered
    rw [hm]
    exact ⟨rfl, rfl, hc.gains_setRegister _ _ [id] (Register.ids_of_insert? hinsert)⟩

/-- A tender that is added in a transaction waits for its commit. -/
theorem gains_insertTender (hm : m.transaction = some handle) (organizationId creator : String)
    (content : TenderContent) :
    Gains handle m (m.after (insertTender organizationId creator content))
      ((m.answer (insertTender organizationId creator content)).toOption.map .tender).toList := by
  have hread : Gains handle m (m.after (userId creator)) [] :=
    (onlyReads_userId creator).createsNothing.gains_after hm
  unfold insertTender
  rw [after_bind, answer_bind]
  cases m.answer (userId creator) with
  | error refusal => exact hread
  | ok creatorId =>
    exact hread.trans
      (gains_insert tenders_apart hread.transaction { organizationId, creatorId } content)

end Market

/-- An operation in a transaction creates the row that its reply says, or none. -/
theorem StoreOperation.gains {m : Market} {handle : Handle Registration} (op : StoreOperation)
    (hm : m.transaction = some handle) :
    Market.Gains handle m (m.after op.perform) (op.created? (m.answer op.perform)).toList := by
  cases op with
  | insertTender organizationId creator content =>
    have hgains := Market.gains_insertTender hm organizationId creator content
    unfold perform
    rw [Market.after_map, Market.answer_map]
    cases hanswer : m.answer (Market.insertTender organizationId creator content) <;>
      rw [hanswer] at hgains <;> exact hgains
  | insertBid tenderId author content =>
    have hgains := Market.gains_insert bids_apart hm { tenderId, author } content
    unfold perform
    rw [Market.after_map, Market.answer_map]
    cases hanswer : m.answer (bids.insert { tenderId, author } content) <;>
      rw [hanswer] at hgains <;> exact hgains
  | _ => exact (createsNothing rfl).gains_after hm

/-! ## The whole work -/

namespace Work

open Market

variable {α : Type} {m : Market} {handle : Handle Registration}

/-- What work creates in a transaction is stored in the tables that it sees, and waits for the
commit to become known to the caches. -/
theorem gains (work : Work α) (hm : m.transaction = some handle) :
    Gains handle m (work.run m).2 (work.created m) := by
  induction work generalizing m handle with
  | ends conclusion =>
    refine ⟨?_, rfl, m.tables.gains_refl⟩
    change m.transaction = some { handle with deferred := handle.deferred ++ [] }
    rw [hm, List.append_nil]
  | offers id rest ih =>
    have hoffered : (m.offer id).transaction = some handle := hm
    have hrest := ih hoffered
    exact ⟨hrest.transaction, hrest.caches, hrest.tables⟩
  | performs op next ih =>
    have hfirst := op.gains hm
    have hrest := ih (m.answer op.perform) hfirst.transaction
    have hcreated : (performs op next).created m =
        (op.created? (m.answer op.perform)).toList ++
          (next (m.answer op.perform)).created (m.after op.perform) := by
      have hmoments : (performs op next).moments m =
          ⟨op, m.answer op.perform, m.after op.perform⟩ ::
            (next (m.answer op.perform)).moments (m.after op.perform) := rfl
      unfold created
      rw [hmoments, List.filterMap_cons]
      cases op.created? (m.answer op.perform) <;> rfl
    rw [hcreated]
    exact hfirst.trans hrest

/-- Before the commit the caches know of nothing that the work creates. -/
theorem caches_of_mem_moments {work : Work α} (hm : m.transaction = some handle) {moment : Moment}
    (hmoment : moment ∈ work.moments m) : moment.market.caches.uncounted = m.caches.uncounted := by
  induction work generalizing m handle with
  | ends conclusion => cases hmoment
  | offers id rest ih =>
    have hoffered : (m.offer id).transaction = some handle := hm
    have hrest := ih hoffered
    exact hrest hmoment
  | performs op next ih =>
    have hfirst := op.gains hm
    rcases List.mem_cons.mp hmoment with rfl | hlater
    · exact hfirst.caches
    · exact (ih (m.answer op.perform) hfirst.transaction hlater).trans hfirst.caches

end Work

/-! ## Work that is known in advance -/

/-- The second piece of work begins where the first has ended. -/
private theorem bind_apply {α β : Type} (first : StateM Market α) (next : α → StateM Market β)
    (m : Market) : (first >>= next) m = next (first m).1 (first m).2 := rfl

/-- Work goes on with the reply to its operation, from the market that this has left. -/
theorem Work.run_performs {α : Type} (op : StoreOperation) (next : Reply → Work α) (m : Market) :
    (performs op next).run m = (next (m.answer op.perform)).run (m.after op.perform) := rfl

namespace Work

variable {Fault : Type}

/-- The steps of a plan as work that concludes as it must when the given refusal, or none, stops
it. -/
def ofSteps (stopsAtRefusal : Bool) (conclude : Option MarketError → Conclusion Unit) :
    List (Except Fault (Option String × StoreOperation)) → Work Unit
  | [] => ends (conclude none)
  | .error _ :: rest => ofSteps stopsAtRefusal conclude rest
  | .ok (id, op) :: rest =>
    offers id <| performs op fun reply =>
      match reply, stopsAtRefusal with
      | .error refusal, true => ends (conclude (some refusal))
      | _, _ => ofSteps stopsAtRefusal conclude rest

/-- The steps of a plan, done as work, end as the plan does and leave the same market. -/
theorem run_ofSteps (stopsAtRefusal : Bool) (conclude : Option MarketError → Conclusion Unit)
    (steps : List (Except Fault (Option String × StoreOperation))) (m : Market) :
    (ofSteps stopsAtRefusal conclude steps).run m =
      (conclude (Plan.performSteps stopsAtRefusal steps m).1.2,
        (Plan.performSteps stopsAtRefusal steps m).2) := by
  induction steps generalizing m with
  | nil => rfl
  | cons step rest ih =>
    rcases step with fault | ⟨id, op⟩
    · exact ih m
    · have hoffered : (modify (Market.offer id) : StateM Market Unit) m = ((), m.offer id) := rfl
      have hdone : Market.run op.perform id m = op.perform.run (m.offer id) := rfl
      unfold ofSteps run run Plan.performSteps
      rw [bind_apply, bind_apply, bind_apply, hoffered, hdone]
      rcases op.perform.run (m.offer id) with ⟨reply, after⟩
      cases reply with
      | ok answer => exact ih after
      | error refusal =>
        cases stopsAtRefusal with
        | true => rfl
        | false => exact ih after

end Work

/-- A plan as work. -/
def Plan.toWork {Fault : Type} (plan : Plan Fault) : Work Unit :=
  .ofSteps plan.stopsAtRefusal (fun
    | some refusal => { ending := .returns (.error refusal) }
    | none => plan.conclusion) plan.steps

/-- What is planned is work. -/
theorem Plan.run_toWork {Fault : Type} (plan : Plan Fault) : plan.toWork.run = plan.work := by
  funext m
  unfold toWork work
  rw [Work.run_ofSteps, bind_apply]
  rcases performSteps plan.stopsAtRefusal plan.steps m with ⟨⟨answers, stop⟩, after⟩
  cases stop <;> rfl

namespace Work

open Market

/-- Ends as a request did. -/
def endsWith {α : Type} (result : Except MarketError α) : Work α :=
  ends { ending := .returns result }

/-- The decision on a bid as work. -/
def ofDecision (bidId : String) (decision : Decision) : Work Unit :=
  performs (.decideIfPublished bidId decision.bidStatus) fun
    | .error refusal => endsWith (.error refusal)
    | .ok (.optionalText (some tenderId)) =>
      if decision = .approve then
        performs (.onTenders (.setStatusIfPublished tenderId .closed)) fun
          | .error refusal => endsWith (.error refusal)
          | .ok (.flag true) => endsWith (.ok ())
          | .ok _ => endsWith (.error (.tenderNotPublished tenderId))
      else endsWith (.ok ())
    | .ok _ => endsWith (.error (.bidNotPublished bidId))

/-- Deciding a bid is work. -/
theorem run_ofDecision (bidId : String) (decision : Decision) :
    (ofDecision bidId decision).run = workOf (applyDecision bidId decision) := by
  funext m
  have hwork : workOf (applyDecision bidId decision) m =
      ({ ending := .returns (m.answer (applyDecision bidId decision)) },
        m.after (applyDecision bidId decision)) := rfl
  rw [hwork]
  unfold ofDecision applyDecision
  rw [run_performs, answer_bind, after_bind]
  unfold StoreOperation.perform
  rw [answer_map, after_map]
  cases m.answer (decideIfPublished bidId decision.bidStatus) with
  | error refusal => rfl
  | ok tenderId? =>
    cases tenderId? with
    | none => rfl
    | some tenderId =>
      generalize m.after (decideIfPublished bidId decision.bidStatus) = m
      change (if decision = .approve then _ else _ : Work Unit).run m = _
      dsimp only
      by_cases happrove : decision = .approve
      · rw [if_pos happrove, if_pos happrove, run_performs, answer_bind, after_bind]
        unfold StoreOperation.perform CatalogueOperation.perform
        dsimp only
        rw [answer_map, after_map]
        cases m.answer (tenders.setStatusIfPublished tenderId .closed) with
        | error refusal => rfl
        | ok closed => cases closed <;> rfl
      · rw [if_neg happrove, if_neg happrove]
        rfl

end Work

end Procurement

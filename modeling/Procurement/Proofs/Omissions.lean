import Procurement.Proofs.Contents
import Procurement.Proofs.Runs
import Procurement.Proofs.Work

/-!
# Failed operations can be left out

An operation that fails in a transaction leaves behind counted look-ups, and perhaps an identifier
that it drew; nothing else. No operation asks for counters, and only a creation asks for the next
identifier. So work whose operations fail here and there comes to the same as the operations that
were accepted, done one after the other, each with the identifier that it had at hand.
-/

namespace Procurement

namespace Market

variable {α β : Type}

/-- What there is to see of a market: all but the counters of its caches, and the supply of
identifiers. -/
def seen (m : Market) : Market := { m.contents with ids := {} }

section Seen

variable {m m' : Market} (h : m.seen = m'.seen)

include h

/-- The tables are there to see. -/
theorem tables_of_seen : m.tables = m'.tables := (congrArg Market.tables h :)

/-- The transaction is there to see. -/
theorem transaction_of_seen : m.transaction = m'.transaction := (congrArg Market.transaction h :)

/-- What the caches know is there to see. -/
theorem caches_of_seen : m.caches.contents = m'.caches.contents := (congrArg Market.caches h :)

/-- Given the same supply of identifiers, nothing but counters tells two such markets apart. -/
theorem contents_of_seen : m.contents = ({ m' with ids := m.ids } : Market).contents :=
  (congrArg (fun n : Market => { n with ids := m.ids }) h :)

end Seen

/-- Counters are not there to see. -/
theorem seen_of_contents {m m' : Market} (h : m.contents = m'.contents) : m.seen = m'.seen :=
  (congrArg (fun n : Market => { n with ids := {} }) h :)

/-- What is there to see lasts. -/
theorem seen_of_substance {m m' : Market} (h : m.substance = m'.substance) : m.seen = m'.seen :=
  (congrArg contents h :)

/-! ## Requests and the supply of identifiers -/

/-- A request that neither asks for an identifier nor draws one. -/
structure IgnoresIds (request : MarketM α) : Prop where
  answer_eq : ∀ (m : Market) (ids : IdSupply),
    ({ m with ids } : Market).answer request = m.answer request
  after_eq : ∀ (m : Market) (ids : IdSupply),
    ({ m with ids } : Market).after request = { m.after request with ids }

section IgnoresIds

variable {first : MarketM α} {next : α → MarketM β}

/-- Two requests in a row ignore identifiers if each of them does. -/
theorem IgnoresIds.bind (hfirst : IgnoresIds first) (hnext : ∀ a, IgnoresIds (next a)) :
    IgnoresIds (first >>= next) where
  answer_eq m ids := by
    rw [answer_bind, answer_bind, hfirst.answer_eq, hfirst.after_eq]
    cases m.answer first with
    | error refusal => rfl
    | ok a => exact (hnext a).answer_eq _ ids
  after_eq m ids := by
    rw [after_bind, after_bind, hfirst.answer_eq, hfirst.after_eq]
    cases m.answer first with
    | error refusal => rfl
    | ok a => exact (hnext a).after_eq _ ids

/-- Putting something around an answer asks for no identifier. -/
theorem IgnoresIds.map (h : IgnoresIds first) (f : α → β) : IgnoresIds (f <$> first) where
  answer_eq m ids := by rw [answer_map, answer_map, h.answer_eq]
  after_eq m ids := by rw [after_map, after_map, h.after_eq]

/-- Another supply of identifiers does not show after a request that ignores them. -/
theorem IgnoresIds.seen_after (h : IgnoresIds first) (m : Market) (ids : IdSupply) :
    (({ m with ids } : Market).after first).seen = (m.after first).seen := by
  rw [h.after_eq]
  rfl

/-- Reading the whole market does no harm to a request that does not look at its identifiers. -/
theorem ignoresIds_get_bind {next : Market → MarketM β}
    (hsame : ∀ (m : Market) (ids : IdSupply), next { m with ids } = next m)
    (hnext : ∀ m, IgnoresIds (next m)) : IgnoresIds (get >>= next) where
  answer_eq m ids := by
    rw [answer_bind, answer_bind, answer_get, answer_get, after_get, after_get]
    dsimp only
    rw [hsame]
    exact (hnext m).answer_eq m ids
  after_eq m ids := by
    rw [after_bind, after_bind, answer_get, answer_get, after_get, after_get]
    dsimp only
    rw [hsame]
    exact (hnext m).after_eq m ids

/-- A request for nothing ignores identifiers. -/
theorem ignoresIds_pure (a : α) : IgnoresIds (pure a) := ⟨fun _ _ => rfl, fun _ _ => rfl⟩

/-- A refused request ignores identifiers. -/
theorem ignoresIds_throw (refusal : MarketError) : IgnoresIds (throw refusal : MarketM α) :=
  ⟨fun _ _ => rfl, fun _ _ => rfl⟩

/-- A question to the tables ignores identifiers of the supply. -/
theorem ignoresIds_stored (query : Tables → α) : IgnoresIds (stored query) :=
  ⟨fun _ _ => rfl, fun _ _ => rfl⟩

/-- A question to the tables that can be refused ignores identifiers of the supply. -/
theorem ignoresIds_storedOr (refusal : MarketError) (query : Tables → Option α) :
    IgnoresIds (storedOr refusal query) where
  answer_eq m ids := by rw [answer_storedOr, answer_storedOr]
  after_eq m ids := by rw [after_storedOr, after_storedOr]

/-- Resolving a username ignores identifiers of the supply. -/
theorem ignoresIds_userId (username : String) : IgnoresIds (userId username) := by
  have hlookup : IgnoresIds (lookupUser username) := ⟨fun _ _ => rfl, fun _ _ => rfl⟩
  refine hlookup.bind fun id? => ?_
  cases id? with
  | none => exact ignoresIds_throw _
  | some id => exact ignoresIds_pure id

/-- Teaching the caches ignores identifiers of the supply. -/
theorem ignoresIds_register (r : Registration) : IgnoresIds (register r) where
  answer_eq _ _ := rfl
  after_eq m ids := by
    rw [after_register, after_register]
    unfold registered
    cases m.transaction <;> rfl

/-- Storing a row ignores identifiers of the supply, since the row has its own. -/
theorem ignoresIds_store (refusal : Violation → MarketError)
    (insertion : Tables → Except Violation Tables) : IgnoresIds (store refusal insertion) where
  answer_eq m ids := by rw [answer_store, answer_store]
  after_eq m ids := by
    rw [after_store, after_store]
    cases insertion m.tables <;> rfl

end IgnoresIds

/-- A request that asks the supply for nothing but the next identifier. -/
structure AsksForNextId (request : MarketM α) : Prop where
  answer_congr : ∀ (m : Market) {ids : IdSupply}, ids.draw.1 = m.ids.draw.1 →
    ({ m with ids } : Market).answer request = m.answer request
  after_congr : ∀ (m : Market) {ids : IdSupply}, ids.draw.1 = m.ids.draw.1 →
    (({ m with ids } : Market).after request).seen = (m.after request).seen

/-- What ignores identifiers does not ask for more than the next one. -/
theorem IgnoresIds.asksForNextId {request : MarketM α} (h : IgnoresIds request) :
    AsksForNextId request where
  answer_congr m ids _ := h.answer_eq m ids
  after_congr m ids _ := h.seen_after m ids

/-- Putting something around an answer does not ask for more identifiers. -/
theorem AsksForNextId.map {request : MarketM α} (h : AsksForNextId request) (f : α → β) :
    AsksForNextId (f <$> request) where
  answer_congr m _ hids := by rw [answer_map, answer_map, h.answer_congr m hids]
  after_congr m _ hids := by rw [after_map, after_map, h.after_congr m hids]

/-- What ignores identifiers leaves the next one for what follows. -/
theorem IgnoresIds.bind_asksForNextId {first : MarketM α} {next : α → MarketM β}
    (hfirst : IgnoresIds first) (hnext : ∀ a, AsksForNextId (next a)) :
    AsksForNextId (first >>= next) := by
  have hkept (m : Market) : (m.after first).ids = m.ids :=
    (congrArg Market.ids (hfirst.after_eq m m.ids) :)
  constructor
  · intro m ids hids
    rw [answer_bind, answer_bind, hfirst.answer_eq, hfirst.after_eq]
    cases m.answer first with
    | error refusal => rfl
    | ok a => exact (hnext a).answer_congr _ (hids.trans (by rw [hkept]))
  · intro m ids hids
    rw [after_bind, after_bind, hfirst.answer_eq, hfirst.after_eq]
    cases m.answer first with
    | error refusal => rfl
    | ok a => exact (hnext a).after_congr _ (hids.trans (by rw [hkept]))

/-- An identifier is drawn, and no other after it. -/
theorem asksForNextId_drawId_bind {next : String → MarketM β} (hnext : ∀ id, IgnoresIds (next id)) :
    AsksForNextId (drawId >>= next) where
  answer_congr m ids hids := by
    rw [answer_bind, answer_bind, answer_drawId, answer_drawId, after_drawId, after_drawId]
    dsimp only
    rw [hids]
    exact ((hnext _).answer_eq m _).trans ((hnext _).answer_eq m _).symm
  after_congr m ids hids := by
    rw [after_bind, after_bind, answer_drawId, answer_drawId, after_drawId, after_drawId]
    dsimp only
    rw [hids]
    exact ((hnext _).seen_after m _).trans ((hnext _).seen_after m _).symm

end Market

namespace Catalogue

open Market

variable {Status Origin Content : Type} {c : Catalogue Status Origin Content}

/-- Replacing a register ignores identifiers of the supply. -/
theorem ignoresIds_update (f : Register Status Origin Content → _) : IgnoresIds (c.update f) :=
  ⟨fun _ _ => rfl, fun _ _ => rfl⟩

/-- Asking whether an entity exists ignores identifiers of the supply. -/
theorem ignoresIds_exists? (id : String) : IgnoresIds (c.exists? id) :=
  ⟨fun _ _ => rfl, fun _ _ => rfl⟩

/-- Refusing unknown entities ignores identifiers of the supply. -/
theorem ignoresIds_ensureExists (id : String) : IgnoresIds (c.ensureExists id) := by
  refine (ignoresIds_exists? id).bind fun found => ?_
  cases found with
  | true => exact ignoresIds_pure ()
  | false => exact ignoresIds_throw _

/-- Reading an entity ignores identifiers of the supply. -/
theorem ignoresIds_get (id : String) : IgnoresIds (c.get id) :=
  (ignoresIds_ensureExists id).bind fun _ => ignoresIds_storedOr _ _

/-- Reading a row ignores identifiers of the supply. -/
theorem ignoresIds_row (id : String) : IgnoresIds (c.row id) :=
  (ignoresIds_ensureExists id).bind fun _ => ignoresIds_storedOr _ _

/-- Listing entities ignores identifiers of the supply. -/
theorem ignoresIds_list [Named Content] (admits : Entity Status Origin Content → Bool)
    (page : Page) : IgnoresIds (c.list admits page) :=
  ignoresIds_stored _

/-- Setting a status ignores identifiers of the supply. -/
theorem ignoresIds_setStatus (id : String) (status : Status) : IgnoresIds (c.setStatus id status) :=
  (ignoresIds_ensureExists id).bind fun _ => (ignoresIds_update _).bind fun _ => ignoresIds_get id

/-- Passing to another status ignores identifiers of the supply. -/
theorem ignoresIds_transition [DecidableEq Status] (id : String) (sources : List Status)
    (target : Status) : IgnoresIds (c.transition id sources target) := by
  refine (ignoresIds_ensureExists id).bind fun _ => (ignoresIds_stored _).bind fun row? => ?_
  split
  · exact ignoresIds_pure none
  · exact (ignoresIds_update _).bind fun _ => ignoresIds_pure _

/-- Appending content ignores identifiers of the supply. -/
theorem ignoresIds_append (id : String) (content : Content) : IgnoresIds (c.append id content) :=
  (ignoresIds_storedOr _ _).bind fun _ => (ignoresIds_update _).bind fun _ => ignoresIds_get id

/-- Adding an entity asks for the next identifier. -/
theorem asksForNextId_insert (origin : Origin) (content : Content) :
    AsksForNextId (c.insert origin content) := by
  refine asksForNextId_drawId_bind fun id => ignoresIds_get_bind (fun _ _ => rfl) fun m => ?_
  exact (ignoresIds_store _ _).bind fun _ =>
    (ignoresIds_register _).bind fun _ => ignoresIds_pure id

end Catalogue

section Requests

open Market

/-- No operation on what is stored asks for an identifier. -/
theorem CatalogueOperation.ignoresIds {Status Origin Content : Type} [DecidableEq Status]
    (c : Catalogue Status Origin Content) (forms : Answer.Forms Status Origin Content)
    (op : CatalogueOperation Status Content) : IgnoresIds (op.perform c forms) := by
  cases op with
  | «exists» id => exact (Catalogue.ignoresIds_exists? id).map _
  | loadIds => exact (ignoresIds_stored _).map _
  | get id => exact (Catalogue.ignoresIds_get id).map _
  | status id => exact ((Catalogue.ignoresIds_row id).bind fun _ => ignoresIds_pure _).map _
  | setStatus id target => exact (Catalogue.ignoresIds_setStatus id target).map _
  | setStatusFrom sources id target | setStatusIfPublished id target =>
    exact ((Catalogue.ignoresIds_transition id _ target).bind fun _ => ignoresIds_pure _).map _
  | edit id content =>
    exact ((Catalogue.ignoresIds_ensureExists id).bind fun _ =>
      Catalogue.ignoresIds_append id content).map _
  | rollback id version =>
    exact ((Catalogue.ignoresIds_ensureExists id).bind fun _ =>
      (ignoresIds_storedOr _ _).bind fun content => Catalogue.ignoresIds_append id content).map _
  | contentVersion id version =>
    exact ((Catalogue.ignoresIds_ensureExists id).bind fun _ =>
      (ignoresIds_storedOr _ _).bind fun _ => ignoresIds_pure _).map _
  | history id =>
    exact ((Catalogue.ignoresIds_ensureExists id).bind fun _ => ignoresIds_stored _).map _

/-- No operation of a store asks for more than the next identifier. -/
theorem StoreOperation.asksForNextId (op : StoreOperation) : AsksForNextId op.perform := by
  cases op with
  | insertTender organizationId creator content =>
    exact ((ignoresIds_userId creator).bind_asksForNextId fun _ =>
      Catalogue.asksForNextId_insert _ content).map _
  | insertBid tenderId author content => exact (Catalogue.asksForNextId_insert _ content).map _
  | publishedTenders serviceTypes page =>
    exact ((Catalogue.ignoresIds_list _ page).map _).asksForNextId
  | tendersOf username page =>
    exact (((ignoresIds_userId username).bind fun _ =>
      Catalogue.ignoresIds_list _ page).map _).asksForNextId
  | onTenders op => exact (op.ignoresIds tenders Answer.tenderForms).asksForNextId
  | bidsWithTender tenderId page =>
    exact ((Catalogue.ignoresIds_list _ page).map _).asksForNextId
  | bidsWithAuthor authorId page =>
    exact ((Catalogue.ignoresIds_list _ page).map _).asksForNextId
  | tenderOf bidId | bidAuthor bidId =>
    exact (((Catalogue.ignoresIds_row bidId).bind fun _ =>
      ignoresIds_pure _).map _).asksForNextId
  | decideIfPublished bidId target =>
    exact (((Catalogue.ignoresIds_transition bidId _ target).bind fun _ =>
      ignoresIds_pure _).map _).asksForNextId
  | onBids op => exact (op.ignoresIds bids Answer.bidForms).asksForNextId

/-- What there is to see, and the next identifier, decide what an operation answers and what there
is to see after it. -/
theorem StoreOperation.congr_of_seen {m m' : Market} (h : m.seen = m'.seen)
    (hid : m.ids.draw.1 = m'.ids.draw.1) (op : StoreOperation) :
    m.answer op.perform = m'.answer op.perform ∧
      (m.after op.perform).seen = (m'.after op.perform).seen := by
  have hcontents := contents_of_seen h
  constructor
  · exact (op.dependsOnContents.answer_congr hcontents).trans
      (op.asksForNextId.answer_congr m' hid)
  · exact (seen_of_contents (op.dependsOnContents.after_congr hcontents)).trans
      (op.asksForNextId.after_congr m' hid)

/-- An operation that fails leaves nothing to see. -/
theorem StoreOperation.seen_after_of_refused {m : Market} (htenders : m.tables.tenders.Dense)
    (hbids : m.tables.bids.Dense) {op : StoreOperation} {refusal : MarketError}
    (h : m.answer op.perform = .error refusal) : (m.after op.perform).seen = m.seen :=
  seen_of_substance ((op.performs htenders hbids).refused rfl h)

/-- Every operation of a store leaves both registers dense. -/
theorem StoreOperation.dense_after {m : Market} (htenders : m.tables.tenders.Dense)
    (hbids : m.tables.bids.Dense) (op : StoreOperation) :
    (m.after op.perform).tables.tenders.Dense ∧ (m.after op.perform).tables.bids.Dense := by
  cases h : m.answer op.perform with
  | error refusal =>
    rw [tables_of_seen (op.seen_after_of_refused htenders hbids h)]
    exact ⟨htenders, hbids⟩
  | ok answer =>
    obtain ⟨n, hn, hsubstance⟩ := Option.map_eq_some_iff.mp
      ((op.performs htenders hbids).accepted rfl h)
    obtain ⟨htenders', hbids'⟩ := registers_of_writeAll? hn
    rw [← tables_of_substance hsubstance]
    exact ⟨htenders.of_changeAll? htenders', hbids.of_changeAll? hbids'⟩

end Requests

/-! ## Work without its failures -/

/-- Whether an operation was accepted. -/
def Moment.isAccepted (moment : Moment) : Bool := moment.reply.isOk

/-- A reply that is an answer was accepted. -/
@[simp] theorem Moment.isAccepted_ok (op : StoreOperation) (answer : Answer) (m : Market) :
    (⟨op, .ok answer, m⟩ : Moment).isAccepted = true := rfl

/-- A reply that is a refusal was not accepted. -/
@[simp] theorem Moment.isAccepted_error (op : StoreOperation) (refusal : MarketError)
    (m : Market) : (⟨op, .error refusal, m⟩ : Moment).isAccepted = false := rfl

/-- What there is to see of a moment: the operation, the reply, and the market after it. -/
def Moment.seen (moment : Moment) : StoreOperation × Reply × Market :=
  (moment.op, moment.reply, moment.market.seen)

namespace Work

variable {α : Type}

/-- The operations that are accepted of the work, each with the identifier that it had at hand. -/
def accepted : Work α → Market → List (String × StoreOperation)
  | ends _, _ => []
  | offers id rest, m => rest.accepted (m.offer id)
  | performs op next, m =>
    let rest := (next (m.answer op.perform)).accepted (m.after op.perform)
    match m.answer op.perform with
    | .ok _ => (m.ids.draw.1, op) :: rest
    | .error _ => rest

/-- Operations in a row, each with an identifier at hand, whatever becomes of those before it. -/
def inOrder (conclusion : Conclusion α) : List (String × StoreOperation) → Work α
  | [] => ends conclusion
  | (id, op) :: rest => offers (some id) (performs op fun _ => inOrder conclusion rest)

/-- Operations in a row end as they were to end. -/
theorem run_inOrder (conclusion : Conclusion α) (ops : List (String × StoreOperation))
    (m : Market) : ((inOrder conclusion ops).run m).1 = conclusion := by
  induction ops generalizing m with
  | nil => rfl
  | cons first rest ih => exact ih ((m.offer (some first.1)).after first.2.perform)

/-- Of operations in a row those are accepted that are replied to with an answer. -/
theorem accepted_inOrder (conclusion : Conclusion α) (ops : List (String × StoreOperation))
    (m : Market) :
    (inOrder conclusion ops).accepted m =
      ((ops.zip ((inOrder conclusion ops).moments m)).filter fun (_, moment) =>
        moment.isAccepted).map Prod.fst := by
  induction ops generalizing m with
  | nil => rfl
  | cons first rest ih =>
    obtain ⟨id, op⟩ := first
    have hrest := ih ((m.offer (some id)).after op.perform)
    unfold inOrder accepted accepted moments moments
    dsimp only
    rw [List.zip_cons_cons, List.filter_cons]
    cases (m.offer (some id)).answer op.perform with
    | error refusal =>
      rw [if_neg (by simp)]
      exact hrest
    | ok answer =>
      rw [if_pos (by simp)]
      exact congrArg (List.cons (id, op)) hrest

/-- The accepted operations of work, done in a row where there is the same to see, are answered and
seen as they were between those that failed. -/
theorem seen_inOrder_accepted (work : Work α) {m m' : Market}
    (htenders : m.tables.tenders.Dense) (hbids : m.tables.bids.Dense) (h : m'.seen = m.seen)
    (conclusion : Conclusion α) :
    let kept := inOrder conclusion (work.accepted m)
    (kept.moments m').map Moment.seen =
        ((work.moments m).filter Moment.isAccepted).map Moment.seen ∧
      (kept.run m').1 = conclusion ∧ (kept.run m').2.seen = (work.run m).2.seen := by
  induction work generalizing m m' with
  | ends _ => exact ⟨rfl, rfl, h⟩
  | offers id rest ih => exact ih htenders hbids (m := m.offer id) h
  | performs op next ih =>
    obtain ⟨htenders', hbids'⟩ := op.dense_after htenders hbids
    have hmoments : (performs op next).moments m =
        ⟨op, m.answer op.perform, m.after op.perform⟩ ::
          (next (m.answer op.perform)).moments (m.after op.perform) := rfl
    rw [hmoments, run_performs, accepted]
    cases hreply : m.answer op.perform with
    | error refusal =>
      -- What is seen after the failure is what was seen before it.
      have hsame := op.seen_after_of_refused htenders hbids hreply
      rw [List.filter_cons_of_neg (by simp)]
      exact ih (.error refusal) htenders' hbids' (h.trans hsame.symm)
    | ok answer =>
      have hoffered : (m'.offer (some m.ids.draw.1)).seen = m.seen := h
      obtain ⟨hanswer, hafter⟩ := op.congr_of_seen hoffered rfl
      obtain ⟨hmoments', hconclusion, hseen⟩ := ih (.ok answer) htenders' hbids' hafter
      rw [List.filter_cons_of_pos (by simp)]
      refine ⟨?_, hconclusion, hseen⟩
      have hfirst : Moment.seen ⟨op, (m'.offer (some m.ids.draw.1)).answer op.perform,
          (m'.offer (some m.ids.draw.1)).after op.perform⟩ =
          Moment.seen ⟨op, .ok answer, m.after op.perform⟩ := by
        unfold Moment.seen
        rw [hanswer, hreply, hafter]
      exact congrArg₂ List.cons hfirst hmoments'

end Work

namespace Market

variable {α : Type}

/-- Once a transaction is discarded, the same is there to see. -/
theorem seen_discard {m view view' : Market} (h : view.seen = view'.seen) :
    (discard m view).seen = (discard m view').seen :=
  (congrArg (fun view : Market => discard m view) h :)

/-- Once a transaction is settled, the same is there to see. -/
theorem seen_settle {m view view' : Market} (h : view.seen = view'.seen)
    (registrations : List Registration) :
    (settle m view registrations).seen = (settle m view' registrations).seen := by
  have hcaches := Registration.contents_foldl_applyTo registrations (caches_of_seen h)
  exact (congrArg₂
    (fun (n : Market) caches => { n with transaction := m.transaction, caches }) h hcaches :)

/-- A transaction looks at nothing of its work but the conclusion and what there is to see at its
end. -/
theorem decisionTransaction_congr_of_seen (limit : Option UInt64)
    {work work' : StateM Market (Conclusion α)} {m : Market}
    (hconclusion : (work' m.opened).1 = (work m.opened).1)
    (hseen : (work' m.opened).2.seen = (work m.opened).2.seen) :
    (decisionTransaction limit work' m).1 = (decisionTransaction limit work m).1 ∧
      (decisionTransaction limit work' m).2.seen = (decisionTransaction limit work m).2.seen := by
  rcases hwork : work m.opened with ⟨conclusion, view⟩
  rcases hwork' : work' m.opened with ⟨conclusion', view'⟩
  rw [hwork, hwork'] at hconclusion hseen
  obtain rfl : conclusion' = conclusion := hconclusion
  unfold opened at hwork hwork'
  unfold decisionTransaction
  rw [hwork, hwork']
  dsimp only at hseen ⊢
  rw [transaction_of_seen hseen]
  cases (if (m.slow || conclusion'.overdue) = true then limit else none) with
  | some milliseconds => exact ⟨rfl, seen_discard hseen⟩
  | none =>
    cases conclusion'.ending with
    | panics message => exact ⟨rfl, seen_discard hseen⟩
    | returns result =>
      cases result with
      | error refusal => exact ⟨rfl, seen_discard hseen⟩
      | ok value =>
        dsimp only
        split
        · exact ⟨rfl, seen_settle hseen _⟩
        · exact ⟨rfl, seen_discard hseen⟩

end Market

/-- In a transaction on a market, some work comes to the same as other work whose failed operations
are left out of it: the accepted operations are answered alike, with the same to see after each of
them, and the transactions end alike, with the same tables and the same rows known to the caches. -/
structure Work.OmitsFailures {α : Type} (m : Market) (limit : Option UInt64) (kept work : Work α) :
    Prop where
  moments : (kept.moments m.opened).map Moment.seen =
    ((work.moments m.opened).filter Moment.isAccepted).map Moment.seen
  ending : (Market.decisionTransaction limit kept.run m).1 =
    (Market.decisionTransaction limit work.run m).1
  tables : (Market.decisionTransaction limit kept.run m).2.tables =
    (Market.decisionTransaction limit work.run m).2.tables
  caches : (Market.decisionTransaction limit kept.run m).2.caches.contents =
    (Market.decisionTransaction limit work.run m).2.caches.contents

/-- Any work comes to the same as its accepted operations in a row. -/
theorem Market.Sound.omitsFailures {α : Type} {m : Market} (hm : m.Sound) (limit : Option UInt64)
    (work : Work α) :
    Work.OmitsFailures m limit
      (Work.inOrder (work.run m.opened).1 (work.accepted m.opened)) work := by
  obtain ⟨hmoments, hconclusion, hseen⟩ := work.seen_inOrder_accepted (m := m.opened)
    hm.tenders hm.bids rfl (work.run m.opened).1
  obtain ⟨hending, hleft⟩ := Market.decisionTransaction_congr_of_seen limit hconclusion hseen
  exact ⟨hmoments, hending, Market.tables_of_seen hleft, Market.caches_of_seen hleft⟩

/-- In every run, a failed operation in a transaction undoes nothing but itself. Operations that are
done in a row, each with an identifier to create something under, come to the same when those that
fail are left out. Work that goes on in any other way after a failure comes to the same as what it
did with success. -/
theorem Session.failed_operations_undo_themselves {α : Type} (stage : Stage)
    (decisionLimit limit : Option UInt64) (steps : List Step) :
    let m := ((fresh stage decisionLimit).after steps).market
    (∀ (conclusion : Conclusion α) (ops : List (String × StoreOperation)),
      let work := Work.inOrder conclusion ops
      let succeeding := ((ops.zip (work.moments m.opened)).filter fun (_, moment) =>
        moment.isAccepted).map Prod.fst
      Work.OmitsFailures m limit (Work.inOrder conclusion succeeding) work) ∧
    ∀ work : Work α, Work.OmitsFailures m limit
      (Work.inOrder (work.run m.opened).1 (work.accepted m.opened)) work := by
  intro m
  have hm : m.Sound := sound_after (sound_fresh stage decisionLimit) steps
  constructor
  · intro conclusion ops work succeeding
    have homits := hm.omitsFailures limit work
    rw [Work.accepted_inOrder, Work.run_inOrder] at homits
    exact homits
  · exact hm.omitsFailures limit

open Market in
/-- A creation for an unknown organization, a rollback to a version that does not exist and an edit
of an unknown tender are left out. -/
example :
    let missing := StoreOperation.insertTender "nowhere" "ann" ⟨"bridge", "", .construction⟩
    let tender := StoreOperation.insertTender "o" "ann" ⟨"bridge", "", .construction⟩
    let edit := StoreOperation.onBids (.edit "b" ⟨"sand", ""⟩)
    let back := StoreOperation.onBids (.rollback "b" 7)
    let unknown := StoreOperation.onTenders (.edit "v" ⟨"tunnel", "", .construction⟩)
    (Work.inOrder (α := Unit) { ending := .returns (.ok ()) }
      [("v", missing), ("w", tender), ("", back), ("", edit), ("", unknown)]).accepted
        ((Session.fresh .assembled none).after Session.biddingRun).market.opened =
      [("w", tender), ("", edit)] := by
  decide

end Procurement

import Procurement.Proofs.Access
import Procurement.Proofs.Mirror
import Procurement.Proofs.Outcomes

/-!
# What a transaction shows

Work in a transaction meets every entity that was stored before the transaction as its own
operations have left it: each reply follows from the chronicle stored before and from what
was done to it since. Entities that the work creates stand in the tables that it sees, and in
their listings, but the caches learn of them with the commit only; until then every operation
on such an entity is refused as for one that does not exist.
-/

namespace Procurement

/-! ## Listings -/

/-- Whether an operation lists what is stored. -/
def StoreOperation.lists : StoreOperation → Bool
  | publishedTenders _ _ | tendersOf _ _ | bidsWithTender _ _ | bidsWithAuthor _ _
  | onTenders .loadIds | onBids .loadIds => true
  | _ => false

namespace Market

/-- The tenders of a user are a page of what the tables list for whomever the username
stands for. -/
theorem answer_tendersOf (m : Market) (username : String) (page : Page) :
    m.answer (tendersOf username page) =
      (found (.notFound .user username) (m.caches.users.value? username)).map fun userId =>
        page.select (m.tables.tenders.listing fun tender => tender.origin.creatorId == userId) := by
  unfold tendersOf
  have hread := onlyReads_userId username
  rw [hread.answer_bind fun _ => (Catalogue.onlyReads_list _ page).ignoresCounts, answer_userId]
  cases m.caches.users.value? username <;> rfl

/-- A listing is made from what the tables hold, and from what usernames are known to stand for. -/
theorem answer_of_lists {op : StoreOperation} (hop : op.lists = true) {m m' : Market}
    (htables : m.tables = m'.tables) (husers : m.caches.users.entries = m'.caches.users.entries) :
    m.answer op.perform = m'.answer op.perform := by
  have hlist {Status Origin Content : Type} [Named Content] {c : Catalogue Status Origin Content}
      (admits : Entity Status Origin Content → Bool) (page : Page) :
      m.answer (c.list admits page) = m'.answer (c.list admits page) :=
    congrArg (fun tables => Except.ok (page.select ((c.register tables).listing admits))) htables
  have hids {Status Origin Content : Type} {c : Catalogue Status Origin Content} :
      m.answer c.loadIds = m'.answer c.loadIds :=
    congrArg (fun tables => Except.ok ((c.register tables).ids.mergeSort fun a b => !(b < a)))
      htables
  cases op with
  | publishedTenders serviceTypes page | bidsWithTender tenderId page
  | bidsWithAuthor authorId page =>
    exact (answer_map _ _ _).trans ((congrArg _ (hlist _ page)).trans (answer_map _ _ _).symm)
  | tendersOf username page =>
    have hvalue : m.caches.users.value? username = m'.caches.users.value? username :=
      congrArg (List.lookup username) husers
    unfold StoreOperation.perform
    rw [answer_map, answer_map, answer_tendersOf, answer_tendersOf, htables, hvalue]
  | onTenders op | onBids op =>
    cases op with
    | loadIds => exact (answer_map _ _ _).trans ((congrArg _ hids).trans (answer_map _ _ _).symm)
    | _ => cases hop
  | _ => cases hop

end Market

/-! ## One operation -/

namespace Catalogue

open Market

variable {Status Origin Content : Type} {c : Catalogue Status Origin Content} {m m' : Market}

/-- The register is dense, and the cache knows of nothing but what it holds. -/
structure Honest (c : Catalogue Status Origin Content) (m : Market) : Prop where
  dense : (c.register m.tables).Dense
  stored : ∀ id, (c.cache m.caches).knows id = true → id ∈ (c.register m.tables).ids

/-- The chronicle of an entity that the cache knows. -/
def known? (c : Catalogue Status Origin Content) (m : Market) (id : String) :
    Option (Chronicle Status Origin Content) :=
  if (c.cache m.caches).knows id then (c.register m.tables).chronicle? id else none

/-- What the cache of an honest catalogue knows has a chronicle. -/
theorem Honest.exists_chronicle? (h : c.Honest m) {id : String}
    (hknows : (c.cache m.caches).knows id = true) :
    ∃ x, (c.register m.tables).chronicle? id = some x :=
  h.dense.exists_chronicle?_of_mem (h.stored id hknows)

/-- How the chronicles of a catalogue move on with an operation: by the access that it is, or by
the entity that it creates. -/
structure Moves (c : Catalogue Status Origin Content) (m m' : Market)
    (access? : Option (EntityAccess Status Origin Content))
    (created? : Option (String × Chronicle Status Origin Content)) : Prop where
  dense : (c.register m'.tables).Dense
  accessed : ∀ a, access? = some a → (c.cache m.caches).knows a.id = true →
    (c.register m'.tables).chronicle? a.id = ((c.register m.tables).chronicle? a.id).map a.effect
  created : ∀ id x, created? = some (id, x) →
    (c.register m.tables).chronicle? id = none ∧ (c.register m'.tables).chronicle? id = some x
  others : ∀ id, (∀ a, access? = some a → a.id = id → (c.cache m.caches).knows id = false) →
    (∀ x, created? ≠ some (id, x)) →
    (c.register m'.tables).chronicle? id = (c.register m.tables).chronicle? id

/-- What leaves the register alone moves nothing. -/
theorem moves_of_eq (hdense : (c.register m.tables).Dense)
    (h : c.register m'.tables = c.register m.tables) : c.Moves m m' none none where
  dense := h ▸ hdense
  accessed _ ha := by cases ha
  created _ _ hx := by cases hx
  others id _ _ := by rw [h]

section Accesses

variable {request : MarketM Answer} {a : EntityAccess Status Origin Content}

/-- The reply to an access is to be had from the chronicle of the entity, if it is known. -/
theorem Accesses.answer_eq (h : c.Accesses request a) (hm : c.Honest m) :
    m.answer request = a.replyTo (c.known? m a.id) := by
  unfold known?
  cases hknows : (c.cache m.caches).knows a.id with
  | false => exact (h.unknown m hknows).1
  | true =>
    obtain ⟨x, hx⟩ := hm.exists_chronicle? hknows
    rw [if_pos rfl, hx]
    exact (h.known m x hknows hm.dense hx).answer

/-- An access changes the tables at most in its own catalogue. -/
theorem Accesses.exists_register (h : c.Accesses request a) (hc : c.Lawful) (hm : c.Honest m) :
    ∃ register, (m.after request).tables = c.setRegister m.tables register := by
  cases hknows : (c.cache m.caches).knows a.id with
  | false =>
    refine ⟨c.register m.tables, ?_⟩
    rw [(h.unknown m hknows).2, hc.setRegister_register]
  | true =>
    obtain ⟨x, hx⟩ := hm.exists_chronicle? hknows
    obtain ⟨register, htables, _⟩ := (h.known m x hknows hm.dense hx).exists_register
    exact ⟨register, htables⟩

/-- An access moves on the chronicle of its entity. -/
theorem Accesses.moves (h : c.Accesses request a) (hc : c.Lawful) (hm : c.Honest m) :
    c.Moves m (m.after request) (some a) none := by
  cases hknows : (c.cache m.caches).knows a.id with
  | false =>
    have hsame := (h.unknown m hknows).2
    refine ⟨hsame ▸ hm.dense, fun a' ha' hknows' => ?_, fun _ _ hx => (by cases hx),
      fun id _ _ => ?_⟩
    · obtain rfl := Option.some.inj ha'
      exact absurd (hknows.symm.trans hknows') (by simp)
    · rw [hsame]
  | true =>
    obtain ⟨x, hx⟩ := hm.exists_chronicle? hknows
    obtain ⟨register, htables, hdense, hleft⟩ := (h.known m x hknows hm.dense hx).exists_register
    have hregister : c.register (m.after request).tables = register := by
      rw [htables, hc.register_setRegister]
    refine ⟨hregister ▸ hdense, fun a' ha' _ => ?_, fun _ _ hx => (by cases hx),
      fun id hid _ => ?_⟩
    · obtain rfl := Option.some.inj ha'
      rw [hregister, hleft, if_pos rfl, hx, Option.map_some]
    · have hother : id ≠ a.id := by
        rintro rfl
        exact absurd ((hid a rfl rfl).symm.trans hknows) (by simp)
      rw [hregister, hleft, if_neg hother]

end Accesses

/-- An insertion adds one chronicle, or is refused. -/
theorem moves_insert (hc : c.Lawful) (hdense : (c.register m.tables).Dense) (origin : Origin)
    (content : Content) :
    c.Moves m (m.after (c.insert origin content)) none
      ((m.answer (c.insert origin content)).toOption.map fun id =>
        (id, { origin, createdAt := m.now, status := c.initial, first := content })) := by
  rcases c.insert_cases m origin content with
    ⟨refusal, hanswer, hafter⟩ | ⟨id, register, hinsert, hanswer, hafter⟩
  · rw [hanswer, hafter]
    exact moves_of_eq hdense rfl
  · have hregister : c.register (m.after (c.insert origin content)).tables = register := by
      rw [hafter, tables_registered, hc.register_setRegister]
    have hnone : (c.register m.tables).chronicle? id = none :=
      Register.chronicle?_of_row?_eq_none (Register.row?_eq_none_of_insert? hinsert)
    have hchronicle := hdense.chronicle?_of_insert? hinsert
    rw [hanswer]
    refine ⟨hregister ▸ hdense.of_insert? hinsert, fun _ ha => (by cases ha), fun id' x hx => ?_,
      fun id' _ hnew => ?_⟩
    · obtain ⟨rfl, rfl⟩ := Prod.mk.inj (Option.some.inj hx)
      exact ⟨hnone, by rw [hregister, hchronicle, if_pos rfl]⟩
    · have hother : id' ≠ id := by
        rintro rfl
        exact hnew _ rfl
      rw [hregister, hchronicle, if_neg hother]

/-- Where nothing is accessed, only the tables before matter. -/
theorem Moves.of_tables {n : Market} {created? : Option (String × Chronicle Status Origin Content)}
    (h : c.Moves m m' none created?) (htables : m.tables = n.tables) :
    c.Moves n m' none created? where
  dense := h.dense
  accessed _ ha := by cases ha
  created id x hx := htables ▸ h.created id x hx
  others id _ hnew := htables ▸ h.others id (fun _ ha => (by cases ha)) hnew

end Catalogue

namespace StoreOperation

open Market

/-- The tender that an operation creates, if it does so with the given reply. -/
def newTender? (m : Market) :
    StoreOperation → Reply → Option (String × Chronicle TenderStatus TenderOrigin TenderContent)
  | insertTender organizationId creator content, .ok (.text id) =>
    (m.caches.users.value? creator).map fun creatorId =>
      (id, { origin := { organizationId, creatorId }, createdAt := m.now, status := .created,
             first := content })
  | _, _ => none

/-- The bid that an operation creates, if it does so with the given reply. -/
def newBid? (m : Market) :
    StoreOperation → Reply → Option (String × Chronicle BidStatus BidOrigin BidContent)
  | insertBid tenderId author content, .ok (.text id) =>
    some (id, { origin := { tenderId, author }, createdAt := m.now, status := .created,
                first := content })
  | _, _ => none

/-- An insertion changes the tables at most in its own catalogue. -/
theorem exists_register_insert {Status Origin Content : Type} {c : Catalogue Status Origin Content}
    (hc : c.Lawful) (m : Market) (origin : Origin) (content : Content) :
    ∃ register, (m.after (c.insert origin content)).tables = c.setRegister m.tables register := by
  rcases c.insert_cases m origin content with
    ⟨refusal, hanswer, hafter⟩ | ⟨id, register, hinsert, hanswer, hafter⟩
  · exact ⟨c.register m.tables, by rw [hafter, hc.setRegister_register]⟩
  · exact ⟨register, by rw [hafter, tables_registered]⟩

section Moves

variable {m : Market} (htenders : tenders.Honest m) (hbids : bids.Honest m)

include htenders hbids

/-- The insertion of a tender adds one tender or is refused, and moves no bid. -/
theorem moves_insertTender (organizationId creator : String) (content : TenderContent) :
    tenders.Moves m (m.after (insertTender organizationId creator content).perform) none
        ((insertTender organizationId creator content).newTender? m
          (m.answer (insertTender organizationId creator content).perform)) ∧
      bids.Moves m (m.after (insertTender organizationId creator content).perform) none none := by
  have hread := onlyReads_userId creator
  have htables := hread.tables_after m
  have huser := answer_userId m creator
  unfold perform
  rw [after_map, answer_map]
  unfold Market.insertTender
  cases hcreator : m.caches.users.value? creator with
  | none =>
    rw [hcreator, found_none] at huser
    rw [after_bind, answer_bind, huser]
    exact ⟨Catalogue.moves_of_eq htenders.dense (congrArg Tables.tenders htables),
      Catalogue.moves_of_eq hbids.dense (congrArg Tables.bids htables)⟩
  | some creatorId =>
    rw [hcreator, found_some] at huser
    rw [after_bind_of_answer huser, answer_bind, huser]
    dsimp only
    have hnow : (m.after (userId creator)).now = m.now :=
      (congrArg Market.now (hread.after_uncounted m) :)
    obtain ⟨register, hregister⟩ := exists_register_insert tenders_lawful
      (m.after (userId creator)) { organizationId, creatorId } content
    have hmoves := Catalogue.moves_insert tenders_lawful (m := m.after (userId creator))
      (htables ▸ htenders.dense) { organizationId, creatorId } content
    constructor
    · convert hmoves.of_tables htables using 1
      rw [hnow]
      cases (m.after (userId creator)).answer
        (tenders.insert { organizationId, creatorId } content) with
      | error refusal => rfl
      | ok id =>
        change (m.caches.users.value? creator).map _ = _
        rw [hcreator]
        rfl
    · refine Catalogue.moves_of_eq hbids.dense ?_
      rw [hregister, htables]
      rfl

/-- The insertion of a bid adds one bid or is refused, and moves no tender. -/
theorem moves_insertBid (tenderId : String) (author : Author) (content : BidContent) :
    tenders.Moves m (m.after (insertBid tenderId author content).perform) none none ∧
      bids.Moves m (m.after (insertBid tenderId author content).perform) none
        ((insertBid tenderId author content).newBid? m
          (m.answer (insertBid tenderId author content).perform)) := by
  unfold perform
  rw [after_map, answer_map]
  obtain ⟨register, hregister⟩ := exists_register_insert bids_lawful m { tenderId, author } content
  have hmoves := Catalogue.moves_insert bids_lawful hbids.dense { tenderId, author } content
  constructor
  · refine Catalogue.moves_of_eq htenders.dense ?_
    rw [hregister]
    rfl
  · cases hanswer : m.answer (bids.insert { tenderId, author } content) <;>
      rw [hanswer] at hmoves <;> exact hmoves

/-- Every operation moves on the tenders and bids by the access that it is, or by what it
creates. -/
theorem moves (op : StoreOperation) :
    tenders.Moves m (m.after op.perform) op.tenderAccess?
        (op.newTender? m (m.answer op.perform)) ∧
      bids.Moves m (m.after op.perform) op.bidAccess? (op.newBid? m (m.answer op.perform)) := by
  have hread (hreads : OnlyReads op.perform) :
      tenders.Moves m (m.after op.perform) none none ∧
        bids.Moves m (m.after op.perform) none none :=
    ⟨Catalogue.moves_of_eq htenders.dense (congrArg Tables.tenders (hreads.tables_after m)),
      Catalogue.moves_of_eq hbids.dense (congrArg Tables.bids (hreads.tables_after m))⟩
  have htender {a} (ha : op.tenderAccess? = some a) :
      tenders.Moves m (m.after op.perform) (some a) none ∧
        bids.Moves m (m.after op.perform) none none := by
    obtain ⟨register, hregister⟩ := (accesses_tenders ha).exists_register tenders_lawful htenders
    exact ⟨(accesses_tenders ha).moves tenders_lawful htenders,
      Catalogue.moves_of_eq hbids.dense (congrArg Tables.bids hregister :)⟩
  have hbid {a} (ha : op.bidAccess? = some a) :
      tenders.Moves m (m.after op.perform) none none ∧
        bids.Moves m (m.after op.perform) (some a) none := by
    obtain ⟨register, hregister⟩ := (accesses_bids ha).exists_register bids_lawful hbids
    exact ⟨Catalogue.moves_of_eq htenders.dense (congrArg Tables.tenders hregister :),
      (accesses_bids ha).moves bids_lawful hbids⟩
  cases op with
  | insertTender organizationId creator content =>
    exact moves_insertTender htenders hbids organizationId creator content
  | insertBid tenderId author content =>
    exact moves_insertBid htenders hbids tenderId author content
  | publishedTenders serviceTypes page =>
    exact hread ((onlyReads_publishedTenders serviceTypes page).map _)
  | tendersOf username page => exact hread ((onlyReads_tendersOf username page).map _)
  | bidsWithTender tenderId page => exact hread ((onlyReads_bidsWithTender tenderId page).map _)
  | bidsWithAuthor authorId page => exact hread ((onlyReads_bidsWithAuthor authorId page).map _)
  | onTenders op =>
    cases op with
    | loadIds => exact hread (Catalogue.onlyReads_loadIds.map _)
    | _ => exact htender rfl
  | tenderOf | bidAuthor | decideIfPublished => exact hbid rfl
  | onBids op =>
    cases op with
    | loadIds => exact hread (Catalogue.onlyReads_loadIds.map _)
    | _ => exact hbid rfl

end Moves

/-- No operation sets the clock. -/
theorem now_after (m : Market) (op : StoreOperation) : (m.after op.perform).now = m.now := by
  have hinsert {Status Origin Content : Type} {c : Catalogue Status Origin Content} (m : Market)
      (origin : Origin) (content : Content) :
      (m.after (c.insert origin content)).now = m.now := by
    rcases c.insert_cases m origin content with
      ⟨refusal, hanswer, hafter⟩ | ⟨id, register, hinsert, hanswer, hafter⟩
    · rw [hafter]
    · rw [hafter]
      unfold registered
      split <;> rfl
  have hother (hop : op.inserts = false) : (m.after op.perform).now = m.now :=
    (congrArg Market.now ((createsNothing hop).touchesTables m) :)
  cases op with
  | insertTender organizationId creator content =>
    have hread := (onlyReads_userId creator).after_uncounted m
    have hnow : (m.after (userId creator)).now = m.now := (congrArg Market.now hread :)
    unfold perform
    rw [after_map]
    unfold Market.insertTender
    rw [after_bind]
    cases m.answer (userId creator) with
    | error refusal => exact hnow
    | ok creatorId => exact (hinsert _ _ _).trans hnow
  | insertBid tenderId author content =>
    unfold perform
    rw [after_map]
    exact hinsert m _ _
  | _ => exact hother rfl

end StoreOperation

/-! ## The whole work -/

section Seen

variable {Status Origin Content : Type}

/-- The accesses to one entity among the operations that were performed. -/
def accessesTo (access? : StoreOperation → Option (EntityAccess Status Origin Content))
    (moments : List Moment) (id : String) : List (EntityAccess Status Origin Content) :=
  (moments.filterMap fun moment => access? moment.op).filter fun a => a.id = id

/-- The chronicle after accesses, one after the other. -/
def Chronicle.afterAll (x : Chronicle Status Origin Content)
    (accesses : List (EntityAccess Status Origin Content)) : Chronicle Status Origin Content :=
  accesses.foldl (fun x a => a.effect x) x

variable (access? : StoreOperation → Option (EntityAccess Status Origin Content))
  (created? : StoreOperation → Reply → Option (String × Chronicle Status Origin Content))

/-- One more operation is the last access to the entity that it accesses. -/
theorem accessesTo_concat (moments : List Moment) (moment : Moment) (id : String) :
    accessesTo access? (moments ++ [moment]) id =
      accessesTo access? moments id ++ ((access? moment.op).toList.filter fun a => a.id = id) := by
  unfold accessesTo
  rw [List.filterMap_append, List.filter_append]
  cases hop : access? moment.op <;> simp [hop]

/-- Tables that hold what was stored before as operations have left it, and what the operations
have created as it was created. -/
structure Catalogue.Holds (c : Catalogue Status Origin Content) (before : Tables)
    (moments : List Moment) (view : Tables) : Prop where
  stored : ∀ id x, (c.register before).chronicle? id = some x →
    (c.register view).chronicle? id = some (x.afterAll (accessesTo access? moments id))
  created : ∀ moment ∈ moments, ∀ id x, created? moment.op moment.reply = some (id, x) →
    (c.register before).chronicle? id = none ∧ (c.register view).chronicle? id = some x

variable {access? created?} {c : Catalogue Status Origin Content}

/-- Before any operation the tables hold what was stored, as it was stored. -/
theorem Catalogue.holds_refl (t : Tables) : c.Holds access? created? t [] t where
  stored _ _ hx := hx
  created _ hmoment := absurd hmoment List.not_mem_nil

/-- What tables hold is moved on by one more operation. -/
theorem Catalogue.Holds.concat {before : Tables} {moments : List Moment} {view view' : Market}
    {op : StoreOperation} {reply : Reply} (h : c.Holds access? created? before moments view.tables)
    (hknows : ∀ id, (c.cache view.caches).knows id =
      ((c.register before).chronicle? id).isSome)
    (hmoves : c.Moves view view' (access? op) (created? op reply)) :
    c.Holds access? created? before (moments ++ [⟨op, reply, view'⟩]) view'.tables where
  stored id x hx := by
    have hview := h.stored id x hx
    rw [accessesTo_concat]
    by_cases haccessed : ∃ a, access? op = some a ∧ a.id = id
    · obtain ⟨a, ha, rfl⟩ := haccessed
      have hmoved := hmoves.accessed a ha ((hknows a.id).trans (by rw [hx]; rfl))
      rw [hview, Option.map_some] at hmoved
      simp [hmoved, ha, Chronicle.afterAll]
    · have hothers := hmoves.others id (fun a ha haid => absurd ⟨a, ha, haid⟩ haccessed)
        fun x' hx' => by simp [(hmoves.created id x' hx').1] at hview
      have hnone : (access? op).toList.filter (fun a => a.id = id) = [] := by
        cases ha : access? op with
        | none => rfl
        | some a => simpa [ha] using haccessed
      rw [hothers, hview, hnone, List.append_nil]
  created moment hmoment id x hx := by
    rcases List.mem_append.mp hmoment with hold | hnew
    · obtain ⟨hbefore, hview⟩ := h.created moment hold id x hx
      refine ⟨hbefore, ?_⟩
      rw [hmoves.others id (fun a _ _ => ?_) fun x' hx' => ?_, hview]
      · rw [hknows, hbefore]
        rfl
      · simp [(hmoves.created id x' hx').1] at hview
    · obtain rfl := List.mem_singleton.mp hnew
      obtain ⟨hview, hview'⟩ := hmoves.created id x hx
      refine ⟨?_, hview'⟩
      cases hbefore : (c.register before).chronicle? id with
      | none => rfl
      | some x' => simp [h.stored id x' hbefore] at hview

end Seen

/-- The tables that operations leave, if these are the tables that they find. -/
def Tables.afterMoments (t : Tables) (moments : List Moment) : Tables :=
  moments.foldl (fun _ moment => moment.market.tables) t

namespace Market

/-- A market as work in a transaction sees it after operations: the caches and the clock are as
before, and the tables hold what was stored before and what the operations made of it. -/
structure Views (m : Market) (moments : List Moment) (view : Market) : Prop where
  isOpen : ∃ handle, view.transaction = some handle
  caches : view.caches.uncounted = m.caches.uncounted
  now : view.now = m.now
  tendersDense : view.tables.tenders.Dense
  bidsDense : view.tables.bids.Dense
  tendersHeld : tenders.Holds StoreOperation.tenderAccess? (StoreOperation.newTender? m) m.tables
    moments view.tables
  bidsHeld : bids.Holds StoreOperation.bidAccess? (StoreOperation.newBid? m) m.tables moments
    view.tables

section Views

variable {m view : Market} {moments : List Moment}

/-- At its beginning a transaction sees what is stored. -/
theorem Faithful.views_opened (hm : m.Faithful) : m.Views [] m.opened where
  isOpen := ⟨{}, rfl⟩
  caches := rfl
  now := rfl
  tendersDense := hm.tenders
  bidsDense := hm.bids
  tendersHeld := Catalogue.holds_refl m.tables
  bidsHeld := Catalogue.holds_refl m.tables

/-- Outside a transaction the cache knows exactly the tenders that have a chronicle. -/
theorem Faithful.knows_tender (hm : m.Faithful) (id : String) :
    m.caches.tenders.knows id = (m.tables.tenders.chronicle? id).isSome := by
  rw [Bool.eq_iff_iff, hm.tenders.isSome_chronicle?, ← hm.mirror.tenders]
  exact m.caches.tenders.knows_iff id

/-- Outside a transaction the cache knows exactly the bids that have a chronicle. -/
theorem Faithful.knows_bid (hm : m.Faithful) (id : String) :
    m.caches.bids.knows id = (m.tables.bids.chronicle? id).isSome := by
  rw [Bool.eq_iff_iff, hm.bids.isSome_chronicle?, ← hm.mirror.bids]
  exact m.caches.bids.knows_iff id

namespace Views

variable (hm : m.Faithful) (h : m.Views moments view)

include hm h

/-- In a transaction the cache knows exactly the tenders that were stored before it. -/
theorem knows_tender (id : String) :
    view.caches.tenders.knows id = (m.tables.tenders.chronicle? id).isSome :=
  (tenders_lawful.knows_congr h.caches id).trans (hm.knows_tender id)

/-- In a transaction the cache knows exactly the bids that were stored before it. -/
theorem knows_bid (id : String) :
    view.caches.bids.knows id = (m.tables.bids.chronicle? id).isSome :=
  (bids_lawful.knows_congr h.caches id).trans (hm.knows_bid id)

/-- All tenders that the cache knows are still stored in what the work sees. -/
theorem honest_tenders : tenders.Honest view where
  dense := h.tendersDense
  stored id hknows := by
    obtain ⟨x, hx⟩ := Option.isSome_iff_exists.mp ((h.knows_tender hm id).symm.trans hknows)
    refine (h.tendersDense.isSome_chronicle? id).mp ?_
    exact Option.isSome_iff_exists.mpr ⟨_, h.tendersHeld.stored id x hx⟩

/-- All bids that the cache knows are still stored in what the work sees. -/
theorem honest_bids : bids.Honest view where
  dense := h.bidsDense
  stored id hknows := by
    obtain ⟨x, hx⟩ := Option.isSome_iff_exists.mp ((h.knows_bid hm id).symm.trans hknows)
    refine (h.bidsDense.isSome_chronicle? id).mp ?_
    exact Option.isSome_iff_exists.mpr ⟨_, h.bidsHeld.stored id x hx⟩

/-- After one more operation the work sees what this has left. -/
theorem concat (op : StoreOperation) :
    m.Views (moments ++ [⟨op, view.answer op.perform, view.after op.perform⟩])
      (view.after op.perform) := by
  obtain ⟨handle, hopen⟩ := h.isOpen
  have hgains := op.gains hopen
  obtain ⟨htenders, hbids⟩ := op.moves (h.honest_tenders hm) (h.honest_bids hm)
  have husers (username : String) :
      view.caches.users.value? username = m.caches.users.value? username :=
    (congrArg (fun caches => caches.users.value? username) h.caches :)
  have hnewTender : op.newTender? view = op.newTender? m := by
    unfold StoreOperation.newTender?
    simp only [husers, h.now]
  have hnewBid : op.newBid? view = op.newBid? m := by
    unfold StoreOperation.newBid?
    simp only [h.now]
  exact
    { isOpen := ⟨_, hgains.transaction⟩
      caches := hgains.caches.trans h.caches
      now := (op.now_after view).trans h.now
      tendersDense := htenders.dense
      bidsDense := hbids.dense
      tendersHeld := h.tendersHeld.concat (h.knows_tender hm) (hnewTender ▸ htenders)
      bidsHeld := h.bidsHeld.concat (h.knows_bid hm) (hnewBid ▸ hbids) }

omit hm in
/-- What identifiers are offered does not change what the work sees. -/
theorem offer (id : Option String) : m.Views moments (view.offer id) :=
  ⟨h.isOpen, h.caches, h.now, h.tendersDense, h.bidsDense, h.tendersHeld, h.bidsHeld⟩

end Views

/-- Each operation of the work meets a market as the operations before it have left it. -/
theorem Views.exists_of_moments {α : Type} (hm : m.Faithful) {work : Work α}
    (h : m.Views moments view) {before : List Moment} {moment : Moment} {rest : List Moment}
    (hmoments : work.moments view = before ++ moment :: rest) :
    ∃ found, m.Views (moments ++ before) found ∧
      found.tables = view.tables.afterMoments before ∧
      moment.reply = found.answer moment.op.perform := by
  induction work generalizing moments view before with
  | ends conclusion =>
    have hlength := congrArg List.length hmoments
    simp [Work.moments] at hlength
  | offers id rest ih => exact ih (h.offer id) hmoments
  | performs op next ih =>
    have hnext := h.concat hm op
    cases before with
    | nil =>
      obtain ⟨rfl, _⟩ := List.cons.inj hmoments
      exact ⟨view, (List.append_nil moments).symm ▸ h, rfl, rfl⟩
    | cons first before =>
      obtain ⟨rfl, hlater⟩ := List.cons.inj hmoments
      obtain ⟨found, hfound, htables, hreply⟩ := ih _ hnext hlater
      rw [List.append_assoc] at hfound
      exact ⟨found, hfound, htables, hreply⟩

/-- At its end the work sees what all of its operations have left. -/
theorem Views.run {α : Type} (hm : m.Faithful) {work : Work α} (h : m.Views moments view) :
    m.Views (moments ++ work.moments view) (work.run view).2 := by
  induction work generalizing moments view with
  | ends conclusion => exact (List.append_nil moments).symm ▸ h
  | offers id rest ih => exact ih (h.offer id)
  | performs op next ih =>
    have hrest := ih (view.answer op.perform) (h.concat hm op)
    rw [List.append_assoc] at hrest
    exact hrest

end Views

end Market

/-- What an operation is told of one kind of entities: of those stored before the transaction, what
the operations before it have made of them; of those that these created, nothing. -/
structure Catalogue.Shows {Status Origin Content : Type} (c : Catalogue Status Origin Content)
    (access? : StoreOperation → Option (EntityAccess Status Origin Content))
    (created? : StoreOperation → Reply → Option (String × Chronicle Status Origin Content))
    (before : Tables) (moments : List Moment) (moment : Moment) : Prop where
  reply : ∀ a, access? moment.op = some a →
    moment.reply = a.replyTo (((c.register before).chronicle? a.id).map fun x =>
      x.afterAll (accessesTo access? moments a.id))
  unseen : ∀ earlier ∈ moments, ∀ id x, created? earlier.op earlier.reply = some (id, x) →
    ∀ a, access? moment.op = some a → a.id = id → moment.reply = a.unknown

/-- The reply to an access shows what the tables hold of what the cache knows. -/
theorem Catalogue.Holds.shows {Status Origin Content : Type} {c : Catalogue Status Origin Content}
    {access? : StoreOperation → Option (EntityAccess Status Origin Content)}
    {created? : StoreOperation → Reply → Option (String × Chronicle Status Origin Content)}
    {before : Tables} {moments : List Moment} {view : Market} {moment : Moment}
    (h : c.Holds access? created? before moments view.tables)
    (hknows : ∀ id, (c.cache view.caches).knows id = ((c.register before).chronicle? id).isSome)
    (hreply : ∀ a, access? moment.op = some a →
      moment.reply = a.replyTo (c.known? view a.id)) :
    c.Shows access? created? before moments moment := by
  have hknown (id : String) : c.known? view id = ((c.register before).chronicle? id).map fun x =>
      x.afterAll (accessesTo access? moments id) := by
    unfold known?
    rw [hknows]
    cases hbefore : (c.register before).chronicle? id with
    | none => rfl
    | some x => exact (if_pos rfl).trans (h.stored id x hbefore)
  refine ⟨fun a ha => (hreply a ha).trans (congrArg _ (hknown a.id)), ?_⟩
  rintro earlier hearlier id x hx a ha rfl
  rw [hreply a ha, hknown, (h.created earlier hearlier a.id x hx).1]
  rfl

namespace Session

/-- In a transaction each reply about an entity that was stored before shows all that the
transaction has done to it since, and each listing shows all that is stored by now. But what the
transaction creates is refused as unknown, although its tables hold it. -/
theorem transactions_show_stored_entities (stage : Stage) (decisionLimit : Option UInt64)
    (steps : List Step) (hsteps : ∀ step ∈ steps, step.learns = false) {α : Type} (work : Work α) :
    let m := ((fresh stage decisionLimit).after steps).market
    (∀ before moment rest, work.moments m.opened = before ++ moment :: rest →
      tenders.Shows StoreOperation.tenderAccess? (StoreOperation.newTender? m) m.tables before
          moment ∧
        bids.Shows StoreOperation.bidAccess? (StoreOperation.newBid? m) m.tables before moment ∧
        (moment.op.lists = true → moment.reply =
          ({ m with tables := m.tables.afterMoments before } : Market).answer moment.op.perform) ∧
        tenders.Holds StoreOperation.tenderAccess? (StoreOperation.newTender? m) m.tables before
          (m.tables.afterMoments before) ∧
        bids.Holds StoreOperation.bidAccess? (StoreOperation.newBid? m) m.tables before
          (m.tables.afterMoments before)) ∧
      tenders.Holds StoreOperation.tenderAccess? (StoreOperation.newTender? m) m.tables
        (work.moments m.opened) (work.run m.opened).2.tables ∧
      bids.Holds StoreOperation.bidAccess? (StoreOperation.newBid? m) m.tables
        (work.moments m.opened) (work.run m.opened).2.tables := by
  intro m
  have hm : m.Faithful := faithful_after (faithful_fresh stage decisionLimit) hsteps
  have hend : m.Views (work.moments m.opened) (work.run m.opened).2 := hm.views_opened.run hm
  refine ⟨fun before moment rest hmoments => ?_, hend.tendersHeld, hend.bidsHeld⟩
  obtain ⟨view, hview, htables, hreply⟩ := hm.views_opened.exists_of_moments hm hmoments
  have hfound : view.tables = m.tables.afterMoments before := htables
  refine ⟨?_, ?_, fun hlists => ?_, hfound ▸ hview.tendersHeld, hfound ▸ hview.bidsHeld⟩
  · refine hview.tendersHeld.shows (hview.knows_tender hm) fun a ha => hreply.trans ?_
    exact (StoreOperation.accesses_tenders ha).answer_eq (hview.honest_tenders hm)
  · refine hview.bidsHeld.shows (hview.knows_bid hm) fun a ha => hreply.trans ?_
    exact (StoreOperation.accesses_bids ha).answer_eq (hview.honest_bids hm)
  · have husers : view.caches.users.entries = m.caches.users.entries :=
      (congrArg (fun caches => caches.users.entries) hview.caches :)
    exact hreply.trans (Market.answer_of_lists hlists hfound husers)

/-- Creates a tender, edits another one, and asks for both. -/
def revisingWork : Work Unit :=
  .offers (some "v") <|
    .performs (.insertTender "o" "ann" ⟨"bridge", "", .construction⟩) fun _ =>
      .performs (.onTenders (.edit "t" ⟨"road", "wide", .construction⟩)) fun _ =>
        .performs (.onTenders (.get "t")) fun _ =>
          .performs (.onTenders (.get "v")) fun _ => .ends { ending := .returns (.ok ()) }

/-- The edited tender is found with its new content, the created one is not found. -/
theorem transactions_show_stored_entities_revising :
    let m := ((fresh .assembled none).after biddingRun).market
    (∀ step ∈ biddingRun, step.learns = false) ∧
      ∃ create edit known unknown, revisingWork.moments m.opened = [create, edit, known, unknown] ∧
        known.reply = .ok (.tender
          { id := "t", status := .published, origin := ⟨"o", "u"⟩, version := 2,
            createdAt := Instant.initial, content := ⟨"road", "wide", .construction⟩ }) ∧
        unknown.reply = .error (.notFound .tender "v") := by
  intro m
  have hlearns : ∀ step ∈ biddingRun, step.learns = false := by decide
  refine ⟨hlearns, _, _, _, _, rfl, ?_, ?_⟩
  · obtain ⟨hshows, _⟩ := transactions_show_stored_entities .assembled none biddingRun hlearns
      revisingWork
    obtain ⟨htenders, _⟩ := hshows [_, _] _ _ rfl
    exact (htenders.reply _ rfl).trans (by decide)
  · obtain ⟨hshows, _⟩ := transactions_show_stored_entities .assembled none biddingRun hlearns
      revisingWork
    obtain ⟨htenders, _⟩ := hshows [_, _, _] _ _ rfl
    exact htenders.unseen _ List.mem_cons_self "v" _ rfl _ rfl rfl

/-- A transaction does not show what it has made of a tender that it has created itself. -/
theorem creations_not_found_before_commit :
    ¬ ∀ (stage : Stage) (decisionLimit : Option UInt64) (steps : List Step),
      (∀ step ∈ steps, step.learns = false) → ∀ work : Work Unit,
      let m := ((fresh stage decisionLimit).after steps).market
      ∀ before earlier between moment rest,
        work.moments m.opened = before ++ earlier :: between ++ moment :: rest →
        ∀ id x, earlier.op.newTender? m earlier.reply = some (id, x) →
          ∀ a, moment.op.tenderAccess? = some a → a.id = id →
            moment.reply = a.replyTo (some
              (x.afterAll (accessesTo StoreOperation.tenderAccess? between id))) := by
  intro h
  have hfound := h .assembled none biddingRun (by decide) revisingWork [] _ [_, _] _ _ rfl "v" _ rfl
    _ rfl rfl
  exact absurd hfound (by decide)

end Session

end Procurement

import Procurement.Proofs.Integrity
import Procurement.Proofs.Shown

/-!
# Listings

A listing is made of the rows of a register, each joined with the content that it points at.
In a dense register no row is lost or doubled by the join, so a listing holds each entity that
it admits once, as the entity is read by its identifier. It is sorted by name, and where names
are the same by identifier; since no two identifiers are the same the order is strict.
-/

namespace Procurement

variable {Status Origin Content : Type}

/-! ## The order of listings -/

/-- What is sorted by one text, and by another where the first is the same, is strictly sorted if no
two have the second text in common. -/
theorem pairwise_mergeSort_of_texts {α : Type} (first second : α → String)
    {precedes : α → α → Bool} (h : ∀ a b, precedes a b = true ↔
      first a < first b ∨ first a = first b ∧ second a ≤ second b) {rows : List α}
    (hrows : ((rows.mergeSort precedes).map second).Nodup) :
    (rows.mergeSort precedes).Pairwise fun a b =>
      first a < first b ∨ first a = first b ∧ second a < second b := by
  have htrans (a b d : α) (hab : precedes a b = true) (hbd : precedes b d = true) :
      precedes a d = true := by
    rw [h] at hab hbd ⊢
    rcases hab with hab | ⟨hab, hsecond⟩
    · left
      rcases hbd with hbd | ⟨hbd, _⟩
      · exact String.lt_trans hab hbd
      · exact hbd ▸ hab
    · rcases hbd with hbd | ⟨hbd, hsecond'⟩
      · left
        exact hab ▸ hbd
      · right
        exact ⟨hab.trans hbd, String.le_trans hsecond hsecond'⟩
  have htotal (a b : α) : (precedes a b || precedes b a) = true := by
    rw [Bool.or_eq_true, h, h]
    by_cases hlt : first a < first b
    · exact Or.inl (Or.inl hlt)
    · by_cases hgt : first b < first a
      · exact Or.inr (Or.inl hgt)
      · have hsame : first a = first b :=
          String.le_antisymm (String.not_lt.mp hgt) (String.not_lt.mp hlt)
        rcases String.le_total (second a) (second b) with hle | hle
        · exact Or.inl (Or.inr ⟨hsame, hle⟩)
        · exact Or.inr (Or.inr ⟨hsame.symm, hle⟩)
  refine (List.pairwise_mergeSort htrans htotal rows).imp₂ ?_ (List.pairwise_map.mp hrows)
  intro a b hprecedes hne
  rcases (h a b).mp hprecedes with hlt | ⟨hsame, hle⟩
  · exact Or.inl hlt
  · have hlt : second a < second b := by
      by_contra hge
      exact hne (String.le_antisymm hle (String.not_lt.mp hge))
    exact Or.inr ⟨hsame, hlt⟩

/-- Whether one entity strictly precedes another by name, or by identifier under the same name. -/
def Entity.Before [Named Content] (a b : Entity Status Origin Content) : Prop :=
  Named.name a.content < Named.name b.content ∨
    Named.name a.content = Named.name b.content ∧ a.id < b.id

namespace Register

/-- Listings are sorted by name, and by identifier under the same name. -/
theorem precedes_iff [Named Content] {a b : Entity Status Origin Content} :
    precedes a b = true ↔ Named.name a.content < Named.name b.content ∨
      Named.name a.content = Named.name b.content ∧ a.id ≤ b.id := by
  unfold precedes
  rw [Bool.or_eq_true, decide_eq_true_eq, Bool.and_eq_true, beq_iff_eq, Bool.not_eq_true',
    decide_eq_false_iff_not, String.not_lt]

/-! ## The entities of a dense register -/

variable {r : Register Status Origin Content}

/-- An entity has the identifier of its row. -/
theorem id_of_join? {row : Row Status Origin} {x : Entity Status Origin Content}
    (h : r.join? row = some x) : x.id = row.id :=
  congrArg Birth.id (birth_of_join? h)

section Dense

variable (hr : r.Dense)

include hr

/-- The entity made from a row is the one that is found under the row's identifier. -/
theorem Dense.join?_of_mem {row : Row Status Origin} (hrow : row ∈ r.rows) :
    r.join? row = r.find? row.id := by
  rw [find?, hr.row?_of_mem hrow, Option.bind_some]

/-- The entities are those that are found under their identifiers. -/
theorem Dense.mem_entities_iff {x : Entity Status Origin Content} :
    x ∈ r.entities ↔ r.find? x.id = some x := by
  constructor
  · intro hx
    obtain ⟨row, hrow, hjoin⟩ := List.mem_filterMap.mp hx
    rw [id_of_join? hjoin, ← hr.join?_of_mem hrow]
    exact hjoin
  · intro hx
    obtain ⟨row, hrow, hjoin⟩ := Option.bind_eq_some_iff.mp hx
    exact List.mem_filterMap.mpr ⟨row, mem_of_row? hrow, hjoin⟩

/-- No row is lost or doubled when it is joined with its content. -/
theorem Dense.map_id_entities : r.entities.map Entity.id = r.ids := by
  have hjoined : ∀ row ∈ r.rows, (r.join? row).map Entity.id = some row.id := by
    intro row hrow
    have hfound : (r.find? row.id).isSome := by
      rw [hr.isSome_find?, hr.row?_of_mem hrow]
      rfl
    obtain ⟨x, hx⟩ := Option.isSome_iff_exists.mp hfound
    rw [← hr.join?_of_mem hrow] at hx
    rw [hx, Option.map_some, id_of_join? hx]
  rw [entities, List.map_filterMap, List.filterMap_congr hjoined]
  exact congrFun List.filterMap_eq_map r.rows

variable [Named Content] (admits : Entity Status Origin Content → Bool)

omit hr in
/-- A listing has the entities that it admits. -/
theorem mem_listing_iff {x : Entity Status Origin Content} :
    x ∈ r.listing admits ↔ x ∈ r.entities ∧ admits x = true := by
  rw [listing, List.mem_mergeSort, List.mem_filter]

/-- No entity is listed twice. -/
theorem Dense.nodup_listing : ((r.listing admits).map Entity.id).Nodup := by
  have hperm : ((r.listing admits).map Entity.id).Perm
      ((r.entities.filter admits).map Entity.id) :=
    (List.mergeSort_perm _ _).map Entity.id
  have hsublist : ((r.entities.filter admits).map Entity.id).Sublist r.ids := by
    rw [← hr.map_id_entities]
    exact List.filter_sublist.map Entity.id
  exact hperm.nodup_iff.mpr (hr.unique.sublist hsublist)

/-- A listing is strictly sorted. -/
theorem Dense.pairwise_listing : (r.listing admits).Pairwise Entity.Before :=
  pairwise_mergeSort_of_texts (fun x : Entity Status Origin Content => Named.name x.content)
    Entity.id (fun _ _ => precedes_iff) (hr.nodup_listing admits)

end Dense

end Register

/-! ## What a listing shows -/

/-- A list of the entities in a register that are wanted: each of them once, in strict order, and
as it is answered when it is asked for by its identifier. -/
structure Register.Lists [Named Content] (r : Register Status Origin Content)
    (form : Entity Status Origin Content → Answer) (get : String → Reply)
    (wanted : Entity Status Origin Content → Prop) (listed : List (Entity Status Origin Content)) :
    Prop where
  ordered : listed.Pairwise Entity.Before
  once : (listed.map Entity.id).Nodup
  sound : ∀ x ∈ listed, get x.id = .ok (form x) ∧ wanted x
  complete : ∀ id ∈ r.ids, ∃ x, x.id = id ∧ get id = .ok (form x) ∧ (wanted x → x ∈ listed)

namespace Catalogue

open Market

variable [Named Content] {c : Catalogue Status Origin Content} {m : Market}

/-- If the cache knows what is stored, a listing shows the entities that its filter admits. -/
theorem Lawful.lists_listing (hc : c.Lawful) (hdense : (c.register m.tables).Dense)
    (hagree : (c.cache m.caches).ids = (c.register m.tables).ids)
    (form : Entity Status Origin Content → Answer) {get : String → Reply}
    (hget : ∀ id, get id = (m.answer (c.get id)).map form)
    {admits : Entity Status Origin Content → Bool} {wanted : Entity Status Origin Content → Prop}
    (hadmits : ∀ x ∈ (c.register m.tables).entities, admits x = true ↔ wanted x) :
    (c.register m.tables).Lists form get wanted ((c.register m.tables).listing admits) := by
  have hshown {x : Entity Status Origin Content} (hx : x ∈ (c.register m.tables).entities)
      (hid : x.id ∈ (c.register m.tables).ids) : get x.id = .ok (form x) := by
    have hknows : (c.cache m.caches).knows x.id = true := by
      rw [ExistenceCache.knows_iff, hagree]
      exact hid
    rw [hget, hc.answer_get, if_pos hknows, hdense.mem_entities_iff.mp hx]
    rfl
  refine ⟨hdense.pairwise_listing admits, hdense.nodup_listing admits, ?_, ?_⟩
  · intro x hx
    obtain ⟨hentity, hadmitted⟩ := (Register.mem_listing_iff admits).mp hx
    have hid : x.id ∈ (c.register m.tables).ids := by
      rw [← hdense.map_id_entities]
      exact List.mem_map_of_mem hentity
    exact ⟨hshown hentity hid, (hadmits x hentity).mp hadmitted⟩
  · intro id hid
    have hlisted := hid
    rw [← hdense.map_id_entities] at hlisted
    obtain ⟨x, hentity, rfl⟩ := List.mem_map.mp hlisted
    refine ⟨x, rfl, hshown hentity hid, ?_⟩
    intro hwanted
    exact (Register.mem_listing_iff admits).mpr ⟨hentity, (hadmits x hentity).mpr hwanted⟩

end Catalogue

/-! ## Users and organizations apart -/

namespace Tables

/-- No organization has the identifier of a user. -/
def IdsApart (t : Tables) : Prop :=
  ∀ user ∈ t.users, ∀ organization ∈ t.organizations, organization.id ≠ user.id

/-- No organization that made a bid has the identifier of a user. -/
def AuthorsApart (t : Tables) : Prop :=
  ∀ user ∈ t.users, ∀ bid ∈ t.bids.rows, bid.origin.author.type = .organization →
    bid.origin.author.id ≠ user.id

/-- No user is stored under the identifier of an organization. -/
theorem IdsApart.not_hasUser {t : Tables} (h : t.IdsApart) {id : String}
    (horganization : t.hasOrganization id = true) : ¬ t.hasUser id = true := by
  intro huser
  obtain ⟨organization, hstored, hid⟩ := List.any_eq_true.mp horganization
  obtain ⟨user, hstored', hid'⟩ := List.any_eq_true.mp huser
  have hsame : organization.id = user.id := (beq_iff_eq.mp hid).trans (beq_iff_eq.mp hid').symm
  exact h user hstored' organization hstored hsame

/-- Organizations that made a bid are stored. -/
theorem Coherent.authorsApart {t : Tables} (ht : t.Coherent) (h : t.IdsApart) :
    t.AuthorsApart := by
  intro user huser bid hbid htype hid
  have hauthor := (ht.bid bid hbid).author
  unfold hasAuthor at hauthor
  rw [htype] at hauthor
  exact h.not_hasUser hauthor (List.any_eq_true.mpr ⟨user, huser, beq_iff_eq.mpr hid.symm⟩)

end Tables

/-! ## Requests for listings -/

/-- A page shows entries of a listing in the order of the listing. -/
theorem Page.select_sublist {α : Type} (page : Page) (rows : List α) :
    (page.select rows).Sublist rows := by
  unfold select
  split
  · exact List.drop_sublist _ _
  · exact (List.take_sublist _ _).trans (List.drop_sublist _ _)

namespace Market

variable {m : Market}

/-- A list of everything that a filter admits is the listing. -/
theorem answer_list_all [Named Content] (c : Catalogue Status Origin Content)
    (admits : Entity Status Origin Content → Bool) :
    m.answer (c.list admits Page.all) = .ok ((c.register m.tables).listing admits) := rfl

/-- The bids on a tender are shown to those who pass the check as they are stored. -/
theorem answer_bidsWithTender_of_answer_bidsOn {actor tenderId : String} {page : Page}
    {listed : List Bid} (h : m.answer (bidsOn actor tenderId page) = .ok listed) :
    m.answer (bidsWithTender tenderId page) = .ok listed := by
  obtain ⟨_, _, hlisted⟩ := answer_bind_eq_ok_iff.mp h
  have hread := (onlyReads_requireListingMember actor tenderId).after_uncounted m
  exact ((onlyReads_bidsWithTender tenderId page).answer_congr hread).symm.trans hlisted

section Faithful

variable (hm : m.Faithful)

include hm

/-- Tenders are listed as they are stored and answered. -/
theorem Faithful.lists_tenders {admits : Tender → Bool} {wanted : Tender → Prop}
    (hadmits : ∀ x ∈ m.tables.tenders.entities, admits x = true ↔ wanted x)
    {listed : List Tender} (h : m.answer (tenders.list admits Page.all) = .ok listed) :
    m.tables.tenders.Lists .tender (fun id => m.answer (Operation.getTender id).perform) wanted
      listed := by
  rw [answer_list_all] at h
  obtain rfl := Except.ok.inj h
  exact tenders_lawful.lists_listing hm.tenders hm.mirror.tenders .tender
    (fun _ => answer_map _ _ _) hadmits

/-- Bids are listed as they are stored and answered. -/
theorem Faithful.lists_bids {admits : Bid → Bool} {wanted : Bid → Prop}
    (hadmits : ∀ x ∈ m.tables.bids.entities, admits x = true ↔ wanted x)
    {listed : List Bid} (h : m.answer (bids.list admits Page.all) = .ok listed) :
    m.tables.bids.Lists .bid (fun id => m.answer (Operation.getBid id).perform) wanted listed := by
  rw [answer_list_all] at h
  obtain rfl := Except.ok.inj h
  exact bids_lawful.lists_listing hm.bids hm.mirror.bids .bid (fun _ => answer_map _ _ _) hadmits

/-- The published tenders are listed that ask for one of the services, or all if none is given. -/
theorem Faithful.lists_publishedTenders {types : List ServiceType} {listed : List Tender}
    (h : m.answer (publishedTenders types Page.all) = .ok listed) :
    m.tables.tenders.Lists .tender (fun id => m.answer (Operation.getTender id).perform)
      (fun x => x.status = .published ∧ (types = [] ∨ x.content.serviceType ∈ types)) listed := by
  refine hm.lists_tenders ?_ h
  intro x _
  simp

/-- The tenders of a user are those that the user created. -/
theorem Faithful.lists_tendersOf {username : String} {listed : List Tender}
    (h : m.answer (tendersOf username Page.all) = .ok listed) :
    m.tables.tenders.Lists .tender (fun id => m.answer (Operation.getTender id).perform)
      (fun x => m.tables.Named username x.origin.creatorId) listed := by
  obtain ⟨userId, m', huserId, hread, hlisted⟩ :=
    (onlyReads_userId username).exists_of_answer_bind rfl h
  rw [(Catalogue.onlyReads_list _ _).answer_congr hread] at hlisted
  rw [answer_userId] at huserId
  have hvalue := found_eq_ok_iff.mp huserId
  refine hm.lists_tenders ?_ hlisted
  intro x _
  rw [beq_iff_eq, hm.keyed.named_iff (hm.named_of_value? hvalue)]

/-- The bids on a tender are those that are past their draft. -/
theorem Faithful.lists_bidsWithTender {tenderId : String} {listed : List Bid}
    (h : m.answer (bidsWithTender tenderId Page.all) = .ok listed) :
    m.tables.bids.Lists .bid (fun id => m.answer (Operation.getBid id).perform)
      (fun x => x.origin.tenderId = tenderId ∧ x.status ≠ .created) listed := by
  refine hm.lists_bids ?_ h
  intro x _
  simp

/-- The bids with an author are those whose author has the identifier, of whatever type. -/
theorem Faithful.lists_bidsWithAuthor {authorId : String} {listed : List Bid}
    (h : m.answer (bidsWithAuthor authorId Page.all) = .ok listed) :
    m.tables.bids.Lists .bid (fun id => m.answer (Operation.getBid id).perform)
      (fun x => x.origin.author.id = authorId) listed := by
  refine hm.lists_bids ?_ h
  intro x _
  rw [beq_iff_eq]

/-- The bids of a user are those that the user made, and none of an organization, unless one has
the identifier of a user. -/
theorem Faithful.lists_bidsOf (hapart : m.tables.AuthorsApart) {username : String}
    {listed : List Bid} (h : m.answer (bidsOf username Page.all) = .ok listed) :
    m.tables.bids.Lists .bid (fun id => m.answer (Operation.getBid id).perform)
      (fun x => x.origin.author.type = .user ∧ m.tables.Named username x.origin.author.id)
      listed := by
  obtain ⟨userId, m', huserId, hread, hlisted⟩ :=
    (onlyReads_userId username).exists_of_answer_bind rfl h
  rw [(onlyReads_bidsWithAuthor userId Page.all).answer_congr hread] at hlisted
  rw [answer_userId] at huserId
  have hvalue := found_eq_ok_iff.mp huserId
  refine hm.lists_bids ?_ hlisted
  intro x hx
  obtain ⟨row, hrow, hjoin⟩ := List.mem_filterMap.mp hx
  rw [beq_iff_eq, hm.keyed.named_iff (hm.named_of_value? hvalue)]
  constructor
  · intro hid
    refine ⟨?_, hid⟩
    obtain ⟨user, huser, _, rfl⟩ := hm.named_of_value? hvalue
    have hborn := Register.birth_of_join? hjoin
    have horigin : row.origin = x.origin := (congrArg Birth.origin hborn).symm
    cases htype : x.origin.author.type with
    | user => rfl
    | organization => exact absurd hid (horigin ▸ hapart user huser row hrow (horigin ▸ htype))
  · intro hwanted
    exact hwanted.2

end Faithful

/-- Only which services are asked for counts, not how often or in which order. -/
theorem answer_publishedTenders_congr {types types' : List ServiceType}
    (h : ∀ type, type ∈ types ↔ type ∈ types') (page : Page) :
    m.answer (publishedTenders types page) = m.answer (publishedTenders types' page) := by
  have hcontains (type : ServiceType) : types.contains type = types'.contains type := by
    rw [Bool.eq_iff_iff, List.contains_iff_mem, List.contains_iff_mem]
    exact h type
  have hempty : types.isEmpty = types'.isEmpty := by
    rw [Bool.eq_iff_iff, List.isEmpty_iff, List.isEmpty_iff, List.eq_nil_iff_forall_not_mem,
      List.eq_nil_iff_forall_not_mem]
    simp only [h]
  unfold publishedTenders
  simp only [hcontains, hempty]

end Market

namespace Session

/-- In every run, an unpaged listing that is not refused shows exactly the entities it is meant
for: tenders that are published and ask for one of the services given, or for any if none is given;
tenders that a user created; bids on a tender that are past their draft; bids with an author of the
identifier given; and bids that a user made, which bids of an organization are not taken for unless
it has the identifier of a user. -/
theorem listings_are_complete (stage : Stage) (decisionLimit : Option UInt64)
    (steps : List Step) (hsteps : ∀ step ∈ steps, step.learns = false)
    (offered : Option String) :
    let m := ((fresh stage decisionLimit).after steps).market
    let reply request := (m.step (.request offered request)).1
    let getTender id := reply (.operation (.getTender id))
    let getBid id := reply (.operation (.getBid id))
    (∀ types listed, ∀ request ∈ [Request.operation (.publishedTenders types Page.all),
        .store (.publishedTenders types Page.all)],
      reply request = .ok (.tenders listed) → m.tables.tenders.Lists .tender getTender (fun x =>
        x.status = .published ∧ (types = [] ∨ x.content.serviceType ∈ types)) listed) ∧
    (∀ types types' page, (∀ type, type ∈ types ↔ type ∈ types') →
      reply (.operation (.publishedTenders types page)) =
        reply (.operation (.publishedTenders types' page))) ∧
    (∀ username listed, ∀ request ∈ [Request.operation (.tendersOf username Page.all),
        .store (.tendersOf username Page.all)],
      reply request = .ok (.tenders listed) → m.tables.tenders.Lists .tender getTender (fun x =>
        m.tables.Named username x.origin.creatorId) listed) ∧
    (∀ actor tenderId listed, ∀ request ∈ [Request.operation (.bidsOn actor tenderId Page.all),
        .store (.bidsWithTender tenderId Page.all)],
      reply request = .ok (.bids listed) → m.tables.bids.Lists .bid getBid (fun x =>
        x.origin.tenderId = tenderId ∧ x.status ≠ .created) listed) ∧
    (∀ authorId listed, reply (.store (.bidsWithAuthor authorId Page.all)) = .ok (.bids listed) →
      m.tables.bids.Lists .bid getBid (fun x => x.origin.author.id = authorId) listed) ∧
    (m.tables.AuthorsApart → ∀ username listed,
      reply (.operation (.bidsOf username Page.all)) = .ok (.bids listed) →
        m.tables.bids.Lists .bid getBid (fun x => x.origin.author.type = .user ∧
          m.tables.Named username x.origin.author.id) listed) ∧
    ((∀ step ∈ steps, step.isChecked = true) → m.tables.IdsApart → m.tables.AuthorsApart) := by
  intro m reply getTender getBid
  have hfresh := faithful_fresh stage decisionLimit
  have hm : m.Faithful := faithful_after hfresh hsteps
  have hoffered : (m.offer offered).Faithful := faithful_offer hm offered
  have htenders {work : MarketM (List Tender)} {listed : List Tender}
      (h : (m.offer offered).answer (Answer.tenders <$> work) = .ok (.tenders listed)) :
      (m.offer offered).answer work = .ok listed :=
    (Market.answer_injective_map_iff fun _ _ => Answer.tenders.inj).mp h
  have hbids {work : MarketM (List Bid)} {listed : List Bid}
      (h : (m.offer offered).answer (Answer.bids <$> work) = .ok (.bids listed)) :
      (m.offer offered).answer work = .ok listed :=
    (Market.answer_injective_map_iff fun _ _ => Answer.bids.inj).mp h
  refine ⟨?_, ?_, ?_, ?_, ?_, ?_, ?_⟩
  · intro types listed request hrequest h
    have hanswer : (m.offer offered).answer
        (Answer.tenders <$> Market.publishedTenders types Page.all) = .ok (.tenders listed) := by
      rcases List.mem_pair.mp hrequest with rfl | rfl <;> exact h
    exact hoffered.lists_publishedTenders (htenders hanswer)
  · intro types types' page hsame
    have hanswer := Market.answer_publishedTenders_congr hsame page (m := m.offer offered)
    exact (Market.answer_map _ _ _).trans
      ((congrArg (Except.map Answer.tenders) hanswer).trans (Market.answer_map _ _ _).symm)
  · intro username listed request hrequest h
    have hanswer : (m.offer offered).answer
        (Answer.tenders <$> Market.tendersOf username Page.all) = .ok (.tenders listed) := by
      rcases List.mem_pair.mp hrequest with rfl | rfl <;> exact h
    exact hoffered.lists_tendersOf (htenders hanswer)
  · intro actor tenderId listed request hrequest h
    have hanswer : (m.offer offered).answer (Market.bidsWithTender tenderId Page.all) =
        .ok listed := by
      rcases List.mem_pair.mp hrequest with rfl | rfl
      · exact Market.answer_bidsWithTender_of_answer_bidsOn (hbids h)
      · exact hbids h
    exact hoffered.lists_bidsWithTender hanswer
  · intro authorId listed h
    exact hoffered.lists_bidsWithAuthor (hbids h)
  · intro hapart username listed h
    exact hoffered.lists_bidsOf hapart (hbids h)
  · intro hchecked hapart
    exact (coherent_after_of_isChecked hfresh Tables.coherent_empty hchecked).authorsApart hapart

/-- The bid that a user made is listed with the bids of the user. -/
theorem listings_are_complete_bidding :
    let m := ((fresh .assembled none).after biddingRun).market
    let bid : Bid := ⟨"b", .published, ⟨"t", ⟨.user, "u"⟩⟩, 1, Instant.initial, ⟨"gravel", ""⟩⟩
    (∀ step ∈ biddingRun, step.learns = false) ∧ (∀ step ∈ biddingRun, step.isChecked = true) ∧
      m.tables.IdsApart ∧ ∃ listed,
        (m.step (.request none (.operation (.bidsOf "ann" Page.all)))).1 = .ok (.bids listed) ∧
          bid ∈ listed ∧ listed.Pairwise Entity.Before := by
  intro m bid
  have hlearns : ∀ step ∈ biddingRun, step.learns = false := by decide
  have hchecked : ∀ step ∈ biddingRun, step.isChecked = true := by decide
  have hapart : m.tables.IdsApart := by
    unfold Tables.IdsApart
    decide
  obtain ⟨_, _, _, _, _, hbidsOf, hauthors⟩ :=
    listings_are_complete .assembled none biddingRun hlearns none
  have hreply : (m.step (.request none (.operation (.bidsOf "ann" Page.all)))).1 =
      .ok (.bids (m.tables.bids.listing fun bid => bid.origin.author.id == "u")) := rfl
  have hlists := hbidsOf (hauthors hchecked hapart) "ann" _ hreply
  have hget : (m.step (.request none (.operation (.getBid "b")))).1 = .ok (.bid bid) := by decide
  have hnamed : m.tables.Named "ann" "u" := by
    unfold Tables.Named
    decide
  obtain ⟨shown, _, hshown, hlisted⟩ := hlists.complete "b" (by decide)
  obtain rfl := Answer.bid.inj (Except.ok.inj (hget.symm.trans hshown))
  exact ⟨hlearns, hchecked, hapart, _, hreply, hlisted ⟨rfl, hnamed⟩, hlists.ordered⟩

end Session

end Procurement

import Procurement.Proofs.Objections

/-!
# Drafts of bids

The bids on a tender are listed without the drafts. This file compares states of the tables that
differ in their drafts in any way. The listings have the same members, and since they are strictly
sorted they are the same lists; who may see them does not depend on bids at all. So no page and no
refusal tells anything of the drafts, and work on a draft does not show.
-/

namespace Procurement

/-! ## Listings that have the same members -/

section Listing

variable {Status Origin Content : Type} [Named Content]

/-- Of two entities in the order of listings only one comes first. -/
theorem Entity.Before.asymm {a b : Entity Status Origin Content} (hab : a.Before b) :
    ¬ b.Before a := by
  intro hba
  rcases hab with hab | ⟨hname, hab⟩
  · rcases hba with hba | ⟨hname, _⟩
    · exact String.lt_asymm hab hba
    · exact String.lt_irrefl _ (hname ▸ hab)
  · rcases hba with hba | ⟨_, hba⟩
    · exact String.lt_irrefl _ (hname ▸ hba)
    · exact String.lt_asymm hab hba

namespace Register.Dense

variable {r r' : Register Status Origin Content} {admits : Entity Status Origin Content → Bool}

/-- An entity is listed just if its chronicle says what it shows, and the listing admits it. -/
theorem mem_listing_iff_chronicle? (hr : r.Dense) {x : Entity Status Origin Content} :
    x ∈ r.listing admits ↔
      (∃ y, r.chronicle? x.id = some y ∧ y.entity x.id = x) ∧ admits x = true := by
  rw [mem_listing_iff, hr.mem_entities_iff]
  refine and_congr_left fun _ => ?_
  constructor
  · intro hfound
    obtain ⟨row, hrow, _⟩ := Option.bind_eq_some_iff.mp hfound
    obtain ⟨y, hy, _⟩ := hr.exists_chronicle? hrow
    exact ⟨y, hy, Option.some.inj ((hr.find?_of_chronicle? hy).symm.trans hfound)⟩
  · rintro ⟨y, hy, hentity⟩
    rw [hr.find?_of_chronicle? hy, hentity]

/-- A listing depends on nothing but the entities that it admits. -/
theorem listing_congr (hr : r.Dense) (hr' : r'.Dense)
    (h : ∀ id y, admits (y.entity id) = true →
      (r.chronicle? id = some y ↔ r'.chronicle? id = some y)) :
    r.listing admits = r'.listing admits := by
  have hmem (x : Entity Status Origin Content) :
      x ∈ r.listing admits ↔ x ∈ r'.listing admits := by
    rw [hr.mem_listing_iff_chronicle?, hr'.mem_listing_iff_chronicle?]
    refine and_congr_left fun hadmitted => exists_congr fun y => and_congr_left fun hentity => ?_
    exact h x.id y (hentity ▸ hadmitted)
  have hperm : (r.listing admits).Perm (r'.listing admits) :=
    (List.perm_ext_iff_of_nodup (hr.nodup_listing admits).of_map
      (hr'.nodup_listing admits).of_map).mpr hmem
  exact hperm.eq_of_pairwise (fun _ _ _ _ hab hba => absurd hba hab.asymm)
    (hr.pairwise_listing admits) (hr'.pairwise_listing admits)

end Register.Dense

end Listing

/-! ## Agreement up to drafts -/

/-- Two states of the tables have the same users, responsibilities and tenders, and the same bids
that are past their draft, each with all that it said before. What drafts there are may differ in
any way, and so may the order in which things are stored. -/
structure Tables.AgreeButDrafts (t t' : Tables) : Prop where
  users : ∀ user, user ∈ t.users ↔ user ∈ t'.users
  links : ∀ organizationId userId,
    t.isResponsible organizationId userId = t'.isResponsible organizationId userId
  tenders : ∀ id, t.tenders.chronicle? id = t'.tenders.chronicle? id
  bids : ∀ id x, x.status ≠ .created →
    (t.bids.chronicle? id = some x ↔ t'.bids.chronicle? id = some x)

namespace Tables.AgreeButDrafts

variable {t t' : Tables} (h : t.AgreeButDrafts t')

include h

/-- Whether someone acts for an organization does not depend on drafts. -/
theorem actorObjection?_eq (actor organizationId : String) :
    t.actorObjection? actor organizationId = t'.actorObjection? actor organizationId := by
  have hactsFor : t.ActsFor actor organizationId ↔ t'.ActsFor actor organizationId := by
    unfold ActsFor
    simp only [h.users, h.links]
  unfold actorObjection?
  simp only [h.users, hactsFor]

/-- Who may act for a tender does not depend on drafts. -/
theorem memberObjection?_eq (ht : t.tenders.Dense) (ht' : t'.tenders.Dense)
    (actor tenderId : String) :
    t.memberObjection? actor tenderId = t'.memberObjection? actor tenderId := by
  have horigin : t.tenders.origin? tenderId = t'.tenders.origin? tenderId := by
    unfold Register.origin?
    rw [ht.row?_eq_map, ht'.row?_eq_map, h.tenders]
  unfold memberObjection?
  simp only [horigin, h.actorObjection?_eq]

/-- The bids on a tender that are past their draft do not depend on drafts. -/
theorem listing_eq (ht : t.bids.Dense) (ht' : t'.bids.Dense) (tenderId : String) :
    (t.bids.listing fun bid => bid.origin.tenderId == tenderId && bid.status != .created) =
      t'.bids.listing fun bid => bid.origin.tenderId == tenderId && bid.status != .created := by
  refine ht.listing_congr ht' fun id x hadmitted => h.bids id x ?_
  exact bne_iff_ne.mp (Bool.and_eq_true_iff.mp hadmitted).2

end Tables.AgreeButDrafts

/-- Faithful markets that agree but for drafts list the same bids on a tender. -/
theorem Market.Faithful.answer_bidsOn_eq {m m' : Market} (hm : m.Faithful) (hm' : m'.Faithful)
    (h : m.tables.AgreeButDrafts m'.tables) (actor tenderId : String) (page : Page) :
    m.answer (bidsOn actor tenderId page) = m'.answer (bidsOn actor tenderId page) := by
  have hrefusal : refusal? (m.answer (bidsOn actor tenderId page)) =
      refusal? (m'.answer (bidsOn actor tenderId page)) := by
    rw [hm.refusal?_bidsOn, hm'.refusal?_bidsOn,
      h.memberObjection?_eq hm.tenders hm'.tenders]
  cases hanswer : m.answer (bidsOn actor tenderId page) with
  | error refusal =>
    rw [hanswer, refusal?_error] at hrefusal
    exact (refusal?_eq_some_iff.mp hrefusal.symm).symm
  | ok listed =>
    rw [hanswer, refusal?_ok] at hrefusal
    obtain ⟨listed', hanswer'⟩ := refusal?_eq_none_iff.mp hrefusal.symm
    have hlisted := answer_bidsWithTender_of_answer_bidsOn hanswer
    have hlisted' := answer_bidsWithTender_of_answer_bidsOn hanswer'
    have hsame : m.answer (bidsWithTender tenderId page) =
        m'.answer (bidsWithTender tenderId page) :=
      congrArg (fun listing => Except.ok (page.select listing))
        (h.listing_eq hm.bids hm'.bids tenderId)
    rw [hanswer', ← hlisted, hsame, hlisted']

/-! ## Work on drafts -/

/-- Whether a change adds a draft, or a version to one. -/
def Register.Drafts (r : BidRegister) : Change BidStatus BidOrigin BidContent → Prop
  | .insert _ _ _ _ => True
  | .append id _ | .restore id _ => r.status? id = some .created
  | .setStatus _ _ => False

/-- Whether a request is to create a bid, or to edit a draft or roll one back. -/
def Request.Drafts (t : Tables) : Request → Prop
  | .operation (.createBid _ _ _) | .store (.insertBid _ _ _) => True
  | .operation (.editBid _ id _) | .operation (.rollbackBid _ id _)
  | .store (.onBids (.edit id _)) | .store (.onBids (.rollback id _)) =>
    t.bids.status? id = some .created
  | _ => False

/-- At the target of such a change there is nothing or a draft, before it and after it. -/
theorem Register.Dense.status?_of_drafts {r r' : BidRegister} (hr : r.Dense)
    {change : Change BidStatus BidOrigin BidContent} (hchange : r.change? .created change = some r')
    (hdrafts : r.Drafts change) :
    r.status? change.target ∈ [none, some .created] ∧ r'.status? change.target = some .created := by
  have hafter := hr.status?_of_change? hchange change.target
  cases change with
  | insert new origin createdAt content =>
    have hnone : r.status? new = none := congrArg (Option.map Row.status)
      (row?_eq_none_of_insert? hchange)
    rw [Change.statusAfter, Change.target, if_pos rfl] at hafter
    exact ⟨List.mem_pair.mpr (Or.inl hnone), hafter⟩
  | append id content | restore id version =>
    exact ⟨List.mem_pair.mpr (Or.inr hdrafts), hafter.trans hdrafts⟩
  | setStatus => exact hdrafts.elim

/-- A change to a draft keeps every bid that is past its draft. -/
theorem Register.Dense.chronicle?_iff_of_drafts {r r' : BidRegister} (hr : r.Dense)
    {change : Change BidStatus BidOrigin BidContent} (hchange : r.change? .created change = some r')
    (hdrafts : r.Drafts change) {id : String} {x : Chronicle BidStatus BidOrigin BidContent}
    (hx : x.status ≠ .created) : r.chronicle? id = some x ↔ r'.chronicle? id = some x := by
  by_cases htarget : change.target = id
  · subst htarget
    have hstatus {q : BidRegister} (hq : q.Dense) (hfound : q.chronicle? change.target = some x) :
        q.status? change.target = some x.status :=
      congrArg (Option.map Row.status) (hq.row?_of_chronicle? hfound)
    obtain ⟨hbefore, hafter⟩ := hr.status?_of_drafts hchange hdrafts
    refine iff_of_false ?_ ?_
    · intro hfound
      rw [hstatus hr hfound] at hbefore
      simp only [List.mem_cons, reduceCtorEq, Option.some.injEq, hx, List.not_mem_nil,
        or_self] at hbefore
    · intro hfound
      have hsame := (hstatus (hr.of_change? hchange) hfound).symm.trans hafter
      exact hx (Option.some.inj hsame)
  · rw [hr.chronicle?_of_change? hchange, Change.chronicleAfter_of_target_ne htarget]

/-- A request about a draft writes nothing but a change to it. -/
theorem Request.exists_writes_of_drafts {m : Market} {request : Request}
    (h : request.Drafts m.tables) :
    ∃ change, request.writes m = [.bid change] ∧ m.tables.bids.Drafts change := by
  unfold Drafts at h
  split at h <;> first | exact ⟨_, rfl, h⟩ | exact h.elim

namespace Session

/-- A step about a draft changes nothing but drafts. -/
theorem agreeButDrafts_step {s : Session} (hs : s.market.Sound) {request : Request}
    (h : request.Drafts s.market.tables) (offered : Option String) :
    s.market.tables.AgreeButDrafts (s.step (.request offered request)).2.market.tables := by
  obtain ⟨n, hn, htables, _⟩ := exists_writeAll? hs (.request offered request)
  rw [← htables]
  rcases s.writes_cases (.request offered request) with hnone | ⟨_, _, _, hstep, _, hwrites⟩
  · rw [hnone] at hn
    obtain rfl := Option.some.inj hn
    exact ⟨fun _ => Iff.rfl, fun _ _ => rfl, fun _ => rfl, fun _ _ _ => Iff.rfl⟩
  · obtain ⟨rfl, rfl⟩ := Step.request.inj hstep
    obtain ⟨change, hchange, hdrafts⟩ :=
      Request.exists_writes_of_drafts (m := s.market.offer offered) h
    rw [hwrites, hchange, Market.writeAll?_singleton] at hn
    obtain ⟨register, hregister, hafter⟩ :=
      Catalogue.exists_of_change? (Market.applyTo?_of_write? hn)
    rw [hafter]
    refine ⟨fun _ => Iff.rfl, fun _ _ => rfl, fun _ => rfl, fun id x hx => ?_⟩
    exact hs.bids.chronicle?_iff_of_drafts hregister hdrafts hx

/-- Two runs may end in states that differ in their drafts of bids alone; then every request for
the bids on a tender is answered the same in both, whoever asks and for whatever page. So no bid
that is created, and no edit or rollback of a draft, changes any such answer. -/
theorem drafts_stay_hidden (stage stage' : Stage) (decisionLimit decisionLimit' : Option UInt64)
    (steps steps' : List Step) (hsteps : ∀ step ∈ steps, step.learns = false)
    (hsteps' : ∀ step ∈ steps', step.learns = false) (offered offered' : Option String) :
    let s := (fresh stage decisionLimit).after steps
    let s' := (fresh stage' decisionLimit').after steps'
    let reply (s : Session) offered actor tenderId page :=
      (s.market.step (.request offered (.operation (.bidsOn actor tenderId page)))).1
    (s.market.tables.AgreeButDrafts s'.market.tables →
      ∀ actor tenderId page,
        reply s offered actor tenderId page = reply s' offered' actor tenderId page) ∧
    ∀ id request, request.Drafts s.market.tables → ∀ actor tenderId page,
      reply (s.step (.request id request)).2 offered actor tenderId page =
        reply s offered actor tenderId page := by
  intro s s' reply
  have hs : s.market.Faithful := faithful_after (faithful_fresh stage decisionLimit) hsteps
  have hs' : s'.market.Faithful := faithful_after (faithful_fresh stage' decisionLimit') hsteps'
  have hreply {s s' : Session} (hs : s.market.Faithful) (hs' : s'.market.Faithful)
      (h : s.market.tables.AgreeButDrafts s'.market.tables) (offered offered' : Option String)
      (actor tenderId : String) (page : Page) :
      reply s offered actor tenderId page = reply s' offered' actor tenderId page := by
    have hanswer := (faithful_offer hs offered).answer_bidsOn_eq (faithful_offer hs' offered') h
      actor tenderId page
    exact (Market.answer_map _ _ _).trans
      ((congrArg (Except.map Answer.bids) hanswer).trans (Market.answer_map _ _ _).symm)
  constructor
  · intro h
    exact hreply hs hs' h offered offered'
  · intro id request hdrafts actor tenderId page
    have hlearns : (Step.request id request).learns = false := by
      cases request with
      | learn => exact hdrafts.elim
      | _ => rfl
    exact (hreply hs (faithful_step hs hlearns) (agreeButDrafts_step hs.toSound hdrafts id)
      offered offered actor tenderId page).symm

/-- A run that ends with a draft between two bids that are listed. -/
def draftRun : List Step :=
  biddingRun ++
    [.request (some "d") (.operation (.createBid "t" ⟨.user, "u"⟩ ⟨"sand", ""⟩)),
      .request none (.operation (.editBid "ann" "d" ⟨"slate", "wet"⟩)),
      .request (some "c") (.store (.insertBid "t" ⟨.user, "u"⟩ ⟨"stone", ""⟩)),
      .request none (.operation (.setBidStatus "ann" "c" .published))]

/-- A run that ends with the same bids, but no draft. -/
def draftlessRun : List Step :=
  [.assemble] ++ biddingRun ++
    [.request (some "c") (.store (.insertBid "t" ⟨.user, "u"⟩ ⟨"stone", ""⟩)),
      .request none (.operation (.setBidStatus "ann" "c" .published))]

/-- Neither the draft nor an edit of it shows in the list of bids. -/
theorem drafts_stay_hidden_between :
    let s := (fresh .assembled none).after draftRun
    let s' := (fresh .migrated none).after draftlessRun
    let edit := Request.operation (.editBid "ann" "d" ⟨"silt", ""⟩)
    let reply (s : Session) (page : Page) :=
      (s.market.step (.request none (.operation (.bidsOn "ann" "t" page)))).1
    s.market.tables.bids.ids = ["b", "d", "c"] ∧ s'.market.tables.bids.ids = ["b", "c"] ∧
      (∀ page, reply s page = reply s' page) ∧ edit.Drafts s.market.tables ∧
      ∀ page, reply (s.step (.request none edit)).2 page = reply s page := by
  intro s s' edit reply
  have hs : s.market.Sound := sound_after (sound_fresh .assembled none) draftRun
  have hs' : s'.market.Sound := sound_after (sound_fresh .migrated none) draftlessRun
  have hagree : s.market.tables.AgreeButDrafts s'.market.tables := by
    have husers : s.market.tables.users = s'.market.tables.users := by decide
    have hlinks : s.market.tables.responsibilities = s'.market.tables.responsibilities := by decide
    have htenders : s.market.tables.tenders = s'.market.tables.tenders := by decide
    have hpublished : ∀ id ∈ ["b", "c"],
        s.market.tables.bids.chronicle? id = s'.market.tables.bids.chronicle? id := by decide
    have hdraft : (s.market.tables.bids.chronicle? "d").map Chronicle.status = some .created := by
      decide
    refine ⟨fun _ => by rw [husers], fun _ _ => ?_, fun _ => by rw [htenders], fun id x hx => ?_⟩
    · unfold Tables.isResponsible
      rw [hlinks]
    · by_cases hlisted : id ∈ ["b", "c"]
      · rw [hpublished id hlisted]
      · refine iff_of_false ?_ ?_
        · intro hfound
          have hmem : id ∈ ["b", "d", "c"] :=
            (hs.bids.isSome_chronicle? id).mp (Option.isSome_of_eq_some hfound)
          obtain rfl : id = "d" := by
            simp only [List.mem_cons, List.not_mem_nil, or_false] at hmem hlisted
            tauto
          rw [hfound] at hdraft
          exact hx (Option.some.inj hdraft)
        · intro hfound
          exact hlisted ((hs'.bids.isSome_chronicle? id).mp (Option.isSome_of_eq_some hfound))
  have hdrafts : edit.Drafts s.market.tables := by
    have hstatus : s.market.tables.bids.status? "d" = some .created := by decide
    exact hstatus
  obtain ⟨hsame, hkept⟩ := drafts_stay_hidden .assembled .migrated none none draftRun draftlessRun
    (by decide) (by decide) none none
  exact ⟨by decide, by decide, hsame hagree "ann" "t", hdrafts, hkept none edit hdrafts "ann" "t"⟩

end Session

end Procurement

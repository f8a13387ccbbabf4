import Procurement.Proofs.Authority
import Procurement.Proofs.Extension

/-!
# Referential integrity

Whatever is stored refers to what is stored: a tender to an organization and to a
creator who is responsible for it, a bid to a tender and to its author, feedback to
a bid, to its author and to someone responsible for the tender. The tables check a
part of this; the rest are the checks that requests make before they write, and
that nothing which was checked is ever taken back.
-/

namespace Procurement

namespace Tables

variable {t t' : Tables}

/-! ## What rows refer to -/

/-- Whether the author of a bid is stored in the table of its type. -/
def hasAuthor (t : Tables) (author : Author) : Bool :=
  match author.type with
  | .user => t.hasUser author.id
  | .organization => t.hasOrganization author.id

/-- The organization and the creator of a tender are stored, the creator as responsible for the
organization. -/
structure BacksTender (t : Tables) (origin : TenderOrigin) : Prop where
  organization : t.hasOrganization origin.organizationId = true
  creator : t.hasUser origin.creatorId = true
  responsible : t.isResponsible origin.organizationId origin.creatorId = true

/-- The tender and the author of a bid are stored. -/
structure BacksBid (t : Tables) (origin : BidOrigin) : Prop where
  tender : (t.tenders.row? origin.tenderId).isSome = true
  author : t.hasAuthor origin.author = true

/-- Both ends of a responsibility are stored. -/
structure BacksLink (t : Tables) (link : Responsibility) : Prop where
  organization : t.hasOrganization link.organizationId = true
  user : t.hasUser link.userId = true

/-- Nobody is responsible for an organization that is not stored. -/
theorem hasOrganization_of_isResponsible
    (hlinks : ∀ link ∈ t.responsibilities, t.BacksLink link) {organizationId userId : String}
    (h : t.isResponsible organizationId userId = true) :
    t.hasOrganization organizationId = true := by
  obtain ⟨link, hlink, hends⟩ := List.any_eq_true.mp h
  obtain ⟨horganization, _⟩ := Bool.and_eq_true_iff.mp hends
  exact beq_iff_eq.mp horganization ▸ (hlinks link hlink).organization

/-- The bid that feedback is about is stored, its author receives the feedback, and whoever wrote
it is stored as responsible for the organization of the bid's tender. -/
structure BacksFeedback (t : Tables) (f : Feedback) : Prop where
  bid : ∃ bid, t.bids.row? f.bidId = some bid ∧ f.receiverId = bid.origin.author.id
  author : t.hasUser f.authorId = true
  responsible : ∃ organizationId, t.organizationOfBid? f.bidId = some organizationId ∧
    t.isResponsible organizationId f.authorId = true

namespace Extends

variable (h : t.Extends t')

include h

/-- An author who was stored still is. -/
theorem hasAuthor {author : Author} (hauthor : t.hasAuthor author = true) :
    t'.hasAuthor author = true := by
  obtain ⟨type, id⟩ := author
  cases type with
  | user => exact h.hasUser hauthor
  | organization => exact h.hasOrganization hauthor

/-- The organization that a bid is for stays the same. -/
theorem organizationOfBid? {bidId organizationId : String}
    (hissued : t.organizationOfBid? bidId = some organizationId) :
    t'.organizationOfBid? bidId = some organizationId := by
  obtain ⟨bid, tender, hbid, htender, rfl⟩ := exists_of_organizationOfBid? hissued
  obtain ⟨bid', hbid', hborn⟩ := h.exists_bid hbid
  obtain ⟨tender', htender', hissued'⟩ := h.exists_tender htender
  have hbidOrigin : bid'.origin = bid.origin := congrArg Birth.origin hborn
  have htenderOrigin : tender'.origin = tender.origin := congrArg Birth.origin hissued'
  unfold Tables.organizationOfBid?
  simp [hbid', hbidOrigin, htender', htenderOrigin]

/-- What a tender refers to stays stored. -/
theorem backsTender {origin : TenderOrigin} (hbacked : t.BacksTender origin) :
    t'.BacksTender origin where
  organization := h.hasOrganization hbacked.organization
  creator := h.hasUser hbacked.creator
  responsible := h.isResponsible hbacked.responsible

/-- What a bid refers to stays stored. -/
theorem backsBid {origin : BidOrigin} (hbacked : t.BacksBid origin) : t'.BacksBid origin where
  tender := by
    obtain ⟨tender, htender⟩ := Option.isSome_iff_exists.mp hbacked.tender
    obtain ⟨tender', htender', _⟩ := h.exists_tender htender
    exact Option.isSome_iff_exists.mpr ⟨tender', htender'⟩
  author := h.hasAuthor hbacked.author

/-- What a link refers to stays stored. -/
theorem backsLink {link : Responsibility} (hbacked : t.BacksLink link) : t'.BacksLink link where
  organization := h.hasOrganization hbacked.organization
  user := h.hasUser hbacked.user

/-- What feedback refers to stays stored. -/
theorem backsFeedback {f : Feedback} (hbacked : t.BacksFeedback f) : t'.BacksFeedback f where
  bid := by
    obtain ⟨bid, hbid, hreceiver⟩ := hbacked.bid
    obtain ⟨bid', hbid', hborn⟩ := h.exists_bid hbid
    have horigin : bid'.origin = bid.origin := congrArg Birth.origin hborn
    exact ⟨bid', hbid', horigin ▸ hreceiver⟩
  author := h.hasUser hbacked.author
  responsible := by
    obtain ⟨organizationId, hissued, hresponsible⟩ := hbacked.responsible
    exact ⟨organizationId, h.organizationOfBid? hissued, h.isResponsible hresponsible⟩

end Extends

/-! ## Coherent tables -/

/-- Every row refers to what is stored, and no user is linked to an organization twice. -/
structure Coherent (t : Tables) : Prop where
  tender : ∀ tender ∈ t.tenders.rows, t.BacksTender tender.origin
  bid : ∀ bid ∈ t.bids.rows, t.BacksBid bid.origin
  link : ∀ link ∈ t.responsibilities, t.BacksLink link
  linkedOnce : (t.responsibilities.map fun link => (link.organizationId, link.userId)).Nodup
  feedback : ∀ f ∈ t.feedback, t.BacksFeedback f

/-- In empty tables nothing refers to anything. -/
theorem coherent_empty : ({} : Tables).Coherent where
  tender _ h := absurd h List.not_mem_nil
  bid _ h := absurd h List.not_mem_nil
  link _ h := absurd h List.not_mem_nil
  linkedOnce := List.nodup_nil
  feedback _ h := absurd h List.not_mem_nil

namespace Coherent

variable (ht : t.Coherent)

include ht

/-- Whoever is responsible for an organization is stored, and so is the organization. -/
theorem backsTender_of_isResponsible {origin : TenderOrigin}
    (h : t.isResponsible origin.organizationId origin.creatorId = true) : t.BacksTender origin := by
  obtain ⟨link, hlink, hends⟩ := List.any_eq_true.mp h
  obtain ⟨horganization, huser⟩ := Bool.and_eq_true_iff.mp hends
  have hbacked := ht.link link hlink
  exact ⟨beq_iff_eq.mp horganization ▸ hbacked.organization, beq_iff_eq.mp huser ▸ hbacked.user, h⟩

/-- Tables that grow out of coherent ones are coherent if all that is new is backed. -/
theorem of_extends (h : t.Extends t')
    (htender : ∀ birth ∈ t'.tenders.births, birth ∉ t.tenders.births → t'.BacksTender birth.origin)
    (hbid : ∀ birth ∈ t'.bids.births, birth ∉ t.bids.births → t'.BacksBid birth.origin)
    (hlink : ∀ link ∈ t'.responsibilities, link ∉ t.responsibilities → t'.BacksLink link)
    (hlinkedOnce :
      (t'.responsibilities.map fun link => (link.organizationId, link.userId)).Nodup)
    (hfeedback : ∀ f ∈ t'.feedback, f ∉ t.feedback → t'.BacksFeedback f) : t'.Coherent where
  tender tender hmem := by
    by_cases hold : tender.birth ∈ t.tenders.births
    · obtain ⟨old, holdmem, hborn⟩ := Register.exists_of_mem_births hold
      have horigin : old.origin = tender.origin := congrArg Birth.origin hborn
      exact horigin ▸ h.backsTender (ht.tender old holdmem)
    · exact htender tender.birth (List.mem_map_of_mem hmem) hold
  bid bid hmem := by
    by_cases hold : bid.birth ∈ t.bids.births
    · obtain ⟨old, holdmem, hborn⟩ := Register.exists_of_mem_births hold
      have horigin : old.origin = bid.origin := congrArg Birth.origin hborn
      exact horigin ▸ h.backsBid (ht.bid old holdmem)
    · exact hbid bid.birth (List.mem_map_of_mem hmem) hold
  link link hmem := by
    by_cases hold : link ∈ t.responsibilities
    · exact h.backsLink (ht.link link hold)
    · exact hlink link hmem hold
  linkedOnce := hlinkedOnce
  feedback f hmem := by
    by_cases hold : f ∈ t.feedback
    · exact h.backsFeedback (ht.feedback f hold)
    · exact hfeedback f hmem hold

end Coherent

/-- In a table to which nothing was added there is nothing new. -/
private theorem nothing_new {α : Type} {rows : List α} {Backed : α → Prop} :
    ∀ row ∈ rows, row ∉ rows → Backed row :=
  fun _ hmem hnew => absurd hmem hnew

/-- What a new responsibility needs: both its ends are stored, and not linked yet. -/
theorem of_addResponsibility {link : Responsibility}
    (h : (t.addResponsibility link).toOption = some t') :
    t.isResponsible link.organizationId link.userId = false ∧ t.BacksLink link := by
  unfold addResponsibility at h
  split at h
  · cases h
  · split at h
    · cases h
    · rename_i hfresh
      split at h
      · rename_i hstored
        obtain ⟨horganization, huser⟩ := Bool.and_eq_true_iff.mp hstored
        exact ⟨by simpa using hfresh, horganization, huser⟩
      · cases h

end Tables

/-! ## Writes -/

/-- What the checks before a write tell about what it adds, where the tables do not check it
themselves. -/
def Write.Grounded (t : Tables) : Write → Prop
  | .tender (.insert _ origin _ _) =>
    t.isResponsible origin.organizationId origin.creatorId = true
  | .bid (.insert _ origin _ _) => t.hasAuthor origin.author = true
  | .feedback f => t.BacksFeedback f
  | _ => True

/-- What was checked before other writes holds after them. -/
theorem Write.Grounded.mono {t t' : Tables} {write : Write} (hw : write.Grounded t)
    (h : t.Extends t') : write.Grounded t' := by
  cases write with
  | tender change => cases change with
    | insert => exact h.isResponsible hw
    | _ => trivial
  | bid change => cases change with
    | insert => exact h.hasAuthor hw
    | _ => trivial
  | feedback f => exact h.backsFeedback hw
  | _ => trivial

/-- A new birth is the one that a change adds. -/
theorem Register.birth?_of_not_mem {Status Origin Content : Type}
    {r r' : Register Status Origin Content} {initial : Status}
    {change : Change Status Origin Content} (h : r.change? initial change = some r')
    {birth : Birth Origin} (hmem : birth ∈ r'.births) (hnew : birth ∉ r.births) :
    ∃ createdAt content, change = .insert birth.id birth.origin createdAt content := by
  rw [births_of_change? h, List.mem_append] at hmem
  have hadded := Option.mem_toList.mp (hmem.resolve_left hnew)
  cases change with
  | insert id origin createdAt content =>
    obtain rfl := Option.some.inj hadded
    exact ⟨createdAt, content, rfl⟩
  | _ => cases hadded

/-- A write that was checked keeps the tables coherent. -/
theorem Tables.Coherent.of_applyTo? {t t' : Tables} (ht : t.Coherent) {write : Write}
    (hw : write.Grounded t) (h : write.applyTo? t = some t') : t'.Coherent := by
  have hext := Extends.of_applyTo? h
  cases write with
  | user user =>
    obtain ⟨_, rfl⟩ := eq_of_addUser h
    exact ht.of_extends hext nothing_new nothing_new nothing_new ht.linkedOnce nothing_new
  | organization organization =>
    obtain rfl := eq_of_addOrganization h
    exact ht.of_extends hext nothing_new nothing_new nothing_new ht.linkedOnce nothing_new
  | notice registration =>
    obtain rfl := Option.some.inj h
    exact ht
  | responsibility link =>
    obtain ⟨hfresh, hbacked⟩ := of_addResponsibility h
    obtain rfl := eq_of_addResponsibility h
    refine ht.of_extends hext nothing_new nothing_new (fun link' hmem hnew => ?_) ?_ nothing_new
    · obtain rfl := List.mem_singleton.mp ((List.mem_append.mp hmem).resolve_left hnew)
      exact hext.backsLink hbacked
    · rw [List.map_append]
      refine ht.linkedOnce.append (List.nodup_singleton _) fun ends hold hnew => ?_
      obtain ⟨old, holdmem, rfl⟩ := List.mem_map.mp hold
      have hsame := Prod.mk.inj (List.mem_singleton.mp hnew)
      refine absurd (List.any_eq_true.mpr ⟨old, holdmem, ?_⟩) (Bool.eq_false_iff.mp hfresh)
      exact Bool.and_eq_true_iff.mpr ⟨beq_iff_eq.mpr hsame.1, beq_iff_eq.mpr hsame.2⟩
  | tender change =>
    obtain ⟨register, hregister, rfl⟩ := Catalogue.exists_of_change? h
    refine ht.of_extends hext (fun birth hmem hnew => ?_) nothing_new nothing_new ht.linkedOnce
      nothing_new
    obtain ⟨createdAt, content, rfl⟩ := Register.birth?_of_not_mem hregister hmem hnew
    exact hext.backsTender (ht.backsTender_of_isResponsible hw)
  | bid change =>
    have hsupported := Catalogue.isSupported_of_change? h
    obtain ⟨register, hregister, rfl⟩ := Catalogue.exists_of_change? h
    refine ht.of_extends hext nothing_new (fun birth hmem hnew => ?_) nothing_new ht.linkedOnce
      nothing_new
    obtain ⟨createdAt, content, rfl⟩ := Register.birth?_of_not_mem hregister hmem hnew
    exact hext.backsBid ⟨hsupported, hw⟩
  | feedback f =>
    obtain rfl := eq_of_addFeedback h
    refine ht.of_extends hext nothing_new nothing_new nothing_new ht.linkedOnce
      fun f' hmem hnew => ?_
    obtain rfl := List.mem_singleton.mp ((List.mem_append.mp hmem).resolve_left hnew)
    exact hext.backsFeedback hw

/-- Writes that were checked keep the tables of a market coherent. -/
theorem Market.coherent_of_writeAll? {m n : Market} (hm : m.tables.Coherent) {writes : List Write}
    (hwrites : ∀ write ∈ writes, write.Grounded m.tables) (h : m.writeAll? writes = some n) :
    n.tables.Coherent := by
  -- Checked were the tables before all writes, out of which the later ones have grown.
  refine (keeps_of_writeAll? h (fun t => m.tables.Extends t ∧ t.Coherent) ?_ ⟨.refl _, hm⟩).2
  intro write hmem t t' happlied ⟨hgrown, ht⟩
  exact ⟨hgrown.trans (.of_applyTo? happlied),
    ht.of_applyTo? ((hwrites write hmem).mono hgrown) happlied⟩

/-! ## What the checks tell -/

namespace Tables

variable {t : Tables} {actor : String}

/-- Whoever is stored under a name is stored. -/
theorem hasUser_of_named {userId : String} (h : t.Named actor userId) :
    t.hasUser userId = true := by
  obtain ⟨user, hstored, _, rfl⟩ := h
  exact List.any_eq_true.mpr ⟨user, hstored, beq_self_eq_true _⟩

/-- A username stands for one identifier at most. -/
theorem Keyed.named_iff (ht : t.Keyed) {userId : String} (h : t.Named actor userId)
    (id : String) : t.Named actor id ↔ id = userId := by
  constructor
  · intro hnamed
    obtain ⟨user, hstored, hname, rfl⟩ := h
    obtain ⟨user', hstored', hname', rfl⟩ := hnamed
    rw [List.inj_on_of_nodup_map ht.usernames hstored' hstored (hname'.trans hname.symm)]
  · rintro rfl
    exact h

/-- One username stands for one user. -/
theorem Keyed.isResponsible (ht : t.Keyed) {userId organizationId : String}
    (hnamed : t.Named actor userId) (hacts : t.ActsFor actor organizationId) :
    t.isResponsible organizationId userId = true := by
  obtain ⟨user, hstored, hname, rfl⟩ := hnamed
  obtain ⟨user', hstored', hname', hresponsible⟩ := hacts
  obtain rfl : user = user' :=
    List.inj_on_of_nodup_map ht.usernames hstored hstored' (hname.trans hname'.symm)
  exact hresponsible

/-- What an actor is permitted to write was checked, unless it adds a bid. -/
theorem Permits.grounded (ht : t.Keyed) {write : Write} (h : t.Permits actor write) :
    write.Grounded t := by
  cases h with
  | newTender hcreator hmember => exact ht.isResponsible hcreator hmember
  | @tender change _ _ haltered => cases change with
    | insert => cases haltered
    | _ => trivial
  | bidStatus | decision => trivial
  | @bidContent change _ _ hrevises => cases change with
    | insert => cases hrevises
    | _ => trivial
  | feedback hauthor hbid hreceiver hdecider =>
    obtain ⟨organizationId, hissued, hacts⟩ := hdecider
    exact ⟨⟨_, hbid, hreceiver⟩, hasUser_of_named hauthor, organizationId, hissued,
      ht.isResponsible hauthor hacts⟩

end Tables

namespace Market

variable {m : Market}

/-- Whether an author exists is told by the tables. -/
theorem answer_authorExists (m : Market) (author : Author) :
    m.answer (authorExists author) = .ok (m.tables.hasAuthor author) := by
  obtain ⟨type, id⟩ := author
  cases type <;> rfl

/-- A bid is accepted from a stored author only. -/
theorem hasAuthor_of_answer_createBid {tenderId : String} {author : Author} {content : BidContent}
    {bid : Bid} (h : m.answer (createBid tenderId author content) = .ok bid) :
    m.tables.hasAuthor author = true := by
  obtain ⟨exists?, hexists, hcreated⟩ := answer_bind_eq_ok_iff.mp h
  rw [answer_authorExists] at hexists
  rw [Except.ok.inj hexists]
  cases exists? with
  | true => rfl
  | false => cases hcreated

end Market

/-- What an accepted operation writes was checked. -/
theorem Operation.grounded {m : Market} (hm : m.Faithful) {op : Operation} {answer : Answer}
    (h : m.answer op.perform = .ok answer) {write : Write} (hwrite : write ∈ op.writes m) :
    write.Grounded m.tables := by
  rcases op.permitted hm h hwrite with hopen | ⟨actor, _, hpermits⟩
  · cases write with
    | user | organization | responsibility => trivial
    | bid change => cases change with
      | insert id origin createdAt content =>
        have hop : Change.insert id origin createdAt content ∈ op.bidChanges m := by
          rw [← op.flatMap_bidChanges]
          exact List.mem_flatMap.mpr ⟨_, hwrite, List.mem_singleton_self _⟩
        cases op with
        | createBid tenderId author content' =>
          obtain ⟨_, rfl, _, _⟩ := Change.insert.inj (List.mem_singleton.mp hop)
          obtain ⟨bid, hbid, _⟩ := Market.answer_map_eq_ok_iff.mp h
          exact Market.hasAuthor_of_answer_createBid hbid
        | setBidStatus | editBid | rollbackBid | submitDecision =>
          cases List.mem_singleton.mp hop
        | _ => cases hop
      | _ => trivial
    | _ => cases hopen
  · exact hpermits.grounded hm.keyed

/-! ## Questions about who answers for what -/

namespace Market.Faithful

variable {m : Market} (hm : m.Faithful)

include hm

/-- The cache knows every tender that is stored. -/
theorem knows_of_tender {id : String} {tender : Row TenderStatus TenderOrigin}
    (h : m.tables.tenders.row? id = some tender) : m.caches.tenders.knows id = true := by
  rw [ExistenceCache.knows_iff, hm.mirror.tenders]
  exact Register.mem_ids_of_row? h

/-- The cache knows every bid that is stored. -/
theorem knows_of_bid {id : String} {bid : Row BidStatus BidOrigin}
    (h : m.tables.bids.row? id = some bid) : m.caches.bids.knows id = true := by
  rw [ExistenceCache.knows_iff, hm.mirror.bids]
  exact Register.mem_ids_of_row? h

/-- The organization of a stored tender is answered. -/
theorem answer_tenderOrganization {id : String} {tender : Row TenderStatus TenderOrigin}
    (h : m.tables.tenders.row? id = some tender) :
    m.answer (tenderOrganization id) = .ok tender.origin.organizationId := by
  refine answer_bind_eq_ok_iff.mpr ⟨tender, ?_, rfl⟩
  rw [tenders_lawful.answer_row]
  exact (if_pos (hm.knows_of_tender h)).trans (found_eq_ok_iff.mpr h)

/-- The row of a stored bid is answered. -/
theorem answer_bidRow {id : String} {bid : Row BidStatus BidOrigin}
    (h : m.tables.bids.row? id = some bid) : m.answer (bids.row id) = .ok bid := by
  rw [bids_lawful.answer_row]
  exact (if_pos (hm.knows_of_bid h)).trans (found_eq_ok_iff.mpr h)

variable (ht : m.tables.Coherent)

include ht

/-- The creator of a tender can be named, and acts for it. -/
theorem exists_tenderAuthor {id : String} {tender : Row TenderStatus TenderOrigin}
    (h : m.tables.tenders.row? id = some tender) :
    ∃ user ∈ m.tables.users, user.id = tender.origin.creatorId ∧
      m.answer (tenderAuthor id) = .ok user.username ∧
      m.answer (belongsToTender user.username id) = .ok true := by
  have hbacked := ht.tender tender (Register.mem_of_row? h)
  obtain ⟨user, huser⟩ := Option.isSome_iff_exists.mp
    (List.find?_isSome.mpr (List.any_eq_true.mp hbacked.creator))
  have hid : user.id = tender.origin.creatorId := by simpa using List.find?_some huser
  have hstored := List.mem_of_find?_eq_some huser
  have hnamed : m.tables.authorOfTender? id = some user.username :=
    Option.bind_eq_some_iff.mpr ⟨tender, h, congrArg (Option.map User.username) huser⟩
  have hknown : m.knowsResponsible user.username tender.origin.organizationId :=
    ⟨user.id, (hm.value?_eq_some_iff _ _).mpr ⟨user, hstored, rfl, rfl⟩, hid ▸ hbacked.responsible⟩
  refine ⟨user, hstored, hid, ?_, ?_⟩
  · rw [answer_tenderAuthor, if_pos (hm.knows_of_tender h), hnamed, found_some]
  · refine answer_bind_eq_ok_iff.mpr
      ⟨tender.origin.organizationId, hm.answer_tenderOrganization h, ?_⟩
    rw [(onlyReads_isUserResponsible _ _).answer_congr
      ((onlyReads_tenderOrganization id).after_uncounted m)]
    exact (answer_isUserResponsible_eq_true_iff m _ _).mpr hknown

/-- The organization that a bid is decided by can be named. -/
theorem exists_bidOrganization {id : String} {bid : Row BidStatus BidOrigin}
    (h : m.tables.bids.row? id = some bid) :
    ∃ tender ∈ m.tables.tenders.rows, tender.id = bid.origin.tenderId ∧
      m.answer (bidOrganization id) = .ok tender.origin.organizationId := by
  have hbacked := ht.bid bid (Register.mem_of_row? h)
  obtain ⟨tender, htender⟩ := Option.isSome_iff_exists.mp hbacked.tender
  have hissued : m.tables.organizationOfBid? id = some tender.origin.organizationId := by
    simp [Tables.organizationOfBid?, h, htender]
  refine ⟨tender, Register.mem_of_row? htender, Register.id_of_row? htender, ?_⟩
  rw [answer_bidOrganization, if_pos (hm.knows_of_bid h), hissued, found_some]

end Market.Faithful

/-! ## Runs -/

/-- Whether a step is one of those that users are offered: it makes no request behind the services
and inserts no feedback past the checks. -/
def Step.isOffered : Step → Bool
  | .request _ (.feedback (.insert _ _ _ _)) => false
  | step => step.isGuarded

/-- A step that users are offered makes no request behind the services. -/
theorem Step.isGuarded_of_isOffered {step : Step} (h : step.isOffered = true) :
    step.isGuarded = true := by
  unfold isOffered at h
  split at h
  · cases h
  · exact h

/-- Whether a step adds nothing past the checks. Behind the services it only asks, or alters what is
stored already. -/
def Step.isChecked : Step → Bool
  | .request _ (.store (.insertTender _ _ _)) | .request _ (.store (.insertBid _ _ _))
  | .request _ (.feedback (.insert _ _ _ _)) | .request _ (.learn _) => false
  | _ => true

/-- A step that adds nothing past the checks teaches no cache by hand. -/
theorem Step.learns_of_isChecked {step : Step} (h : step.isChecked = true) :
    step.learns = false := by
  unfold learns
  split
  · cases h
  · rfl

/-- A step that users are offered adds nothing past the checks. -/
theorem Step.isChecked_of_isOffered {step : Step} (h : step.isOffered = true) :
    step.isChecked = true := by
  unfold isChecked
  split
  · cases h
  · cases h
  · cases h
  · cases h
  · rfl

/-- What is altered behind the services needs no check. -/
theorem StoreOperation.grounded {m : Market} {op : StoreOperation} {offered : Option String}
    (hop : (Step.request offered (.store op)).isChecked = true) {write : Write}
    (hwrite : write ∈ op.writes m) (t : Tables) : write.Grounded t := by
  cases op with
  | insertTender | insertBid => cases hop
  | onTenders op =>
    obtain ⟨change, _, rfl, haltered, _⟩ := op.exists_of_mem_writes hwrite
    cases change with
    | insert => cases haltered
    | _ => trivial
  | onBids op =>
    obtain ⟨change, _, rfl, haltered, _⟩ := op.exists_of_mem_writes hwrite
    cases change with
    | insert => cases haltered
    | _ => trivial
  | decideIfPublished bidId target =>
    simp only [writes, Catalogue.transitionWrites] at hwrite
    split at hwrite
    · obtain rfl := List.mem_singleton.mp hwrite
      trivial
    · cases hwrite
  | _ => cases hwrite

namespace Session

variable {s : Session}

/-- What a step writes that adds nothing past the checks was checked. -/
theorem grounded_of_mem_writes (hs : s.market.Faithful) {step : Step}
    (hstep : step.isChecked = true) {write : Write} (hwrite : write ∈ s.writes step) :
    write.Grounded s.market.tables := by
  rcases s.writes_cases step with hnone | ⟨offered, request, answer, rfl, hanswer, hwrites⟩
  · rw [hnone] at hwrite
    cases hwrite
  · rw [hwrites] at hwrite
    cases request with
    | operation op => exact op.grounded (faithful_offer hs offered) (answer_of_step hanswer) hwrite
    | store op => exact op.grounded hstep hwrite _
    | feedback op => cases op with
      | insert => cases hstep
      | reviewsFor => cases hwrite
    | learn => cases hstep
    | _ => cases hwrite

/-- A step that adds nothing past the checks keeps the tables coherent. -/
theorem coherent_step (hs : s.market.Faithful) (ht : s.market.tables.Coherent) {step : Step}
    (hstep : step.isChecked = true) : (s.step step).2.market.tables.Coherent := by
  obtain ⟨n, hn, htables, -⟩ := exists_writeAll? hs.toSound step
  rw [← htables]
  exact Market.coherent_of_writeAll? ht (fun _ => grounded_of_mem_writes hs hstep) hn

/-- As long as nothing is added past the checks the tables stay coherent. -/
theorem coherent_after_of_isChecked (hs : s.market.Faithful) (ht : s.market.tables.Coherent)
    {steps : List Step} (hsteps : ∀ step ∈ steps, step.isChecked = true) :
    (s.after steps).market.tables.Coherent := by
  induction steps generalizing s with
  | nil => exact ht
  | cons step rest ih =>
    have hstep := hsteps step List.mem_cons_self
    exact ih (faithful_step hs (Step.learns_of_isChecked hstep)) (coherent_step hs ht hstep)
      fun step' hmem => hsteps step' (List.mem_cons_of_mem _ hmem)

/-- The steps that users are offered keep the tables coherent. -/
theorem coherent_after (hs : s.market.Faithful) (ht : s.market.tables.Coherent)
    {steps : List Step} (hsteps : ∀ step ∈ steps, step.isOffered = true) :
    (s.after steps).market.tables.Coherent :=
  coherent_after_of_isChecked hs ht fun step hmem =>
    Step.isChecked_of_isOffered (hsteps step hmem)

/-- What is asked about the creator and the organization of a stored tender, and about the tender
and the author of a stored bid, has an answer; and the creator of a tender acts for it. -/
structure Resolves (s : Session) (offered : Option String) : Prop where
  tender : ∀ tender ∈ s.market.tables.tenders.rows, ∃ user ∈ s.market.tables.users,
    user.id = tender.origin.creatorId ∧
      s.reply offered (.relation (.tenderAuthor tender.id)) = some (.ok (.text user.username)) ∧
      s.reply offered (.relation (.tenderOrganization tender.id)) =
        some (.ok (.text tender.origin.organizationId)) ∧
      s.reply offered (.relation (.belongsToTender user.username tender.id)) =
        some (.ok (.flag true))
  bid : ∀ bid ∈ s.market.tables.bids.rows, ∃ tender ∈ s.market.tables.tenders.rows,
    tender.id = bid.origin.tenderId ∧
      s.reply offered (.relation (.bidOrganization bid.id)) =
        some (.ok (.text tender.origin.organizationId)) ∧
      s.reply offered (.store (.tenderOf bid.id)) = some (.ok (.text bid.origin.tenderId)) ∧
      s.reply offered (.store (.bidAuthor bid.id)) = some (.ok (.author bid.origin.author))

/-- A session answers as its market does, once there is one. -/
theorem reply_eq_some_ok {offered : Option String} {request : Request} {answer : Answer}
    (hassembled : s.stage = .assembled)
    (h : (s.market.offer offered).answer request.perform = .ok answer) :
    s.reply offered request = some (.ok answer) := by
  obtain ⟨stage, m⟩ := s
  obtain rfl : stage = .assembled := hassembled
  exact congrArg some h

/-- In coherent tables every reference can be followed. -/
theorem resolves_of_coherent (hs : s.market.Faithful) (hunused : s.Unused)
    (ht : s.market.tables.Coherent) (offered : Option String) : s.Resolves offered := by
  have hm := faithful_offer hs offered
  constructor
  case tender =>
    intro tender hmem
    have hassembled : s.stage = .assembled := hunused.assembled fun hempty => by
      rw [hempty] at hmem
      cases hmem
    have hrow : (s.market.offer offered).tables.tenders.row? tender.id = some tender :=
      hs.tenders.row?_of_mem hmem
    obtain ⟨user, hstored, hid, hauthor, hbelongs⟩ := hm.exists_tenderAuthor ht hrow
    have hissued := hm.answer_tenderOrganization hrow
    exact ⟨user, hstored, hid,
      reply_eq_some_ok hassembled (Market.answer_map_eq_ok_iff.mpr ⟨_, hauthor, rfl⟩),
      reply_eq_some_ok hassembled (Market.answer_map_eq_ok_iff.mpr ⟨_, hissued, rfl⟩),
      reply_eq_some_ok hassembled (Market.answer_map_eq_ok_iff.mpr ⟨_, hbelongs, rfl⟩)⟩
  case bid =>
    intro bid hmem
    have hassembled : s.stage = .assembled := hunused.assembled fun hempty => by
      rw [hempty] at hmem
      cases hmem
    have hrow : (s.market.offer offered).tables.bids.row? bid.id = some bid :=
      hs.bids.row?_of_mem hmem
    obtain ⟨tender, htender, hid, hissued⟩ := hm.exists_bidOrganization ht hrow
    have hfound := hm.answer_bidRow hrow
    have hanswered : (s.market.offer offered).answer (Market.tenderOf bid.id) =
        .ok bid.origin.tenderId := Market.answer_bind_eq_ok_iff.mpr ⟨bid, hfound, rfl⟩
    have hauthor : (s.market.offer offered).answer (Market.bidAuthor bid.id) =
        .ok bid.origin.author := Market.answer_bind_eq_ok_iff.mpr ⟨bid, hfound, rfl⟩
    exact ⟨tender, htender, hid,
      reply_eq_some_ok hassembled (Market.answer_map_eq_ok_iff.mpr ⟨_, hissued, rfl⟩),
      reply_eq_some_ok hassembled (Market.answer_map_eq_ok_iff.mpr ⟨_, hanswered, rfl⟩),
      reply_eq_some_ok hassembled (Market.answer_map_eq_ok_iff.mpr ⟨_, hauthor, rfl⟩)⟩

/-- Over all runs of what users are offered every stored row refers to what is stored, and every
reference can be followed. -/
theorem stored_references_resolve (stage : Stage) (decisionLimit : Option UInt64)
    (steps : List Step) (hsteps : ∀ step ∈ steps, step.isOffered = true)
    (offered : Option String) :
    let s := (fresh stage decisionLimit).after steps
    s.market.tables.Coherent ∧ s.Resolves offered := by
  intro s
  have hlearns : ∀ step ∈ steps, step.learns = false := fun step hmem =>
    Step.learns_of_isGuarded (Step.isGuarded_of_isOffered (hsteps step hmem))
  have hfresh := faithful_fresh stage decisionLimit
  have ht : s.market.tables.Coherent := coherent_after hfresh Tables.coherent_empty hsteps
  exact ⟨ht, resolves_of_coherent (faithful_after hfresh hlearns)
    (unused_after (unused_fresh stage decisionLimit) steps) ht offered⟩

/-- Feedback that was left on a bid is received by the bid's author, and its writer acts for the
tender. -/
theorem stored_references_resolve_reviewed :
    let review := Step.request (some "f") (.operation (.submitFeedback "ann" "b" "sturdy"))
    let s := (fresh .assembled none).after (biddingRun ++ [review])
    (∀ step ∈ biddingRun ++ [review], step.isOffered = true) ∧
      s.market.tables.feedback.map Feedback.id = ["f"] ∧
      (∀ f ∈ s.market.tables.feedback, s.market.tables.BacksFeedback f) ∧ s.Resolves none := by
  intro review s
  have hoffered : ∀ step ∈ biddingRun ++ [review], step.isOffered = true := by decide
  have hleft : s.market.tables.feedback.map Feedback.id = ["f"] := by decide
  obtain ⟨ht, hresolves⟩ := stored_references_resolve .assembled none _ hoffered none
  exact ⟨hoffered, hleft, ht.feedback, hresolves⟩

end Session

end Procurement

import Procurement.Proofs.Reviews
import Procurement.Proofs.Revisions
import Procurement.Proofs.Verdicts

/-!
# Objections

What a guarded request is refused for can be read off the tables: an objection is the first
thing that is wrong, and there is none if nothing is. This file gives one objection for each
check, and shows that the checks of a faithful market raise just these. An objection to an actor
looks neither at the status nor at the content of the entity that is to be changed.
-/

namespace Procurement

/-- What an answer refuses, if it refuses anything. -/
def refusal? {α : Type} : Except MarketError α → Option MarketError
  | .error refusal => some refusal
  | .ok _ => none

section Refusal

variable {α β : Type}

/-- What is accepted is not refused. -/
@[simp] theorem refusal?_ok (a : α) : refusal? (.ok a) = none := rfl

/-- What is refused is refused for its reason. -/
@[simp] theorem refusal?_error (refusal : MarketError) :
    refusal? (.error refusal : Except MarketError α) = some refusal := rfl

/-- Putting something around an answer leaves its refusal. -/
@[simp] theorem refusal?_map (f : α → β) (answer : Except MarketError α) :
    refusal? (answer.map f) = refusal? answer := by
  cases answer <;> rfl

/-- An answer refuses nothing just if it is accepted. -/
theorem refusal?_eq_none_iff {answer : Except MarketError α} :
    refusal? answer = none ↔ ∃ a, answer = .ok a := by
  cases answer <;> simp

/-- An answer refuses for a reason just if it is this refusal. -/
theorem refusal?_eq_some_iff {answer : Except MarketError α} {refusal : MarketError} :
    refusal? answer = some refusal ↔ answer = .error refusal := by
  cases answer <;> simp

/-- What is looked for is refused just if it is not there. -/
@[simp] theorem refusal?_found (refusal : MarketError) (a? : Option α) :
    refusal? (Market.found refusal a?) = if a?.isSome then none else some refusal := by
  cases a? <;> rfl

end Refusal

/-! ## What the tables object to -/

namespace Register

variable {Status Origin Content : Type} (r : Register Status Origin Content)

/-- What an entity comes from. -/
def origin? (id : String) : Option Origin := (r.row? id).map Row.origin

/-- Why a version cannot be taken up again: there is none of that number. -/
def versionObjection? (kind : EntityKind) (id : String) (version : Int) : Option MarketError :=
  if 1 ≤ version ∧ version ≤ (r.revisionsOf id).length then none
  else some (.invalidVersion kind id version)

end Register

namespace Tables

instance (t : Tables) (actor userId : String) : Decidable (t.Named actor userId) :=
  inferInstanceAs (Decidable (∃ user ∈ t.users, user.username = actor ∧ user.id = userId))

instance (t : Tables) (actor : String) : (author : Author) → Decidable (t.Authored actor author)
  | ⟨.user, id⟩ => inferInstanceAs (Decidable (t.Named actor id))
  | ⟨.organization, id⟩ => inferInstanceAs (Decidable (t.ActsFor actor id))

/-- Why someone may not act for an organization: no user has the name, or the user is not
responsible for the organization. -/
def actorObjection? (t : Tables) (actor organizationId : String) : Option MarketError :=
  if ∀ user ∈ t.users, user.username ≠ actor then some (.notFound .user actor)
  else if ¬ t.ActsFor actor organizationId then some (.notResponsible actor organizationId)
  else none

/-- Why someone may not act for a tender. -/
def memberObjection? (t : Tables) (actor tenderId : String) : Option MarketError :=
  match t.tenders.origin? tenderId with
  | none => some (.notFound .tender tenderId)
  | some origin => t.actorObjection? actor origin.organizationId

/-- Why someone may not act as the author of a bid. -/
def authorObjection? (t : Tables) (actor bidId : String) : Option MarketError :=
  match t.bids.origin? bidId with
  | none => some (.notFound .bid bidId)
  | some origin =>
    if ∀ user ∈ t.users, user.username ≠ actor then some (.notFound .user actor)
    else if ¬ t.Authored actor origin.author then some (.notAuthor actor bidId)
    else none

/-- Why someone may not act for the tender that a bid answers. -/
def issuerObjection? (t : Tables) (actor bidId : String) : Option MarketError :=
  match t.organizationOfBid? bidId with
  | none => some (.notFound .bid bidId)
  | some organizationId => t.actorObjection? actor organizationId

/-- Why an author may not give a bid a status: the status is that of a decision, or the bid is no
longer its author's to move. -/
def moveObjection? (t : Tables) (bidId : String) (target : BidStatus) : Option MarketError :=
  if target ∈ [.approved, .rejected] ∨ t.bids.status? bidId ∉ [some .created, some .published] then
    some (.forbiddenTransition .bid bidId (Vocabulary.word target))
  else none

/-- Why reviews are not shown: the tender is not by the author named. -/
def creatorObjection? (t : Tables) (author tenderId : String) : Option MarketError :=
  if t.authorOfTender? tenderId = some author then none
  else some (.authorMismatch author tenderId)

end Tables

/-! ## What the tables see to themselves -/

namespace Tables

/-- The creator of every tender is stored, and so are both ends of every responsibility. No request
can get past this, since the tables check it whenever a row is added. -/
structure HoldsEnds (t : Tables) : Prop where
  creator : ∀ tender ∈ t.tenders.rows, t.hasUser tender.origin.creatorId = true
  link : ∀ link ∈ t.responsibilities, t.BacksLink link

/-- Writes keep what the tables see to themselves. -/
theorem HoldsEnds.of_applyTo? {t t' : Tables} (ht : t.HoldsEnds) {write : Write}
    (h : write.applyTo? t = some t') : t'.HoldsEnds where
  creator tender hmem := by
    have hext := Extends.of_applyTo? h
    by_cases hold : tender.birth ∈ t.tenders.births
    · obtain ⟨old, holdmem, hborn⟩ := Register.exists_of_mem_births hold
      have horigin : old.origin = tender.origin := congrArg Birth.origin hborn
      exact horigin ▸ hext.hasUser (ht.creator old holdmem)
    · have hnew : tender.birth ∈ t'.tenders.births := List.mem_map_of_mem hmem
      cases write with
      | tender change =>
        have hsupported := Catalogue.isSupported_of_change? h
        obtain ⟨register, hregister, rfl⟩ := Catalogue.exists_of_change? h
        obtain ⟨createdAt, content, rfl⟩ := Register.birth?_of_not_mem hregister hnew hold
        exact (Bool.and_eq_true_iff.mp hsupported).2
      | _ =>
        have hsame : t'.tenders = t.tenders :=
          (Option.some.inj (Write.registers_of_applyTo? h).1).symm
        rw [hsame] at hnew
        exact absurd hnew hold
  link link hmem := by
    have hext := Extends.of_applyTo? h
    by_cases hold : link ∈ t.responsibilities
    · exact hext.backsLink (ht.link link hold)
    · cases write with
      | responsibility new =>
        obtain ⟨_, hbacked⟩ := of_addResponsibility h
        obtain rfl := eq_of_addResponsibility h
        obtain rfl := List.mem_singleton.mp ((List.mem_append.mp hmem).resolve_left hold)
        exact hext.backsLink hbacked
      | user user =>
        obtain ⟨_, rfl⟩ := eq_of_addUser h
        exact absurd hmem hold
      | organization organization =>
        obtain rfl := eq_of_addOrganization h
        exact absurd hmem hold
      | feedback feedback =>
        obtain rfl := eq_of_addFeedback h
        exact absurd hmem hold
      | tender change =>
        obtain ⟨register, _, rfl⟩ := Catalogue.exists_of_change? h
        exact absurd hmem hold
      | bid change =>
        obtain ⟨register, _, rfl⟩ := Catalogue.exists_of_change? h
        exact absurd hmem hold
      | notice registration =>
        obtain rfl := Option.some.inj h
        exact absurd hmem hold

/-- The creator of a tender can be named. -/
theorem HoldsEnds.exists_authorOfTender? {t : Tables} (ht : t.HoldsEnds) {id : String}
    {tender : Row TenderStatus TenderOrigin} (htender : t.tenders.row? id = some tender) :
    ∃ user ∈ t.users, t.authorOfTender? id = some user.username := by
  have hstored := ht.creator tender (Register.mem_of_row? htender)
  obtain ⟨user, huser⟩ := Option.isSome_iff_exists.mp
    (List.find?_isSome.mpr (List.any_eq_true.mp hstored))
  refine ⟨user, List.mem_of_find?_eq_some huser, ?_⟩
  unfold authorOfTender? usernameOf?
  rw [htender, Option.bind_eq_bind, Option.bind_some, huser, Option.map_some]

/-- If the tender of every bid is stored, it can be told who decides about a bid. -/
theorem HoldsTenders.organizationOfBid?_eq_none_iff {t : Tables} (ht : t.HoldsTenders)
    (bidId : String) : t.organizationOfBid? bidId = none ↔ bidId ∉ t.bids.ids := by
  rw [← Register.row?_eq_none_iff]
  unfold organizationOfBid?
  cases hbid : t.bids.row? bidId with
  | none => simp
  | some bid =>
    obtain ⟨tender, htender⟩ := Option.isSome_iff_exists.mp (ht bid (Register.mem_of_row? hbid))
    simp [htender]

end Tables

/-- In every run, creators and linked users and organizations are stored. -/
theorem Session.holdsEnds_after (stage : Stage) (decisionLimit : Option UInt64)
    (steps : List Step) : ((fresh stage decisionLimit).after steps).market.tables.HoldsEnds :=
  keeps_after (sound_fresh stage decisionLimit) Tables.HoldsEnds
    (fun happlied ht => ht.of_applyTo? happlied)
    ⟨fun _ hmem => absurd hmem List.not_mem_nil, fun _ hmem => absurd hmem List.not_mem_nil⟩ steps

/-! ## Requests about one entity -/

/-- A chronicle has the versions from the first to the newest. -/
theorem Chronicle.isSome_content?_iff {Status Origin Content : Type}
    (x : Chronicle Status Origin Content) (v : Int) :
    (x.content? v).isSome ↔ 1 ≤ v ∧ v ≤ x.version := by
  by_cases hv : 1 ≤ v ∧ v ≤ x.version
  · have hstored : (v - 1).toNat < x.contents.length := by
      rw [x.length_contents]
      omega
    rw [content?, if_pos hv.1, List.getElem?_eq_getElem hstored]
    simp [hv]
  · simp [x.content?_eq_none_of_not_le hv, hv]

namespace Catalogue

open Market

variable {Status Origin Content : Type} {c : Catalogue Status Origin Content} {m : Market}
  {id : String} {x : Chronicle Status Origin Content} (hc : c.Lawful)
  (hknows : (c.cache m.caches).knows id = true) (hdense : (c.register m.tables).Dense)
  (hx : (c.register m.tables).chronicle? id = some x)

include hc hknows hdense hx

/-- Setting the status of an entity that is there is not refused. -/
theorem Lawful.refusal?_setStatus (status : Status) :
    refusal? (m.answer (c.setStatus id status)) = none := by
  rw [(hc.leaves_setStatus hknows hdense hx status).answer, refusal?_ok]

/-- Editing an entity that is there is not refused. -/
theorem Lawful.refusal?_edit (content : Content) :
    refusal? (m.answer (c.edit id content)) = none := by
  rw [(hc.leaves_edit hknows hdense hx content).answer, refusal?_ok]

/-- A rollback is refused just if there is no version of that number. -/
theorem Lawful.refusal?_rollback (version : Int) :
    refusal? (m.answer (c.rollback id version)) =
      (c.register m.tables).versionObjection? c.kind id version := by
  have hcount : ((c.register m.tables).revisionsOf id).length = x.version := by
    rw [hdense.revisionsOf_of_chronicle? hx, ← List.length_map, x.map_content_revisions,
      x.length_contents]
  unfold Register.versionObjection?
  rw [(hc.leaves_rollback hknows hdense hx version).answer, refusal?_map, refusal?_found, hcount]
  by_cases hversion : 1 ≤ version ∧ version ≤ x.version
  · rw [if_pos ((x.isSome_content?_iff version).mpr hversion), if_pos hversion]
  · rw [if_neg (mt (x.isSome_content?_iff version).mp hversion), if_neg hversion]

omit hc in
/-- An entity passes to another status and is read again, or is refused for its status. -/
theorem Writes.refusal?_setStatusFrom_get [DecidableEq Status]
    {write : Change Status Origin Content → Write} (hw : c.Writes write) (sources : List Status)
    (target : Status) (refusal : MarketError) :
    refusal? (m.answer (c.setStatusFrom id sources target >>= fun changed =>
        if changed then c.get id else throw refusal)) =
      if x.status ∈ sources then none else some refusal := by
  have hrow := hdense.row?_of_chronicle? hx
  have hchanged : m.answer (c.setStatusFrom id sources target) =
      .ok (decide (x.status ∈ sources)) := by
    rw [hw.answer_setStatusFrom, if_pos hknows, hrow]
    rfl
  rw [answer_bind, hchanged]
  by_cases hmem : x.status ∈ sources
  · have hset := hw.performs_setStatusFrom m id sources target
    rw [transitionWrites_of_mem hrow hmem] at hset
    obtain ⟨entity, hentity⟩ := hw.exists_answer_get_after hdense hset rfl hchanged
      fun hn => hw.has_of_write? rfl hn ⟨hknows, Register.mem_ids_of_row? hrow⟩
    rw [if_pos hmem, decide_eq_true hmem]
    exact refusal?_eq_none_iff.mpr ⟨entity, hentity⟩
  · rw [if_neg hmem, decide_eq_false hmem]
    rfl

end Catalogue

namespace Market

variable {α β : Type} {m : Market}

/-! ## Checks before requests -/

/-- What comes after a check is refused if the check fails, or else for its own reasons. -/
theorem OnlyReads.refusal?_bind {check : MarketM Unit} (hcheck : OnlyReads check)
    {next : MarketM α} {objection : Option MarketError}
    (hnext : m.answer check = .ok () → ∀ {n : Market}, n.uncounted = m.uncounted →
      refusal? (n.answer next) = objection) :
    refusal? (m.answer (check >>= fun _ => next)) =
      (refusal? (m.answer check)).or objection := by
  rw [Market.answer_bind]
  cases hpassed : m.answer check with
  | error refusal => rfl
  | ok _ => exact hnext hpassed (hcheck.after_uncounted m)

/-- Look-ups leave a market faithful. -/
theorem Faithful.of_uncounted (hm : m.Faithful) {n : Market} (h : n.uncounted = m.uncounted) :
    n.Faithful where
  toSound := hm.toSound.of_substance (substance_of_uncounted h.symm)
  keyed := tables_of_uncounted h ▸ hm.keyed
  mirror := tables_of_uncounted h ▸ hm.mirror.of_uncounted (caches_of_uncounted h).symm

/-- The check for a listing and the check for a change come to the same. -/
theorem answer_requireListingMember (m : Market) (actor tenderId : String) :
    m.answer (requireListingMember actor tenderId) = m.answer (requireMember actor tenderId) := by
  have hissuing := onlyReads_tenderOrganization tenderId
  cases hissued : m.answer (tenderOrganization tenderId) with
  | error refusal =>
    exact (answer_bind_of_error (answer_bind_of_error hissued)).trans
      (answer_bind_of_error hissued).symm
  | ok organizationId =>
    have hbelongs : m.answer (belongsToTender actor tenderId) =
        m.answer (isUserResponsible actor organizationId) := by
      unfold belongsToTender
      rw [hissuing.answer_bind fun _ => (onlyReads_isUserResponsible actor _).ignoresCounts,
        hissued]
      rfl
    have hmember : m.answer (requireMember actor tenderId) =
        m.answer (requireResponsible actor organizationId) := by
      unfold requireMember
      rw [hissuing.answer_bind fun _ => (onlyReads_requireResponsible actor _).ignoresCounts,
        hissued]
      rfl
    rw [hmember]
    unfold requireListingMember requireResponsible
    rw [(onlyReads_belongsToTender actor tenderId).answer_bind fun _ =>
        ignoresCounts_ite _ (onlyReads_pure ()).ignoresCounts
          (hissuing.bind fun _ => onlyReads_throw _).ignoresCounts,
      (onlyReads_isUserResponsible actor organizationId).answer_bind fun _ =>
        ignoresCounts_ite _ (onlyReads_pure ()).ignoresCounts (onlyReads_throw _).ignoresCounts,
      hbelongs]
    cases m.answer (isUserResponsible actor organizationId) with
    | error refusal => rfl
    | ok responsible =>
      cases responsible with
      | true => rfl
      | false =>
        change m.answer (tenderOrganization tenderId >>= fun organizationId =>
          throw (.notResponsible actor organizationId)) = _
        rw [answer_bind, hissued]
        rfl

/-- Who may act for the tender that a bid answers is found by reading. -/
theorem onlyReads_requireIssuer (actor bidId : String) :
    OnlyReads (bidOrganization bidId >>= requireResponsible actor) :=
  (onlyReads_bidOrganization bidId).bind (onlyReads_requireResponsible actor)

/-- Feedback of a user on a bid is stored under a fresh identifier. -/
theorem exists_answer_insertFeedback {bidId authorId : String}
    (hfresh : m.ids.draw.1 ∉ m.tables.feedback.map Feedback.id)
    (hbid : (m.tables.bids.row? bidId).isSome = true) (hauthor : m.tables.hasUser authorId = true)
    (content receiverId : String) :
    ∃ feedback, m.answer (insertFeedback bidId content authorId receiverId) = .ok feedback := by
  have hnew : (m.tables.feedback.any fun f => f.id == m.ids.draw.1) = false := by
    simpa using hfresh
  unfold insertFeedback
  rw [answer_bind, answer_drawId, after_drawId]
  dsimp only
  rw [answer_bind, answer_get, after_get]
  dsimp only
  rw [answer_bind, answer_store]
  unfold Tables.addFeedback
  simp only [hnew, hbid, hauthor, Bool.false_eq_true, Bool.and_self, if_false, if_true]
  exact ⟨_, rfl⟩

section Faithful

variable (hm : m.Faithful) (actor : String)

include hm

/-- The check for a responsible user raises the objection that the tables have. -/
theorem Faithful.refusal?_requireResponsible (organizationId : String) :
    refusal? (m.answer (requireResponsible actor organizationId)) =
      m.tables.actorObjection? actor organizationId := by
  rw [hm.answer_requireResponsible]
  unfold Tables.actorObjection?
  split
  · rfl
  · split <;> rfl

/-- The check for a member raises the objection that the tables have. -/
theorem Faithful.refusal?_requireMember (tenderId : String) :
    refusal? (m.answer (requireMember actor tenderId)) =
      m.tables.memberObjection? actor tenderId := by
  unfold Tables.memberObjection? Register.origin?
  cases htender : m.tables.tenders.row? tenderId with
  | none =>
    have hunknown : m.caches.tenders.knows tenderId = false := by
      rw [← Bool.not_eq_true, ExistenceCache.knows_iff, hm.mirror.tenders]
      exact (Register.row?_eq_none_iff tenderId).mp htender
    rw [answer_requireMember_of_unknown hunknown]
    rfl
  | some tender =>
    unfold requireMember
    rw [(onlyReads_tenderOrganization tenderId).answer_bind fun _ =>
      (onlyReads_requireResponsible actor _).ignoresCounts, hm.answer_tenderOrganization htender]
    exact hm.refusal?_requireResponsible actor _

/-- The check for those who decide on a bid raises the objection that the tables have. -/
theorem Faithful.refusal?_requireIssuer (bidId : String) :
    refusal? (m.answer (bidOrganization bidId >>= requireResponsible actor)) =
      m.tables.issuerObjection? actor bidId := by
  have hknows : m.caches.bids.knows bidId = true ↔ (m.tables.bids.row? bidId).isSome := by
    rw [ExistenceCache.knows_iff, hm.mirror.bids, Register.isSome_row?_iff]
  unfold Tables.issuerObjection?
  rw [(onlyReads_bidOrganization bidId).answer_bind fun organizationId =>
    (onlyReads_requireResponsible actor organizationId).ignoresCounts, answer_bidOrganization]
  cases hissued : m.tables.organizationOfBid? bidId with
  | none => split <;> rfl
  | some organizationId =>
    obtain ⟨bid, _, hbid, _⟩ := Tables.exists_of_organizationOfBid? hissued
    rw [if_pos (hknows.mpr (hbid ▸ rfl))]
    exact hm.refusal?_requireResponsible actor organizationId

/-- The author is looked up before it is asked whether the bid is the author's. -/
theorem Faithful.answer_isBidAuthor {bidId : String} {bid : Row BidStatus BidOrigin}
    (hbid : m.tables.bids.row? bidId = some bid) :
    m.answer (isBidAuthor actor bidId) =
      (found (.notFound .user actor) (m.caches.users.value? actor)).map fun userId =>
        match bid.origin.author.type with
        | .user => userId == bid.origin.author.id
        | .organization => m.tables.isResponsible bid.origin.author.id userId := by
  have hauthor : m.answer (bidAuthor bidId) = .ok bid.origin.author :=
    answer_bind_eq_ok_iff.mpr ⟨bid, hm.answer_bidRow hbid, rfl⟩
  have hread := (onlyReads_bidAuthor bidId).after_uncounted m
  unfold isBidAuthor
  rw [answer_bind, hauthor]
  obtain ⟨type, id⟩ := bid.origin.author
  cases type with
  | user =>
    dsimp only
    have hasked : OnlyReads (do
        let userId ← userId actor
        pure (userId == id)) :=
      (onlyReads_userId actor).bind fun userId => onlyReads_pure (userId == id)
    rw [hasked.answer_congr hread, answer_bind, answer_userId]
    cases m.caches.users.value? actor <;> rfl
  | organization =>
    dsimp only
    rw [(onlyReads_isUserResponsible actor id).answer_congr hread, answer_isUserResponsible]

/-- The check for an author raises the objection that the tables have. -/
theorem Faithful.refusal?_requireAuthor (bidId : String) :
    refusal? (m.answer (requireAuthor actor bidId)) =
      m.tables.authorObjection? actor bidId := by
  unfold Tables.authorObjection? Register.origin?
  cases hbid : m.tables.bids.row? bidId with
  | none =>
    have hunknown : m.caches.bids.knows bidId = false := by
      rw [← Bool.not_eq_true, ExistenceCache.knows_iff, hm.mirror.bids]
      exact (Register.row?_eq_none_iff bidId).mp hbid
    rw [answer_requireAuthor_of_unknown hunknown]
    rfl
  | some bid =>
    have hanswer := hm.answer_isBidAuthor actor hbid
    have hauthored : m.answer (isBidAuthor actor bidId) = .ok true ↔
        m.tables.Authored actor bid.origin.author :=
      (hm.answer_isBidAuthor_eq_true_iff actor bidId).trans (Tables.authoredBid_iff hbid)
    have hnamed := hm.value?_eq_none_iff actor
    unfold requireAuthor
    rw [(onlyReads_isBidAuthor actor bidId).answer_bind fun _ =>
      ignoresCounts_ite _ (onlyReads_pure ()).ignoresCounts (onlyReads_throw _).ignoresCounts]
    rw [Option.map_some]
    dsimp only
    cases hvalue : m.caches.users.value? actor with
    | none =>
      rw [hvalue] at hanswer
      rw [hanswer, if_pos (hnamed.mp hvalue)]
      rfl
    | some userId =>
      have hknown : ¬ ∀ user ∈ m.tables.users, user.username ≠ actor := by
        rw [← hnamed, hvalue]
        simp
      rw [if_neg hknown]
      rw [hvalue] at hanswer
      obtain ⟨isAuthor, hjudged⟩ : ∃ isAuthor, m.answer (isBidAuthor actor bidId) = .ok isAuthor :=
        ⟨_, hanswer⟩
      rw [hjudged] at hauthored ⊢
      cases isAuthor with
      | true =>
        rw [if_neg (not_not.mpr (hauthored.mp rfl))]
        rfl
      | false =>
        have hother : ¬ m.tables.Authored actor bid.origin.author := by
          rw [← hauthored]
          simp
        rw [if_pos hother]
        rfl

/-! ## Guarded requests -/

variable {actor} {id : String} {next : MarketM α} {objection : Option MarketError}

/-- Only who passes for a member has the tender touched. -/
theorem Faithful.refusal?_member_bind
    (hnext : ∀ {n : Market} {y : Chronicle TenderStatus TenderOrigin TenderContent}, n.Faithful →
      n.tables = m.tables → n.caches.tenders.knows id = true →
      n.tables.tenders.chronicle? id = some y → refusal? (n.answer next) = objection) :
    refusal? (m.answer (requireMember actor id >>= fun _ => next)) =
      (m.tables.memberObjection? actor id).or objection := by
  rw [(onlyReads_requireMember actor id).refusal?_bind, hm.refusal?_requireMember]
  intro hpassed n hn
  have hfaithful := hm.of_uncounted hn
  have htables : n.tables = m.tables := tables_of_uncounted hn
  obtain ⟨tender, htender, _⟩ := exists_of_answer_requireMember hpassed
  rw [← htables] at htender
  obtain ⟨y, hy, _⟩ := hfaithful.tenders.exists_chronicle? htender
  exact hnext hfaithful htables (hfaithful.knows_of_tender htender) hy

/-- Only who passes for the author has the bid touched. -/
theorem Faithful.refusal?_author_bind
    (hnext : ∀ {n : Market} {x : Chronicle BidStatus BidOrigin BidContent}, n.Faithful →
      n.tables = m.tables → n.caches.bids.knows id = true →
      n.tables.bids.chronicle? id = some x → refusal? (n.answer next) = objection) :
    refusal? (m.answer (requireAuthor actor id >>= fun _ => next)) =
      (m.tables.authorObjection? actor id).or objection := by
  rw [(onlyReads_requireAuthor actor id).refusal?_bind, hm.refusal?_requireAuthor]
  intro hpassed n hn
  have hfaithful := hm.of_uncounted hn
  have htables : n.tables = m.tables := tables_of_uncounted hn
  obtain ⟨bid, hbid, _⟩ := exists_of_answer_requireAuthor hpassed
  rw [← htables] at hbid
  obtain ⟨x, hx, _⟩ := hfaithful.bids.exists_chronicle? hbid
  exact hnext hfaithful htables (hfaithful.knows_of_bid hbid) hx

variable (actor id)

/-- Only a member may give a tender another status, and may give it any. -/
theorem Faithful.refusal?_setTenderStatus (status : TenderStatus) :
    refusal? (m.answer (setTenderStatus actor id status)) = m.tables.memberObjection? actor id := by
  refine (hm.refusal?_member_bind fun hn _ hknows hy => ?_).trans (Option.or_none ..)
  exact tenders_lawful.refusal?_setStatus hknows hn.tenders hy status

/-- Only a member may edit a tender. -/
theorem Faithful.refusal?_editTender (content : TenderContent) :
    refusal? (m.answer (editTender actor id content)) = m.tables.memberObjection? actor id := by
  refine (hm.refusal?_member_bind fun hn _ hknows hy => ?_).trans (Option.or_none ..)
  exact tenders_lawful.refusal?_edit hknows hn.tenders hy content

/-- Only a member may roll a tender back, and only to a version that there is. -/
theorem Faithful.refusal?_rollbackTender (version : Int) :
    refusal? (m.answer (rollbackTender actor id version)) =
      (m.tables.memberObjection? actor id).or
        (m.tables.tenders.versionObjection? .tender id version) := by
  refine hm.refusal?_member_bind fun hn htables hknows hy => ?_
  rw [← htables]
  exact tenders_lawful.refusal?_rollback hknows hn.tenders hy version

/-- Only the author may edit a bid. -/
theorem Faithful.refusal?_editBid (content : BidContent) :
    refusal? (m.answer (editBid actor id content)) = m.tables.authorObjection? actor id := by
  refine (hm.refusal?_author_bind fun hn _ hknows hx => ?_).trans (Option.or_none ..)
  exact bids_lawful.refusal?_edit hknows hn.bids hx content

/-- Only the author may roll a bid back, and only to a version that there is. -/
theorem Faithful.refusal?_rollbackBid (version : Int) :
    refusal? (m.answer (rollbackBid actor id version)) =
      (m.tables.authorObjection? actor id).or
        (m.tables.bids.versionObjection? .bid id version) := by
  refine hm.refusal?_author_bind fun hn htables hknows hx => ?_
  rw [← htables]
  exact bids_lawful.refusal?_rollback hknows hn.bids hx version

/-- An author gives a bid another status unless it is that of a decision, or the bid is no longer
its author's to move. -/
theorem Faithful.refusal?_setBidStatus (target : BidStatus) :
    refusal? (m.answer (setBidStatus actor id target)) =
      (m.tables.authorObjection? actor id).or (m.tables.moveObjection? id target) := by
  refine hm.refusal?_author_bind fun {n x} hn htables hknows hx => ?_
  have hstatus : m.tables.bids.status? id = some x.status :=
    htables ▸ congrArg (Option.map Row.status) (hn.bids.row?_of_chronicle? hx)
  have hdecided : target ∈ [BidStatus.approved, .rejected] ↔ target.isDecision = true := by
    cases target <;> simp [BidStatus.isDecision]
  have hmutable : some x.status ∈ [some BidStatus.created, some .published] ↔
      x.status ∈ BidStatus.authorMutable := by
    simp [BidStatus.authorMutable]
  unfold Tables.moveObjection?
  rw [hstatus]
  dsimp only
  by_cases hdecision : target.isDecision = true
  · rw [if_pos (Or.inl (hdecided.mpr hdecision)), if_pos hdecision]
    rfl
  · rw [if_neg hdecision]
    refine (bids_writes.refusal?_setStatusFrom_get hknows hn.bids hx _ target _).trans ?_
    by_cases hmem : x.status ∈ BidStatus.authorMutable
    · have hmovable := not_or.mpr ⟨mt hdecided.mp hdecision, not_not.mpr (hmutable.mpr hmem)⟩
      rw [if_pos hmem, if_neg hmovable]
    · rw [if_neg hmem, if_pos (Or.inr (mt hmutable.mp hmem))]

/-- The bids on a tender are listed for its members. -/
theorem Faithful.refusal?_bidsOn (page : Page) :
    refusal? (m.answer (bidsOn actor id page)) = m.tables.memberObjection? actor id := by
  unfold bidsOn
  rw [(onlyReads_requireListingMember actor id).refusal?_bind fun _ _ _ => rfl,
    answer_requireListingMember, hm.refusal?_requireMember, Option.or_none]

/-- Reviews are shown to members who name the creator of the tender. -/
theorem Faithful.refusal?_reviews (ht : m.tables.HoldsEnds) (author : String) (page : Page) :
    refusal? (m.answer (reviews actor id author page)) =
      (m.tables.memberObjection? actor id).or (m.tables.creatorObjection? author id) := by
  unfold reviews
  rw [← hm.refusal?_requireMember, ← answer_requireListingMember]
  refine (onlyReads_requireListingMember actor id).refusal?_bind fun hpassed {n} hn => ?_
  have hfaithful := hm.of_uncounted hn
  have htables : n.tables = m.tables := tables_of_uncounted hn
  rw [answer_requireListingMember] at hpassed
  obtain ⟨tender, htender, _⟩ := exists_of_answer_requireMember hpassed
  obtain ⟨user, huser, hnamed⟩ := ht.exists_authorOfTender? htender
  have hauthor : n.answer (tenderAuthor id) = .ok user.username := by
    rw [← htables] at htender hnamed
    rw [answer_tenderAuthor, if_pos (hfaithful.knows_of_tender htender), hnamed, found_some]
  unfold Tables.creatorObjection?
  rw [hnamed, answer_bind, hauthor]
  dsimp only
  by_cases hsame : user.username = author
  · have hvalue : (n.after (tenderAuthor id)).answer (userId author) = .ok user.id := by
      rw [(onlyReads_userId author).answer_congr ((onlyReads_tenderAuthor id).after_uncounted n),
        answer_userId, found_eq_ok_iff, hfaithful.value?_eq_some_iff]
      exact ⟨user, htables ▸ huser, hsame, rfl⟩
    rw [if_pos hsame, if_pos (congrArg some hsame), refusal?_eq_none_iff]
    exact ⟨_, answer_bind_eq_ok_iff.mpr ⟨user.id, hvalue, rfl⟩⟩
  · rw [if_neg hsame, if_neg (mt Option.some.inj hsame)]
    rfl

/-- Feedback under a fresh identifier is left by those who act for the tender. -/
theorem Faithful.refusal?_submitFeedback (content : String)
    (hfresh : m.ids.draw.1 ∉ m.tables.feedback.map Feedback.id) :
    refusal? (m.answer (submitFeedback actor id content)) = m.tables.issuerObjection? actor id := by
  have hchecked : submitFeedback actor id content =
      ((bidOrganization id >>= requireResponsible actor) >>= fun _ => do
        let authorId ← userId actor
        let author ← bidAuthor id
        insertFeedback id content authorId author.id) := (bind_assoc _ _ _).symm
  rw [hchecked, (onlyReads_requireIssuer actor id).refusal?_bind, hm.refusal?_requireIssuer,
    Option.or_none]
  intro hpassed n hn
  have hfaithful := hm.of_uncounted hn
  have htables : n.tables = m.tables := tables_of_uncounted hn
  obtain ⟨organizationId, hissued, hresponsible⟩ := answer_bind_eq_ok_iff.mp hpassed
  rw [(onlyReads_requireResponsible actor organizationId).answer_congr
    ((onlyReads_bidOrganization id).after_uncounted m),
    answer_requireResponsible_eq_ok_iff] at hresponsible
  obtain ⟨bid, _, hbid, _⟩ :=
    Tables.exists_of_organizationOfBid? (of_answer_bidOrganization hissued).2
  obtain ⟨authorId, hvalue, _⟩ := hresponsible
  have hnamed : m.tables.Named actor authorId := hm.named_of_value? hvalue
  have hnamed' : n.answer (userId actor) = .ok authorId := by
    rw [(onlyReads_userId actor).answer_congr hn, answer_userId, hvalue, found_some]
  have hread := (onlyReads_userId actor).after_uncounted n
  have hauthor : (n.after (userId actor)).answer (bidAuthor id) = .ok bid.origin.author := by
    rw [(onlyReads_bidAuthor id).answer_congr (hread.trans hn)]
    exact answer_bind_eq_ok_iff.mpr ⟨bid, hm.answer_bidRow hbid, rfl⟩
  have hlast := (((onlyReads_bidAuthor id).after_uncounted _).trans hread).trans hn
  rw [refusal?_eq_none_iff]
  obtain ⟨feedback, hfeedback⟩ := exists_answer_insertFeedback
    (ids_of_uncounted hlast ▸ tables_of_uncounted hlast ▸ hfresh)
    (tables_of_uncounted hlast ▸ Option.isSome_iff_exists.mpr ⟨bid, hbid⟩)
    (tables_of_uncounted hlast ▸ Tables.hasUser_of_named hnamed) content bid.origin.author.id
  exact ⟨feedback, answer_bind_eq_ok_iff.mpr ⟨authorId, hnamed',
    answer_bind_eq_ok_iff.mpr ⟨_, hauthor, hfeedback⟩⟩⟩

end Faithful

end Market

/-- What an answer is put into does not show in the refusal. -/
theorem Operation.refusal?_step {m : Market} {offered : Option String} {op : Operation} {α : Type}
    {work : MarketM α} {form : α → Answer} {objection : Option MarketError}
    (hperform : op.perform = form <$> work)
    (h : refusal? ((m.offer offered).answer work) = objection) :
    refusal? (m.step (.request offered (.operation op))).1 = objection := by
  change refusal? ((m.offer offered).answer op.perform) = _
  rw [hperform, Market.answer_map, refusal?_map, h]

namespace Session

/-- In every run, each guarded operation is refused for the first objection that the tables have to
it, and answered if they have none. To a change of a tender or a look at its bids they object that
the tender is not stored, that no user has the actor's name, or that the user is not responsible; to
a change of a bid likewise, with the author in place of the responsible. Only then comes what is
wrong with the version, the status or the author that is given. -/
theorem guarded_operations_fail_in_order (stage : Stage) (decisionLimit : Option UInt64)
    (steps : List Step) (hsteps : ∀ step ∈ steps, step.learns = false)
    (offered : Option String) :
    let m := ((fresh stage decisionLimit).after steps).market
    let t := m.tables
    let refused op := refusal? (m.step (.request offered (.operation op))).1
    (∀ actor id status, refused (.setTenderStatus actor id status) = t.memberObjection? actor id) ∧
    (∀ actor id content, refused (.editTender actor id content) = t.memberObjection? actor id) ∧
    (∀ actor id version, refused (.rollbackTender actor id version) =
      (t.memberObjection? actor id).or (t.tenders.versionObjection? .tender id version)) ∧
    (∀ actor id page, refused (.bidsOn actor id page) = t.memberObjection? actor id) ∧
    (∀ actor id author page, refused (.reviews actor id author page) =
      (t.memberObjection? actor id).or (t.creatorObjection? author id)) ∧
    (∀ actor id status, refused (.setBidStatus actor id status) =
      (t.authorObjection? actor id).or (t.moveObjection? id status)) ∧
    (∀ actor id content, refused (.editBid actor id content) = t.authorObjection? actor id) ∧
    (∀ actor id version, refused (.rollbackBid actor id version) =
      (t.authorObjection? actor id).or (t.bids.versionObjection? .bid id version)) ∧
    ((m.offer offered).ids.draw.1 ∉ t.feedback.map Feedback.id → ∀ actor id content,
      refused (.submitFeedback actor id content) = t.issuerObjection? actor id) ∧
    ∀ id, t.organizationOfBid? id = none ↔ id ∉ t.bids.ids := by
  intro m t refused
  have hm : m.Faithful := faithful_after (faithful_fresh stage decisionLimit) hsteps
  have hoffered : (m.offer offered).Faithful := faithful_offer hm offered
  have hends : (m.offer offered).tables.HoldsEnds := holdsEnds_after stage decisionLimit steps
  refine ⟨?_, ?_, ?_, ?_, ?_, ?_, ?_, ?_, ?_, ?_⟩
  · intro actor id status
    exact Operation.refusal?_step rfl (hoffered.refusal?_setTenderStatus actor id status)
  · intro actor id content
    exact Operation.refusal?_step rfl (hoffered.refusal?_editTender actor id content)
  · intro actor id version
    exact Operation.refusal?_step rfl (hoffered.refusal?_rollbackTender actor id version)
  · intro actor id page
    exact Operation.refusal?_step rfl (hoffered.refusal?_bidsOn actor id page)
  · intro actor id author page
    exact Operation.refusal?_step rfl (hoffered.refusal?_reviews actor id hends author page)
  · intro actor id status
    exact Operation.refusal?_step rfl (hoffered.refusal?_setBidStatus actor id status)
  · intro actor id content
    exact Operation.refusal?_step rfl (hoffered.refusal?_editBid actor id content)
  · intro actor id version
    exact Operation.refusal?_step rfl (hoffered.refusal?_rollbackBid actor id version)
  · intro hfresh actor id content
    exact Operation.refusal?_step rfl (hoffered.refusal?_submitFeedback actor id content hfresh)
  · exact (holdsTenders_after stage decisionLimit steps).organizationOfBid?_eq_none_iff

/-- A stranger is not found before the version is, which a member is told is missing, and feedback
passes. -/
theorem guarded_operations_fail_in_order_rollback :
    let m := ((fresh .assembled none).after biddingRun).market
    let refused op := refusal? (m.step (.request (some "f") (.operation op))).1
    (∀ step ∈ biddingRun, step.learns = false) ∧
      refused (.rollbackTender "bob" "t" 2) = some (.notFound .user "bob") ∧
      refused (.rollbackTender "ann" "t" 2) = some (.invalidVersion .tender "t" 2) ∧
      refused (.submitFeedback "ann" "b" "sturdy") = none := by
  intro m refused
  have hlearns : ∀ step ∈ biddingRun, step.learns = false := by decide
  obtain ⟨_, _, hrollback, _, _, _, _, _, hfeedback, _⟩ :=
    guarded_operations_fail_in_order .assembled none biddingRun hlearns (some "f")
  refine ⟨hlearns, ?_, ?_, ?_⟩
  · exact (hrollback "bob" "t" 2).trans (by decide)
  · exact (hrollback "ann" "t" 2).trans (by decide)
  · exact (hfeedback (by decide) "ann" "b" "sturdy").trans (by decide)

end Session

end Procurement

import Procurement.Proofs.Objections
import Procurement.Proofs.Work

/-!
# Creating users, links, tenders and bids

What is created needs a free name or link and refers to what must be stored. The tables refuse a
row for a taken key before they look at what it refers to, and say nothing of which part was
missing; the checks before the insertion make the refusal tell. What was accepted is read back as
it was given, in its first status and version.
-/

namespace Procurement

/-! ## What the tables object to -/

namespace Tables

/-- Why no user can be created under a username: it is taken. -/
def nameObjection? (t : Tables) (username : String) : Option MarketError :=
  if ∃ user ∈ t.users, user.username = username then some (.alreadyExists .user username)
  else none

/-- Why a user cannot be made responsible for an organization: no user has the name, the
organization is not stored, or the user is responsible for it already. -/
def linkObjection? (t : Tables) (username organizationId : String) : Option MarketError :=
  if ∀ user ∈ t.users, user.username ≠ username then some (.notFound .user username)
  else if ¬ t.hasOrganization organizationId = true then
    some (.referentialIntegrity .organization)
  else if t.ActsFor username organizationId then
    some (.alreadyExists .organization organizationId)
  else none

/-- Why a bid cannot be created: its author is not stored in the table of its type, or its tender is
not stored. -/
def bidObjection? (t : Tables) (tenderId : String) (author : Author) : Option MarketError :=
  if ¬ t.hasAuthor author = true then some (.referentialIntegrity (Market.authorKind author.type))
  else if tenderId ∉ t.tenders.ids then some (.referentialIntegrity .tender)
  else none

/-- Without objection to a bid, its author and its tender are stored. -/
theorem of_bidObjection?_eq_none {t : Tables} {tenderId : String} {author : Author}
    (h : t.bidObjection? tenderId author = none) :
    t.hasAuthor author = true ∧ tenderId ∈ t.tenders.ids := by
  unfold bidObjection? at h
  split at h
  · cases h
  · rename_i hauthor
    split at h
    · cases h
    · rename_i htender
      exact ⟨not_not.mp hauthor, not_not.mp htender⟩

end Tables

/-- The reply to a request and the market after it, if the request creates an entity with one
version of its content: the entity is answered, and found when it is asked for. -/
structure ReadsBack {Status Origin Content : Type} (forms : Answer.Forms Status Origin Content)
    (get history : String → Operation) (next : Reply × Market)
    (entity : Entity Status Origin Content) : Prop where
  answer : next.1 = .ok (forms.entity entity)
  get : ∀ offered, (next.2.step (.request offered (.operation (get entity.id)))).1 =
    .ok (forms.entity entity)
  history : ∀ offered, (next.2.step (.request offered (.operation (history entity.id)))).1 =
    .ok (forms.history [⟨entity.id, 1, entity.content⟩])

namespace Catalogue

open Market

variable {Status Origin Content : Type} {c : Catalogue Status Origin Content} {m : Market}

/-! ## Additions to a catalogue -/

/-- A request that is answered with an entity of the given chronicle, and leaves it stored and known
under the identifier. -/
structure Creates (c : Catalogue Status Origin Content) (m : Market)
    (request : MarketM (Entity Status Origin Content)) (id : String)
    (x : Chronicle Status Origin Content) : Prop where
  answer : m.answer request = .ok (x.entity id)
  knows : (c.cache (m.after request).caches).knows id = true
  dense : (c.register (m.after request).tables).Dense
  chronicle : (c.register (m.after request).tables).chronicle? id = some x

/-- After an accepted request, what the next one creates is created by both. -/
theorem Creates.bind {α : Type} {first : MarketM α}
    {next : α → MarketM (Entity Status Origin Content)} {a : α} {id : String}
    {x : Chronicle Status Origin Content} (ha : m.answer first = .ok a)
    (h : c.Creates (m.after first) (next a) id x) : c.Creates m (first >>= next) id x := by
  have hafter := after_bind_of_answer ha next
  exact ⟨answer_bind_eq_ok_iff.mpr ⟨a, ha, h.answer⟩, hafter ▸ h.knows, hafter ▸ h.dense,
    hafter ▸ h.chronicle⟩

/-- Under a fresh identifier an entity is added just if all that it refers to is stored. -/
theorem answer_insert (hfresh : m.ids.draw.1 ∉ (c.register m.tables).ids) (origin : Origin)
    (content : Content) :
    m.answer (c.insert origin content) =
      if c.supports m.tables origin then .ok m.ids.draw.1
      else .error (.referentialIntegrity c.referenced) := by
  have hrow : ((c.register m.tables).row? m.ids.draw.1).isSome = false := by
    rw [← Bool.not_eq_true, Register.isSome_row?_iff]
    exact hfresh
  unfold insert
  rw [answer_bind, answer_drawId, after_drawId]
  dsimp only
  rw [answer_bind, answer_get, after_get]
  dsimp only
  rw [answer_bind, answer_store]
  unfold Register.insert?
  rw [hrow]
  simp only [Bool.false_eq_true, if_false]
  by_cases hsupports : c.supports m.tables origin = true
  · rw [if_pos hsupports, if_pos hsupports]
    rfl
  · rw [if_neg hsupports, if_neg hsupports]

/-- What was added is read at once. -/
theorem Lawful.creates_insert_get (hc : c.Lawful) (hdense : (c.register m.tables).Dense)
    (hsettled : m.transaction = none) (hfresh : m.ids.draw.1 ∉ (c.register m.tables).ids)
    {origin : Origin} (hsupports : c.supports m.tables origin = true) (content : Content) :
    c.Creates m (c.insert origin content >>= fun id => c.get id) m.ids.draw.1
      { origin, createdAt := m.now, status := c.initial, first := content } := by
  have hadded := answer_insert hfresh origin content
  rw [if_pos hsupports] at hadded
  rcases c.insert_cases m origin content with ⟨refusal, hrefused, _⟩ |
    ⟨id, register, hinsert, hanswer, hafter⟩
  · cases hadded.symm.trans hrefused
  obtain rfl := Except.ok.inj (hadded.symm.trans hanswer)
  have hstored : c.register (m.after (c.insert origin content)).tables = register := by
    rw [hafter, tables_registered, hc.register_setRegister]
  have hknows : (c.cache (m.after (c.insert origin content)).caches).knows m.ids.draw.1 = true := by
    rw [hafter]
    unfold registered
    rw [hsettled]
    dsimp only
    rw [hc.applyTo_registration, hc.cache_setCache]
    exact ExistenceCache.knows_add _ _
  have hx := hdense.chronicle?_of_insert? hinsert m.ids.draw.1
  rw [if_pos rfl] at hx
  have hread := (hc.onlyReads_get m.ids.draw.1).after_uncounted (m.after (c.insert origin content))
  refine .bind hadded ⟨?_, ?_, ?_, ?_⟩
  · exact hc.answer_get_of_chronicle? hknows (hstored ▸ hdense.of_insert? hinsert) (hstored ▸ hx)
  · rw [hc.knows_congr (caches_of_uncounted hread)]
    exact hknows
  · rw [tables_of_uncounted hread, hstored]
    exact hdense.of_insert? hinsert
  · rw [tables_of_uncounted hread, hstored]
    exact hx

/-- Look-ups before it do not show in what was added. -/
theorem Lawful.creates_insert_get_of_uncounted (hc : c.Lawful) {n : Market}
    (hn : n.uncounted = m.uncounted) (hdense : (c.register m.tables).Dense)
    (hsettled : m.transaction = none) (hfresh : m.ids.draw.1 ∉ (c.register m.tables).ids)
    {origin : Origin} (hsupports : c.supports m.tables origin = true) (content : Content) :
    c.Creates n (c.insert origin content >>= fun id => c.get id) m.ids.draw.1
      { origin, createdAt := m.now, status := c.initial, first := content } := by
  have htables : n.tables = m.tables := tables_of_uncounted hn
  have hids : n.ids = m.ids := ids_of_uncounted hn
  have hnow : n.now = m.now := now_of_contents (contents_of_uncounted hn)
  rw [← htables] at hdense hsupports
  rw [← hids, ← hnow]
  refine hc.creates_insert_get hdense ((transaction_of_uncounted hn).trans hsettled) ?_ hsupports
    content
  rw [hids, htables]
  exact hfresh

/-- What a request creates, the operation that makes it creates for everyone to read. -/
theorem Creates.readsBack (hc : c.Lawful) {forms : Answer.Forms Status Origin Content}
    {get history : String → Operation} (hget : ∀ id, (get id).perform = forms.entity <$> c.get id)
    (hhistory : ∀ id, (history id).perform = forms.history <$> c.history id) {op : Operation}
    {request : MarketM (Entity Status Origin Content)} (hop : op.perform = forms.entity <$> request)
    {offered : Option String} {id : String} {x : Chronicle Status Origin Content}
    (hfirst : x.later = []) (h : c.Creates (m.offer offered) request id x) :
    ReadsBack forms get history (m.step (.request offered (.operation op))) (x.entity id) := by
  have hreply : (m.step (.request offered (.operation op))).1 =
      (m.offer offered).answer op.perform := rfl
  have hnext : (m.step (.request offered (.operation op))).2 =
      (m.offer offered).after op.perform := rfl
  rw [hop, answer_map, h.answer] at hreply
  rw [hop, after_map] at hnext
  have hversions : x.history id = [⟨id, 1, x.content⟩] := by
    obtain ⟨_, _, _, first, later⟩ := x
    obtain rfl : later = [] := hfirst
    rfl
  refine ⟨hreply, fun offered' => ?_, fun offered' => ?_⟩
  · let n := ((m.offer offered).after request).offer offered'
    have hread : n.answer (c.get id) = .ok (x.entity id) :=
      hc.answer_get_of_chronicle? (m := n) h.knows h.dense h.chronicle
    rw [hnext]
    change n.answer (get id).perform = _
    rw [hget, answer_map, hread]
    rfl
  · let n := ((m.offer offered).after request).offer offered'
    have hread : n.answer (c.history id) = .ok (x.history id) :=
      hc.answer_history_of_chronicle? (m := n) h.knows h.dense h.chronicle
    rw [hnext]
    change n.answer (history id).perform = _
    rw [hhistory, answer_map, hread, hversions]
    rfl

end Catalogue

namespace Market

variable {m : Market}

/-! ## Users and links -/

/-- Under a fresh identifier a user is refused just for the username. -/
theorem refusal?_createUser (hfresh : m.ids.draw.1 ∉ m.tables.users.map User.id)
    (username firstName lastName : String) :
    refusal? (m.answer (createUser username firstName lastName)) =
      m.tables.nameObjection? username := by
  have hid : ∀ user ∈ m.tables.users, user.id ≠ m.ids.draw.1 := by
    intro user huser hsame
    exact hfresh (hsame ▸ List.mem_map_of_mem huser)
  have htaken : (m.tables.users.any fun u => u.id == m.ids.draw.1 || u.username == username) =
      true ↔ ∃ user ∈ m.tables.users, user.username = username := by
    rw [List.any_eq_true]
    refine exists_congr fun user => and_congr_right fun huser => ?_
    rw [Bool.or_eq_true, beq_iff_eq, beq_iff_eq]
    exact or_iff_right (hid user huser)
  unfold createUser
  rw [answer_bind, answer_drawId, after_drawId]
  dsimp only
  rw [answer_bind, answer_get, after_get]
  dsimp only
  rw [answer_bind, answer_store]
  unfold Tables.addUser Tables.nameObjection?
  by_cases hname : ∃ user ∈ m.tables.users, user.username = username
  · rw [if_pos hname, if_pos (htaken.mpr hname)]
    rfl
  · rw [if_neg hname, if_neg (mt htaken.mp hname)]
    rfl

section Faithful

variable (hm : m.Faithful)

include hm

/-- A username is resolved just if some user has it. -/
theorem Faithful.answer_userId_cases (username : String) :
    (m.answer (userId username) = .error (.notFound .user username) ∧
        ∀ user ∈ m.tables.users, user.username ≠ username) ∨
      ∃ userId', m.answer (userId username) = .ok userId' ∧ m.tables.Named username userId' := by
  rw [answer_userId]
  cases hvalue : m.caches.users.value? username with
  | none => exact Or.inl ⟨rfl, (hm.value?_eq_none_iff username).mp hvalue⟩
  | some userId' => exact Or.inr ⟨userId', rfl, hm.named_of_value? hvalue⟩

/-- Under a fresh identifier a link is refused for an unknown username, an organization that is not
stored, or because it exists, in this order: an existing link has an organization. -/
theorem Faithful.refusal?_makeResponsible (ht : m.tables.HoldsEnds)
    (hfresh : m.ids.draw.1 ∉ m.tables.responsibilities.map Responsibility.id)
    (organizationId username : String) :
    refusal? (m.answer (makeResponsible organizationId username)) =
      m.tables.linkObjection? username organizationId := by
  unfold makeResponsible Tables.linkObjection?
  rw [Market.answer_bind]
  rcases hm.answer_userId_cases username with ⟨hasked, hunknown⟩ | ⟨userId', hasked, hnamed⟩
  · rw [hasked, if_pos hunknown]
    rfl
  have hknown : ¬ ∀ user ∈ m.tables.users, user.username ≠ username := by
    obtain ⟨user, huser, hname, _⟩ := hnamed
    intro hnone
    exact hnone user huser hname
  have hread := (onlyReads_userId username).after_uncounted m
  generalize m.after (userId username) = n at hread
  have htables : n.tables = m.tables := tables_of_uncounted hread
  have hnew : (m.tables.responsibilities.any fun l => l.id == m.ids.draw.1) = false := by
    simpa using hfresh
  rw [hasked, if_neg hknown]
  dsimp only
  rw [answer_bind, answer_drawId, after_drawId]
  dsimp only
  rw [answer_store, htables, ids_of_uncounted hread]
  unfold Tables.addResponsibility
  simp only [hnew, Tables.hasUser_of_named hnamed, Bool.and_true, Bool.false_eq_true, if_false]
  have hlinked := hm.keyed.actsFor_iff hnamed organizationId
  by_cases hacts : m.tables.ActsFor username organizationId
  · have hresponsible := hlinked.mp hacts
    have hstored := Tables.hasOrganization_of_isResponsible ht.link hresponsible
    rw [if_pos hresponsible, if_neg (not_not.mpr hstored), if_pos hacts]
    rfl
  · rw [if_neg (mt hlinked.mpr hacts), if_neg hacts]
    by_cases hstored : m.tables.hasOrganization organizationId = true
    · rw [if_pos hstored, if_neg (not_not.mpr hstored)]
      rfl
    · rw [if_neg hstored, if_pos hstored]
      rfl

/-! ## Tenders and bids -/

/-- A tender is created by whoever acts for the organization, under the identifier of that user. -/
theorem Faithful.creates_createTender (ht : m.tables.HoldsEnds)
    (hfresh : m.ids.draw.1 ∉ m.tables.tenders.ids) {actor organizationId : String}
    (hpassed : m.tables.actorObjection? actor organizationId = none) (content : TenderContent) :
    ∃ creatorId, m.tables.Named actor creatorId ∧
      tenders.Creates m (createTender actor organizationId content) m.ids.draw.1
        { origin := ⟨organizationId, creatorId⟩, createdAt := m.now, status := .created,
          first := content } := by
  rw [← hm.refusal?_requireResponsible, refusal?_eq_none_iff] at hpassed
  obtain ⟨_, hpassed⟩ := hpassed
  obtain ⟨creatorId, hvalue, hresponsible⟩ :=
    (answer_requireResponsible_eq_ok_iff m actor organizationId).mp hpassed
  have hnamed := hm.named_of_value? hvalue
  have hlinks := Tables.hasOrganization_of_isResponsible ht.link hresponsible
  refine ⟨creatorId, hnamed, .bind hpassed ?_⟩
  have hcreated : (insertTender organizationId actor content >>= fun id => tenders.get id) =
      userId actor >>= fun creatorId =>
        tenders.insert { organizationId, creatorId } content >>= fun id => tenders.get id :=
    bind_assoc _ _ _
  have hchecked := (onlyReads_requireResponsible actor organizationId).after_uncounted m
  generalize m.after (requireResponsible actor organizationId) = n at hchecked
  have hknown : n.answer (userId actor) = .ok creatorId := by
    rw [(onlyReads_userId actor).answer_congr hchecked, answer_userId, hvalue, found_some]
  have hread := ((onlyReads_userId actor).after_uncounted n).trans hchecked
  have hsupports : m.tables.supportsTender ⟨organizationId, creatorId⟩ = true :=
    Bool.and_eq_true_iff.mpr ⟨hlinks, Tables.hasUser_of_named hnamed⟩
  rw [hcreated]
  exact .bind hknown
    (tenders_lawful.creates_insert_get_of_uncounted hread hm.tenders hm.settled hfresh hsupports
      content)

/-- A tender is refused just for the actor: whoever is responsible for an organization is stored,
and so is the organization. -/
theorem Faithful.refusal?_createTender (ht : m.tables.HoldsEnds)
    (hfresh : m.ids.draw.1 ∉ m.tables.tenders.ids) (actor organizationId : String)
    (content : TenderContent) :
    refusal? (m.answer (createTender actor organizationId content)) =
      m.tables.actorObjection? actor organizationId := by
  cases hobjection : m.tables.actorObjection? actor organizationId with
  | none =>
    obtain ⟨_, _, hcreates⟩ := hm.creates_createTender ht hfresh hobjection content
    rw [hcreates.answer, refusal?_ok]
  | some refusal =>
    rw [← hm.refusal?_requireResponsible, refusal?_eq_some_iff] at hobjection
    exact refusal?_eq_some_iff.mpr (answer_bind_of_error hobjection)

/-- A bid is created if its author and its tender are stored. -/
theorem Faithful.creates_createBid (hfresh : m.ids.draw.1 ∉ m.tables.bids.ids) {tenderId : String}
    {author : Author} (hauthor : m.tables.hasAuthor author = true)
    (htender : tenderId ∈ m.tables.tenders.ids) (content : BidContent) :
    bids.Creates m (createBid tenderId author content) m.ids.draw.1
      { origin := ⟨tenderId, author⟩, createdAt := m.now, status := .created,
        first := content } := by
  have hfound : m.answer (authorExists author) = .ok true := by
    rw [answer_authorExists, hauthor]
  have hread := (onlyReads_authorExists author).after_uncounted m
  have hsupports : m.tables.supportsBid ⟨tenderId, author⟩ = true :=
    (Register.isSome_row?_iff tenderId).mpr htender
  exact .bind hfound (bids_lawful.creates_insert_get_of_uncounted hread hm.bids hm.settled hfresh
    hsupports content)

/-- A bid is refused for its author first, and then for its tender. -/
theorem Faithful.refusal?_createBid (hfresh : m.ids.draw.1 ∉ m.tables.bids.ids) (tenderId : String)
    (author : Author) (content : BidContent) :
    refusal? (m.answer (createBid tenderId author content)) =
      m.tables.bidObjection? tenderId author := by
  unfold Tables.bidObjection?
  by_cases hauthor : m.tables.hasAuthor author = true
  · rw [if_neg (not_not.mpr hauthor)]
    by_cases htender : tenderId ∈ m.tables.tenders.ids
    · have hcreates := hm.creates_createBid hfresh hauthor htender content
      rw [if_neg (not_not.mpr htender), hcreates.answer, refusal?_ok]
    · have hfound : m.answer (authorExists author) = .ok true := by
        rw [answer_authorExists, hauthor]
      have hread := (onlyReads_authorExists author).after_uncounted m
      generalize hn : m.after (authorExists author) = n at hread
      have htables : n.tables = m.tables := tables_of_uncounted hread
      have hfresh' : n.ids.draw.1 ∉ n.tables.bids.ids := by
        rw [ids_of_uncounted hread, htables]
        exact hfresh
      have hunsupported : ¬ n.tables.supportsBid ⟨tenderId, author⟩ = true := by
        rw [htables]
        exact mt (Register.isSome_row?_iff tenderId).mp htender
      have hrefused : n.answer (bids.insert ⟨tenderId, author⟩ content) =
          .error (.referentialIntegrity .tender) :=
        (Catalogue.answer_insert hfresh' _ content).trans (if_neg hunsupported)
      rw [if_pos htender, refusal?_eq_some_iff]
      unfold createBid
      rw [answer_bind, hfound, hn]
      exact answer_bind_of_error hrefused
  · have hmissed : m.answer (authorExists author) = .ok false := by
      rw [answer_authorExists, (Bool.not_eq_true _).mp hauthor]
    rw [if_pos hauthor]
    unfold createBid
    rw [answer_bind, hmissed]
    rfl

end Faithful

end Market

namespace Session

/-- In every run, under fresh identifiers, users, links, tenders and bids are refused for the first
objection that the tables have to them, and created if they have none. A tender or bid that was
created is answered in its first status and version, with what was given, and reads back so with a
history of this one version. -/
theorem creations_follow_tables (stage : Stage) (decisionLimit : Option UInt64)
    (steps : List Step) (hsteps : ∀ step ∈ steps, step.learns = false)
    (offered : Option String) :
    let m := ((fresh stage decisionLimit).after steps).market
    let t := m.tables
    let id := (m.offer offered).ids.draw.1
    let next op := m.step (.request offered (.operation op))
    let refused op := refusal? (next op).1
    (id ∉ t.users.map User.id → ∀ username firstName lastName,
      refused (.createUser username firstName lastName) = t.nameObjection? username) ∧
    (id ∉ t.responsibilities.map Responsibility.id → ∀ organizationId username,
      refused (.makeResponsible organizationId username) =
        t.linkObjection? username organizationId) ∧
    (id ∉ t.tenders.ids → ∀ actor organizationId content,
      refused (.createTender actor organizationId content) =
          t.actorObjection? actor organizationId ∧
        (t.actorObjection? actor organizationId = none → ∃ creatorId, t.Named actor creatorId ∧
          ReadsBack Answer.tenderForms .getTender .tenderHistory
            (next (.createTender actor organizationId content))
            ⟨id, .created, ⟨organizationId, creatorId⟩, 1, m.now, content⟩)) ∧
    (id ∉ t.bids.ids → ∀ tenderId author content,
      refused (.createBid tenderId author content) = t.bidObjection? tenderId author ∧
        (t.bidObjection? tenderId author = none →
          ReadsBack Answer.bidForms .getBid .bidHistory (next (.createBid tenderId author content))
            ⟨id, .created, ⟨tenderId, author⟩, 1, m.now, content⟩)) := by
  intro m t id next refused
  have hm : m.Faithful := faithful_after (faithful_fresh stage decisionLimit) hsteps
  have hoffered : (m.offer offered).Faithful := faithful_offer hm offered
  have hends : (m.offer offered).tables.HoldsEnds := holdsEnds_after stage decisionLimit steps
  refine ⟨?_, ?_, ?_, ?_⟩
  · intro hfresh username firstName lastName
    exact Operation.refusal?_step rfl
      (Market.refusal?_createUser hfresh username firstName lastName)
  · intro hfresh organizationId username
    have hdone : (Operation.makeResponsible organizationId username).perform =
        (fun _ => Answer.done) <$> Market.makeResponsible organizationId username :=
      (map_eq_pure_bind _ _).symm
    exact Operation.refusal?_step hdone
      (hoffered.refusal?_makeResponsible hends hfresh organizationId username)
  · intro hfresh actor organizationId content
    refine ⟨Operation.refusal?_step rfl
      (hoffered.refusal?_createTender hends hfresh actor organizationId content), fun hpassed => ?_⟩
    obtain ⟨creatorId, hnamed, hcreates⟩ :=
      hoffered.creates_createTender hends hfresh hpassed content
    exact ⟨creatorId, hnamed,
      hcreates.readsBack tenders_lawful (fun _ => rfl) (fun _ => rfl) rfl rfl⟩
  · intro hfresh tenderId author content
    refine ⟨Operation.refusal?_step rfl
      (hoffered.refusal?_createBid hfresh tenderId author content), fun hpassed => ?_⟩
    obtain ⟨hauthor, htender⟩ := Tables.of_bidObjection?_eq_none hpassed
    exact (hoffered.creates_createBid hfresh hauthor htender content).readsBack bids_lawful
      (fun _ => rfl) (fun _ => rfl) rfl rfl

/-- Beside the bid of a user another is created, which reads back. The name of the user is taken,
and no organization of another identifier can be linked to the user. -/
theorem creations_follow_tables_bidding :
    let m := ((fresh .assembled none).after biddingRun).market
    let next op := m.step (.request (some "c") (.operation op))
    (∀ step ∈ biddingRun, step.learns = false) ∧
      refusal? (next (.createUser "ann" "" "")).1 = some (.alreadyExists .user "ann") ∧
      refusal? (next (.makeResponsible "p" "ann")).1 =
        some (.referentialIntegrity .organization) ∧
      ReadsBack Answer.bidForms .getBid .bidHistory
        (next (.createBid "t" ⟨.organization, "o"⟩ ⟨"sand", ""⟩))
        ⟨"c", .created, ⟨"t", ⟨.organization, "o"⟩⟩, 1, Instant.initial, ⟨"sand", ""⟩⟩ := by
  intro m next
  have hlearns : ∀ step ∈ biddingRun, step.learns = false := by decide
  obtain ⟨huser, hlink, _, hbid⟩ :=
    creations_follow_tables .assembled none biddingRun hlearns (some "c")
  refine ⟨hlearns, ?_, ?_, ?_⟩
  · exact (huser (by decide) "ann" "" "").trans (by decide)
  · exact (hlink (by decide) "p" "ann").trans (by decide)
  · exact (hbid (by decide) "t" ⟨.organization, "o"⟩ ⟨"sand", ""⟩).2 (by decide)

end Session

end Procurement

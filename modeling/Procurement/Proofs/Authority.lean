import Procurement.Proofs.Differences

/-!
# Who may write what

A policy says which writes an actor may make, judged by the tables before them.
Every write of an accepted operation is either open to anyone or allowed to the
actor of the operation. What has changed in the tables can be traced back to
such a write; hence whatever an operation changes lay within the authority of
its actor.
-/

namespace Procurement

/-! ## The policy -/

namespace Tables

/-- Whether a user of that name is stored under the identifier. -/
def Named (t : Tables) (actor userId : String) : Prop :=
  ∃ user ∈ t.users, user.username = actor ∧ user.id = userId

/-- Whether a user of that name is stored as responsible for the organization. -/
def ActsFor (t : Tables) (actor organizationId : String) : Prop :=
  ∃ user ∈ t.users, user.username = actor ∧ t.isResponsible organizationId user.id = true

/-- Whether a user of that name is stored as the author, or as responsible for the organization
that is. -/
def Authored (t : Tables) (actor : String) (author : Author) : Prop :=
  match author.type with
  | .user => t.Named actor author.id
  | .organization => t.ActsFor actor author.id

/-- What an actor may write. -/
inductive Permits (t : Tables) (actor : String) : Write → Prop
  | newTender {id : String} {origin : TenderOrigin} {createdAt : Instant}
      {content : TenderContent} (hcreator : t.Named actor origin.creatorId)
      (hmember : t.ActsFor actor origin.organizationId) :
      Permits t actor (.tender (.insert id origin createdAt content))
  | tender {change : Change TenderStatus TenderOrigin TenderContent} {id : String}
      {tender : Row TenderStatus TenderOrigin} (haltered : change.altered? = some id)
      (htender : t.tenders.row? id = some tender)
      (hmember : t.ActsFor actor tender.origin.organizationId) : Permits t actor (.tender change)
  | bidStatus {id : String} {status : BidStatus} {bid : Row BidStatus BidOrigin}
      (hstatus : status.isDecision = false) (hbid : t.bids.row? id = some bid)
      (hauthor : t.Authored actor bid.origin.author) :
      Permits t actor (.bid (.setStatus id status))
  | bidContent {change : Change BidStatus BidOrigin BidContent} {id : String}
      {bid : Row BidStatus BidOrigin} (hrevises : change.revises id = true)
      (hbid : t.bids.row? id = some bid) (hauthor : t.Authored actor bid.origin.author) :
      Permits t actor (.bid change)
  | decision {id : String} {status : BidStatus} (hstatus : status.isDecision = true)
      (hdecider : t.MayDecide actor id) : Permits t actor (.bid (.setStatus id status))
  | feedback {f : Feedback} {bid : Row BidStatus BidOrigin} (hauthor : t.Named actor f.authorId)
      (hbid : t.bids.row? f.bidId = some bid) (hreceiver : f.receiverId = bid.origin.author.id)
      (hdecider : t.MayDecide actor f.bidId) : Permits t actor (.feedback f)

end Tables

/-- Whether anyone may make such a write: no authority is needed to add a user, an organization,
someone responsible for one, or a bid. -/
def Write.isOpen : Write → Bool
  | .user _ | .organization _ | .responsibility _ | .bid (.insert _ _ _ _) => true
  | _ => false

/-- In whose name an operation is asked for. -/
def Operation.actor? : Operation → Option String
  | createTender actor _ _ | setTenderStatus actor _ _ | editTender actor _ _
  | rollbackTender actor _ _ | bidsOn actor _ _ | setBidStatus actor _ _ | editBid actor _ _
  | rollbackBid actor _ _ | submitDecision actor _ _ | submitFeedback actor _ _
  | reviews actor _ _ _ => some actor
  | _ => none

/-! ## What the checks tell -/

namespace Market

section Faithful

variable {m : Market} (hm : m.Faithful) {actor : String}

include hm

/-- What a known username stands for is stored under that name. -/
theorem Faithful.named_of_value? {userId : String}
    (h : m.caches.users.value? actor = some userId) : m.tables.Named actor userId :=
  (hm.value?_eq_some_iff actor userId).mp h

/-- Who passes for responsible is stored as responsible. -/
theorem Faithful.actsFor_of_knowsResponsible {organizationId : String}
    (h : m.knowsResponsible actor organizationId) : m.tables.ActsFor actor organizationId := by
  obtain ⟨userId, huserId, hresponsible⟩ := h
  obtain ⟨user, hstored, hname, rfl⟩ := hm.named_of_value? huserId
  exact ⟨user, hstored, hname, hresponsible⟩

/-- Who passes for the author is stored as the author. -/
theorem Faithful.authored_of_knowsAuthor {author : Author} (h : m.knowsAuthor actor author) :
    m.tables.Authored actor author := by
  obtain ⟨type, id⟩ := author
  cases type with
  | user => exact hm.named_of_value? h
  | organization => exact hm.actsFor_of_knowsResponsible h

/-- Who is responsible for the organization of a bid's tender may decide on the bid. -/
theorem Faithful.mayDecide_of_knowsResponsible {bidId organizationId : String}
    (hissued : m.tables.organizationOfBid? bidId = some organizationId)
    (h : m.knowsResponsible actor organizationId) : m.tables.MayDecide actor bidId :=
  ⟨organizationId, hissued, hm.actsFor_of_knowsResponsible h⟩

end Faithful

variable {m : Market}

/-- What is written in the name of a user needs a username that stands for something. -/
theorem exists_of_mem_writesOf {username : String} {write : String → Write} {w : Write}
    (h : w ∈ m.writesOf username write) :
    ∃ userId, m.caches.users.value? username = some userId ∧ w = write userId := by
  obtain ⟨userId, huserId, rfl⟩ := List.mem_map.mp h
  exact ⟨userId, Option.mem_toList.mp huserId, rfl⟩

/-- What a member does to a tender is permitted. -/
theorem Faithful.permits_of_requireMember {α : Type} (hm : m.Faithful) {actor id : String}
    {next : Unit → MarketM α} {a : α} (h : m.answer (requireMember actor id >>= next) = .ok a)
    {change : Change TenderStatus TenderOrigin TenderContent}
    (haltered : change.altered? = some id) : m.tables.Permits actor (.tender change) := by
  obtain ⟨_, hmember, _⟩ := answer_bind_eq_ok_iff.mp h
  obtain ⟨tender, htender, hknown⟩ := exists_of_answer_requireMember hmember
  exact .tender haltered htender (hm.actsFor_of_knowsResponsible hknown)

/-- Who does something to a bid as its author is stored as its author. -/
theorem Faithful.authored_of_requireAuthor {α : Type} (hm : m.Faithful) {actor id : String}
    {next : Unit → MarketM α} {a : α} (h : m.answer (requireAuthor actor id >>= next) = .ok a) :
    ∃ bid, m.tables.bids.row? id = some bid ∧ m.tables.Authored actor bid.origin.author := by
  obtain ⟨_, hauthor, _⟩ := answer_bind_eq_ok_iff.mp h
  obtain ⟨bid, hbid, hknown⟩ := exists_of_answer_requireAuthor hauthor
  exact ⟨bid, hbid, hm.authored_of_knowsAuthor hknown⟩

/-- Only those leave feedback who may decide on the bid. -/
theorem Faithful.mayDecide_of_submitFeedback (hm : m.Faithful) {actor bidId content : String}
    {feedback : Feedback} (h : m.answer (submitFeedback actor bidId content) = .ok feedback) :
    m.tables.MayDecide actor bidId := by
  obtain ⟨organizationId, m', horganization, hm', hguarded⟩ :=
    (onlyReads_bidOrganization bidId).exists_of_answer_bind rfl h
  obtain ⟨_, hresponsible, _⟩ := answer_bind_eq_ok_iff.mp hguarded
  rw [(onlyReads_requireResponsible actor organizationId).answer_congr hm'] at hresponsible
  exact hm.mayDecide_of_knowsResponsible (of_answer_bidOrganization horganization).2
    ((answer_requireResponsible_eq_ok_iff m actor organizationId).mp hresponsible)

/-- What a decision writes is permitted to those who may decide. -/
theorem permits_of_mem_decisionWrites {actor bidId : String} {decision : Decision}
    (h : m.tables.MayDecide actor bidId) {write : Write}
    (hwrite : write ∈ m.decisionWrites bidId decision) : m.tables.Permits actor write := by
  rcases List.mem_cons.mp hwrite with rfl | hclosing
  · exact .decision (by cases decision <;> rfl) h
  · unfold closingWrites at hclosing
    split at hclosing
    · obtain ⟨bid, hbid, rfl⟩ := List.mem_map.mp hclosing
      obtain ⟨organizationId, hissued, hacts⟩ := h
      obtain ⟨bid', tender, hbid', htender, rfl⟩ := Tables.exists_of_organizationOfBid? hissued
      obtain rfl := Option.some.inj ((Option.mem_toList.mp hbid).symm.trans hbid')
      exact .tender rfl htender hacts
    · cases hclosing

end Market

/-- Every write of an accepted operation is open to anyone, or permitted to its actor. -/
theorem Operation.permitted {m : Market} (hm : m.Faithful) {op : Operation} {answer : Answer}
    (h : m.answer op.perform = .ok answer) {write : Write} (hwrite : write ∈ op.writes m) :
    write.isOpen = true ∨ ∃ actor, op.actor? = some actor ∧ m.tables.Permits actor write := by
  cases op with
  | createUser username first last | createOrganization type name description
  | createBid tenderId author content =>
    rw [List.mem_singleton.mp hwrite]
    exact .inl rfl
  | makeResponsible organizationId username =>
    obtain ⟨userId, _, rfl⟩ := Market.exists_of_mem_writesOf hwrite
    exact .inl rfl
  | createTender actor organizationId content =>
    obtain ⟨creatorId, hcreator, rfl⟩ := Market.exists_of_mem_writesOf hwrite
    obtain ⟨tender, htender, _⟩ := Market.answer_map_eq_ok_iff.mp h
    obtain ⟨_, hresponsible, _⟩ := Market.answer_bind_eq_ok_iff.mp htender
    have hknown := (Market.answer_requireResponsible_eq_ok_iff m actor organizationId).mp
      hresponsible
    exact .inr ⟨actor, rfl,
      .newTender (hm.named_of_value? hcreator) (hm.actsFor_of_knowsResponsible hknown)⟩
  | setTenderStatus actor id status | editTender actor id content
  | rollbackTender actor id version =>
    obtain ⟨tender, htender, _⟩ := Market.answer_map_eq_ok_iff.mp h
    rw [List.mem_singleton.mp hwrite]
    exact .inr ⟨actor, rfl, hm.permits_of_requireMember htender rfl⟩
  | setBidStatus actor id status =>
    obtain ⟨bid, hbid, _⟩ := Market.answer_map_eq_ok_iff.mp h
    obtain ⟨hundecided, _⟩ := Market.of_answer_setBidStatus hbid
    obtain ⟨row, hrow, hauthored⟩ := hm.authored_of_requireAuthor hbid
    rw [List.mem_singleton.mp hwrite]
    exact .inr ⟨actor, rfl, .bidStatus hundecided hrow hauthored⟩
  | editBid actor id content | rollbackBid actor id version =>
    obtain ⟨bid, hbid, _⟩ := Market.answer_map_eq_ok_iff.mp h
    obtain ⟨row, hrow, hauthored⟩ := hm.authored_of_requireAuthor hbid
    rw [List.mem_singleton.mp hwrite]
    exact .inr ⟨actor, rfl, .bidContent (beq_self_eq_true id) hrow hauthored⟩
  | submitDecision actor bidId decision =>
    obtain ⟨bid, hbid, _⟩ := Market.answer_map_eq_ok_iff.mp h
    obtain ⟨_, organizationId, hissued, hknown⟩ := Market.of_answer_submitDecision hbid
    exact .inr ⟨actor, rfl, Market.permits_of_mem_decisionWrites
      (hm.mayDecide_of_knowsResponsible hissued hknown) hwrite⟩
  | submitFeedback actor bidId content =>
    obtain ⟨feedback, hfeedback, _⟩ := Market.answer_map_eq_ok_iff.mp h
    obtain ⟨bid, hbid, hwrite⟩ := List.mem_flatMap.mp hwrite
    obtain ⟨authorId, hauthor, rfl⟩ := Market.exists_of_mem_writesOf hwrite
    exact .inr ⟨actor, rfl, .feedback (hm.named_of_value? hauthor) (Option.mem_toList.mp hbid) rfl
      (hm.mayDecide_of_submitFeedback hfeedback)⟩
  | _ => cases hwrite

/-! ## What has changed -/

namespace Write

variable {writes : List Write}

/-- A change to the tenders is written to the tenders. -/
theorem mem_of_mem_tenderChanges {change : Change TenderStatus TenderOrigin TenderContent}
    (h : change ∈ writes.flatMap tenderChanges) : .tender change ∈ writes := by
  obtain ⟨write, hwrite, hchange⟩ := List.mem_flatMap.mp h
  cases write with
  | tender change' => exact List.mem_singleton.mp hchange ▸ hwrite
  | _ => cases hchange

/-- A change to the bids is written to the bids. -/
theorem mem_of_mem_bidChanges {change : Change BidStatus BidOrigin BidContent}
    (h : change ∈ writes.flatMap bidChanges) : .bid change ∈ writes := by
  obtain ⟨write, hwrite, hchange⟩ := List.mem_flatMap.mp h
  cases write with
  | bid change' => exact List.mem_singleton.mp hchange ▸ hwrite
  | _ => cases hchange

/-- New feedback is written as feedback. -/
theorem mem_of_mem_newFeedback {f : Feedback} (h : f ∈ writes.flatMap newFeedback) :
    .feedback f ∈ writes := by
  obtain ⟨write, hwrite, hfeedback⟩ := List.mem_flatMap.mp h
  cases write with
  | feedback f' => exact List.mem_singleton.mp hfeedback ▸ hwrite
  | _ => cases hfeedback

end Write

/-- After writes there is the feedback from before, and behind it the new one. -/
theorem Market.feedback_of_writeAll? {m n : Market} {writes : List Write}
    (h : m.writeAll? writes = some n) :
    n.tables.feedback = m.tables.feedback ++ writes.flatMap Write.newFeedback := by
  induction writes generalizing m with
  | nil => rw [← Option.some.inj h, List.flatMap_nil, List.append_nil]
  | cons write rest ih =>
    obtain ⟨next, hnext, hrest⟩ := Option.bind_eq_some_iff.mp h
    rw [ih hrest, (Write.rows_of_applyTo? (applyTo?_of_write? hnext)).2, List.flatMap_cons,
      List.append_assoc]

/-- What differs between two states of the tables lies within the authority of an actor, judged
by the first of them. -/
structure Tables.WithinAuthority (t t' : Tables) (actor? : Option String) : Prop where
  /-- The row or content of a tender is changed by those responsible for its organization. -/
  tender : ∀ {id tender}, t.tenders.row? id = some tender →
    t'.tenders.row? id ≠ some tender ∨ t'.tenders.revisionsOf id ≠ t.tenders.revisionsOf id →
    ∃ actor, actor? = some actor ∧ t.ActsFor actor tender.origin.organizationId
  /-- The version or content of a bid, and its status other than by a decision, are changed by
  its author. -/
  bid : ∀ {id bid}, t.bids.row? id = some bid →
    (t'.bids.row? id).map Row.version ≠ some bid.version ∨
      t'.bids.revisionsOf id ≠ t.bids.revisionsOf id ∨
      (∃ status, t'.bids.status? id = some status ∧ status ≠ bid.status ∧
        status.isDecision = false) →
    ∃ actor, actor? = some actor ∧ t.Authored actor bid.origin.author
  /-- A bid is decided by those responsible for the organization of its tender. -/
  decision : ∀ {id bid status}, t.bids.row? id = some bid → t'.bids.status? id = some status →
    status ≠ bid.status → status.isDecision = true →
    ∃ actor, actor? = some actor ∧ t.MayDecide actor id
  /-- A new tender names the actor as its creator, and an organization of the actor's. -/
  newTender : ∀ {id tender}, t.tenders.row? id = none → t'.tenders.row? id = some tender →
    ∃ actor, actor? = some actor ∧ t.Named actor tender.origin.creatorId ∧
      t.ActsFor actor tender.origin.organizationId
  /-- New feedback names the actor as its author and the bid's author as its receiver; it comes
  from those responsible for the organization of the bid's tender. -/
  feedback : ∃ new, t'.feedback = t.feedback ++ new ∧ ∀ f ∈ new, ∃ actor, actor? = some actor ∧
    t.Named actor f.authorId ∧ t.MayDecide actor f.bidId ∧
    ∃ bid, t.bids.row? f.bidId = some bid ∧ f.receiverId = bid.origin.author.id

/-- Writes that are open to anyone or permitted to an actor stay within the actor's authority. -/
theorem Market.Sound.withinAuthority {m n : Market} (hm : m.Sound) {writes : List Write}
    (h : m.writeAll? writes = some n) {actor? : Option String}
    (hpermitted : ∀ write ∈ writes, write.isOpen = true ∨
      ∃ actor, actor? = some actor ∧ m.tables.Permits actor write) :
    m.tables.WithinAuthority n.tables actor? := by
  obtain ⟨htenders, hbids⟩ := registers_of_writeAll? h
  have htender {change} (hchange : change ∈ writes.flatMap Write.tenderChanges) :
      ∃ actor, actor? = some actor ∧ m.tables.Permits actor (.tender change) :=
    (hpermitted _ (Write.mem_of_mem_tenderChanges hchange)).resolve_left (by simp [Write.isOpen])
  have hbid {change} (hchange : change ∈ writes.flatMap Write.bidChanges)
      (hold : change.inserted? = none) :
      ∃ actor, actor? = some actor ∧ m.tables.Permits actor (.bid change) := by
    refine (hpermitted _ (Write.mem_of_mem_bidChanges hchange)).resolve_left fun hopen => ?_
    cases change with
    | insert => cases hold
    | _ => cases hopen
  constructor
  case tender =>
    intro id tender hrow hdiffers
    obtain ⟨change, hchange, haltered⟩ := hm.tenders.exists_altered htenders hrow hdiffers
    obtain ⟨actor, hactor, hpermits⟩ := htender hchange
    refine ⟨actor, hactor, ?_⟩
    cases hpermits with
    | newTender => cases haltered
    | tender haltered' hrow' hmember =>
      obtain rfl := Option.some.inj (haltered.symm.trans haltered')
      obtain rfl := Option.some.inj (hrow.symm.trans hrow')
      exact hmember
  case bid =>
    intro id bid hrow hdiffers
    rw [← or_assoc] at hdiffers
    rcases hdiffers with hcontent | ⟨status, hstatus, hne, hundecided⟩
    · obtain ⟨change, hchange, hrevises⟩ := hm.bids.exists_revises hbids hrow hcontent
      have hold : change.inserted? = none := by
        cases change with
        | insert => cases hrevises
        | _ => rfl
      obtain ⟨actor, hactor, hpermits⟩ := hbid hchange hold
      refine ⟨actor, hactor, ?_⟩
      cases hpermits with
      | bidStatus | decision => cases hrevises
      | bidContent hrevises' hrow' hauthor =>
        obtain rfl := Option.some.inj ((Change.altered?_of_revises hrevises).symm.trans
          (Change.altered?_of_revises hrevises'))
        obtain rfl := Option.some.inj (hrow.symm.trans hrow')
        exact hauthor
    · have hsource : m.tables.bids.status? id = some bid.status :=
        congrArg (Option.map Row.status) hrow
      obtain ⟨actor, hactor, hpermits⟩ :=
        hbid (hm.bids.exists_setStatus hbids hsource hstatus hne) rfl
      refine ⟨actor, hactor, ?_⟩
      cases hpermits with
      | bidStatus _ hrow' hauthor =>
        obtain rfl := Option.some.inj (hrow.symm.trans hrow')
        exact hauthor
      | bidContent hrevises => cases hrevises
      | decision hdecided => exact absurd (hundecided.symm.trans hdecided) (by simp)
  case decision =>
    intro id bid status hrow hstatus hne hdecided
    have hsource : m.tables.bids.status? id = some bid.status :=
      congrArg (Option.map Row.status) hrow
    obtain ⟨actor, hactor, hpermits⟩ :=
      hbid (hm.bids.exists_setStatus hbids hsource hstatus hne) rfl
    refine ⟨actor, hactor, ?_⟩
    cases hpermits with
    | bidStatus hundecided => exact absurd (hundecided.symm.trans hdecided) (by simp)
    | bidContent hrevises => cases hrevises
    | decision _ hdecider => exact hdecider
  case newTender =>
    intro id tender hnone hrow
    obtain ⟨createdAt, content, hinsert⟩ := hm.tenders.exists_insert htenders hnone hrow
    obtain ⟨actor, hactor, hpermits⟩ := htender hinsert
    refine ⟨actor, hactor, ?_⟩
    cases hpermits with
    | newTender hcreator hmember => exact ⟨hcreator, hmember⟩
    | tender haltered => cases haltered
  case feedback =>
    refine ⟨_, feedback_of_writeAll? h, fun f hf => ?_⟩
    have hwrite := hpermitted _ (Write.mem_of_mem_newFeedback hf)
    obtain ⟨actor, hactor, hpermits⟩ := hwrite.resolve_left (by simp [Write.isOpen])
    refine ⟨actor, hactor, ?_⟩
    cases hpermits with
    | feedback hauthor hrow hreceiver hdecider =>
      exact ⟨hauthor, hdecider, _, hrow, hreceiver⟩

/-! ## Operations in a session -/

namespace Session

/-- The writes of an operation are open to anyone, or permitted to its actor. -/
theorem permitted_of_mem_writes {s : Session} (hs : s.market.Faithful) {offered : Option String}
    {op : Operation} {write : Write}
    (hwrite : write ∈ s.writes (.request offered (.operation op))) :
    write.isOpen = true ∨
      ∃ actor, op.actor? = some actor ∧ s.market.tables.Permits actor write := by
  unfold writes at hwrite
  split at hwrite
  · rename_i id request answer hstep hanswer
    obtain ⟨rfl, rfl⟩ := Step.request.inj hstep
    exact op.permitted (faithful_offer hs offered) (answer_of_step hanswer) hwrite
  · cases hwrite

/-- In every state that is reached without teaching a cache by hand, whatever an operation changes
lies within the authority of its actor. -/
theorem operations_stay_within_authority (stage : Stage) (decisionLimit : Option UInt64)
    (steps : List Step) (hsteps : ∀ step ∈ steps, step.learns = false) (offered : Option String)
    (op : Operation) :
    let s := (fresh stage decisionLimit).after steps
    s.market.tables.WithinAuthority
      (s.step (.request offered (.operation op))).2.market.tables op.actor? := by
  intro s
  have hfaithful : s.market.Faithful :=
    faithful_after (faithful_fresh stage decisionLimit) hsteps
  obtain ⟨n, hn, htables, _⟩ :=
    exists_writeAll? hfaithful.toSound (.request offered (.operation op))
  rw [← htables]
  exact hfaithful.toSound.withinAuthority hn fun write hwrite =>
    permitted_of_mem_writes hfaithful hwrite

/-- A bid whose content could be replaced was made by the user who replaced it. -/
theorem operations_stay_within_authority_editing :
    let t := ((fresh .assembled none).after biddingRun).market.tables
    let t' := (((fresh .assembled none).after biddingRun).step
      (.request none (.operation (.editBid "ann" "b" ⟨"sand", ""⟩)))).2.market.tables
    (∀ step ∈ biddingRun, step.learns = false) ∧
      t'.bids.revisionsOf "b" ≠ t.bids.revisionsOf "b" ∧ t.Authored "ann" ⟨.user, "u"⟩ := by
  intro t t'
  have hlearns : ∀ step ∈ biddingRun, step.learns = false := by decide
  have hdiffers : t'.bids.revisionsOf "b" ≠ t.bids.revisionsOf "b" := by decide
  have hauthor : (t.bids.row? "b").map (fun row => row.origin.author) = some ⟨.user, "u"⟩ := by
    decide
  obtain ⟨bid, hbid, hauthor⟩ := Option.map_eq_some_iff.mp hauthor
  obtain ⟨actor, hactor, hauthored⟩ := (operations_stay_within_authority .assembled none biddingRun
    hlearns none (.editBid "ann" "b" ⟨"sand", ""⟩)).bid hbid (.inr (.inl hdiffers))
  obtain rfl : "ann" = actor := Option.some.inj hactor
  exact ⟨hlearns, hdiffers, hauthor ▸ hauthored⟩

end Session

end Procurement

import Procurement.Proofs.Authority
import Mathlib.Logic.Relation

/-!
# The course of a bid

The declared course of a bid leads from the draft over its publication to a
decision, and out of it by a cancellation. Requests keep to this course with one
exception: as long as a bid is published its author may make a draft of it again.
So over a run a bid is on its declared course, unless it was withdrawn in this way.
-/

namespace Procurement

/-! ## The declared course -/

/-- The steps of the declared course of a bid. -/
inductive BidStatus.Follows : BidStatus → BidStatus → Prop
  | publish : Follows .created .published
  | cancel {source : BidStatus} (hsource : source ∈ authorMutable) : Follows source .canceled
  | decide (decision : Decision) : Follows .published decision.bidStatus

/-- That the declared course of a bid leads from one status to another, or stays there. -/
abbrev BidStatus.LeadsTo : BidStatus → BidStatus → Prop := Relation.ReflTransGen Follows

/-- The declared course does not lead back to the draft. -/
theorem BidStatus.LeadsTo.eq_created {source : BidStatus} (h : source.LeadsTo .created) :
    source = .created := by
  rcases Relation.ReflTransGen.cases_tail h with heq | ⟨middle, _, hlast⟩
  · exact heq.symm
  · generalize htarget : BidStatus.created = target at hlast
    cases hlast with
    | decide decision => cases decision <;> cases htarget
    | publish | cancel => cases htarget

namespace StatusMove

variable {decision? : Option Decision} {source : BidStatus} {target? : Option BidStatus}

/-- A move follows the declared course, or leads from the publication back to the draft. -/
theorem leadsTo_or_withdrawn (h : StatusMove decision? (some source) target?) :
    ∃ target, target? = some target ∧
      (source.LeadsTo target ∨ source = .published ∧ target = .created) := by
  cases h with
  | keep => exact ⟨source, rfl, .inl .refl⟩
  | decide decision => exact ⟨decision.bidStatus, rfl, .inl (.single (.decide decision))⟩
  | author hsource htarget =>
    rename_i target
    refine ⟨target, rfl, ?_⟩
    cases target with
    | canceled => exact .inl (.single (.cancel hsource))
    | published =>
      rcases List.mem_pair.mp hsource with rfl | rfl
      · exact .inl (.single .publish)
      · exact .inl .refl
    | created =>
      rcases List.mem_pair.mp hsource with rfl | rfl
      · exact .inl .refl
      · exact .inr ⟨rfl, rfl⟩
    | approved | rejected => cases htarget

end StatusMove

/-! ## Withdrawals -/

/-- Whether a user of that name is stored as the author of the bid, or as responsible for the
organization that is. -/
def Tables.AuthoredBid (t : Tables) (actor bidId : String) : Prop :=
  ∃ bid, t.bids.row? bidId = some bid ∧ t.Authored actor bid.origin.author

namespace Market

variable {m : Market}

/-- Who is stored as the author passes for the author. -/
theorem Faithful.knowsAuthor_of_authored (hm : m.Faithful) {actor : String} {author : Author}
    (h : m.tables.Authored actor author) : m.knowsAuthor actor author := by
  obtain ⟨type, id⟩ := author
  cases type with
  | user => exact (hm.value?_eq_some_iff actor id).mpr h
  | organization =>
    obtain ⟨user, hstored, hname, hresponsible⟩ := h
    exact ⟨user.id, (hm.value?_eq_some_iff actor user.id).mpr ⟨user, hstored, hname, rfl⟩,
      hresponsible⟩

/-- The author of a bid is let pass. -/
theorem answer_requireAuthor_of_knowsAuthor {actor bidId : String}
    {bid : Row BidStatus BidOrigin} (hknows : m.caches.bids.knows bidId = true)
    (hbid : m.tables.bids.row? bidId = some bid) (h : m.knowsAuthor actor bid.origin.author) :
    m.answer (requireAuthor actor bidId) = .ok () := by
  have hrow : m.answer (bids.row bidId) = .ok bid := by
    rw [bids_lawful.answer_row]
    exact (if_pos hknows).trans (congrArg (found _) hbid)
  have hauthor : m.answer (bidAuthor bidId) = .ok bid.origin.author :=
    answer_bind_eq_ok_iff.mpr ⟨bid, hrow, rfl⟩
  have hread := (onlyReads_bidAuthor bidId).after_uncounted m
  have hpassed : m.answer (isBidAuthor actor bidId) = .ok true := by
    refine answer_bind_eq_ok_iff.mpr ⟨bid.origin.author, hauthor, ?_⟩
    unfold knowsAuthor at h
    cases htype : bid.origin.author.type with
    | user =>
      rw [htype] at h
      refine answer_bind_eq_ok_iff.mpr ⟨bid.origin.author.id, ?_, ?_⟩
      · rw [(onlyReads_userId actor).answer_congr hread, answer_userId]
        exact found_eq_ok_iff.mpr h
      · exact congrArg Except.ok (beq_self_eq_true _)
    | organization =>
      rw [htype] at h
      dsimp only
      rw [(onlyReads_isUserResponsible actor _).answer_congr hread]
      exact (answer_isUserResponsible_eq_true_iff m actor _).mpr h
  exact answer_bind_eq_ok_iff.mpr ⟨true, hpassed, rfl⟩

/-- The author may set any status but that of a decision, as long as the bid is neither decided
nor canceled. -/
theorem exists_answer_setBidStatus (hm : m.Sound) {actor bidId : String} {target : BidStatus}
    {bid : Row BidStatus BidOrigin} (hknows : m.caches.bids.knows bidId = true)
    (hbid : m.tables.bids.row? bidId = some bid) (hauthor : m.knowsAuthor actor bid.origin.author)
    (hsource : bid.status ∈ BidStatus.authorMutable) (htarget : target.isDecision = false) :
    ∃ entity, m.answer (setBidStatus actor bidId target) = .ok entity := by
  have hpassed := answer_requireAuthor_of_knowsAuthor hknows hbid hauthor
  have hread := (onlyReads_requireAuthor actor bidId).after_uncounted m
  generalize hm' : m.after (requireAuthor actor bidId) = m' at hread
  have htables : m'.tables = m.tables := tables_of_uncounted hread
  have hchanged : m'.answer (bids.setStatusFrom bidId BidStatus.authorMutable target) =
      .ok true := by
    rw [bids_writes.answer_setStatusFrom,
      bids_lawful.knows_congr (caches_of_uncounted hread), htables]
    refine (if_pos hknows).trans (congrArg Except.ok ?_)
    change (m.tables.bids.row? bidId).any _ = true
    rw [hbid]
    exact decide_eq_true hsource
  have hset := bids_writes.performs_setStatusFrom m bidId BidStatus.authorMutable target
  rw [Catalogue.transitionWrites_of_mem hbid hsource] at hset
  obtain ⟨entity, hentity⟩ := bids_writes.exists_answer_get_after hm.bids hset hread hchanged
    fun hn => bids_writes.has_of_write? rfl hn ⟨hknows, Register.mem_ids_of_row? hbid⟩
  refine ⟨entity, answer_bind_eq_ok_iff.mpr ⟨(), hpassed, ?_⟩⟩
  dsimp only
  rw [hm', htarget]
  exact answer_bind_eq_ok_iff.mpr ⟨true, hchanged, hentity⟩

end Market

namespace Session

variable {s : Session}

/-- A step by which the author of a published bid makes a draft of it again. -/
structure Withdraws (s : Session) (step : Step) (actor bidId : String) : Prop where
  asked : ∃ offered, step = .request offered (.operation (.setBidStatus actor bidId .created))
  accepted : ∃ answer, (s.step step).1 = some (.ok answer)
  published : s.bidStatus? bidId = some .published
  authored : s.market.tables.AuthoredBid actor bidId

/-- Nothing but a withdrawal makes a draft of a published bid. -/
theorem exists_withdraws (hs : s.market.Faithful) {step : Step} (hstep : step.isGuarded = true)
    {bidId : String} (hsource : s.bidStatus? bidId = some .published)
    (htarget : (s.step step).2.bidStatus? bidId = some .created) :
    ∃ actor, s.Withdraws step actor bidId := by
  obtain ⟨n, hn, htables, -⟩ := exists_writeAll? hs.toSound step
  have htarget' : n.tables.bids.status? bidId = some .created := by
    rw [htables]
    exact htarget
  have hset := hs.bids.exists_setStatus (Market.registers_of_writeAll? hn).2 hsource htarget'
    (by decide)
  have hwrite := Write.mem_of_mem_bidChanges hset
  -- Of all requests that are offered, only one sets a bid to this status.
  rcases s.writes_cases step with hnone | ⟨offered, request, answer, rfl, hanswer, hwrites⟩
  · rw [hnone] at hwrite
    cases hwrite
  · rw [hwrites] at hwrite
    cases request with
    | operation op =>
      have hop : Change.setStatus bidId .created ∈ op.bidChanges (s.market.offer offered) := by
        rw [← op.flatMap_bidChanges]
        exact List.mem_flatMap.mpr ⟨_, hwrite, List.mem_singleton_self _⟩
      cases op with
      | setBidStatus actor other status =>
        obtain ⟨rfl, rfl⟩ := Change.setStatus.inj (List.mem_singleton.mp hop)
        have haccepted := answer_of_step hanswer
        have hoffered := faithful_offer hs offered
        obtain ⟨bid, hbid, _⟩ := Market.answer_map_eq_ok_iff.mp haccepted
        exact ⟨actor, ⟨offered, rfl⟩, ⟨answer, hanswer⟩, hsource,
          hoffered.authored_of_requireAuthor hbid⟩
      | submitDecision actor other decision =>
        obtain ⟨_, hstatus⟩ := Change.setStatus.inj (List.mem_singleton.mp hop)
        cases decision <;> cases hstatus
      | createBid | editBid | rollbackBid => cases List.mem_singleton.mp hop
      | _ => cases hop
    | feedback op => cases op <;> simp [Request.writes, FeedbackOperation.writes] at hwrite
    | store | learn => cases hstep
    | _ => cases hwrite

/-- Step by step, a bid follows its declared course or is withdrawn. -/
theorem leadsTo_or_withdraws_step (hs : s.market.Faithful) {step : Step}
    (hstep : step.isGuarded = true) {bidId : String} {source : BidStatus}
    (hsource : s.bidStatus? bidId = some source) :
    ∃ target, (s.step step).2.bidStatus? bidId = some target ∧
      (source.LeadsTo target ∨ ∃ actor, s.Withdraws step actor bidId) := by
  have hmove := statusMove_step hs.toSound hstep bidId
  rw [hsource] at hmove
  obtain ⟨target, htarget, hleads | ⟨rfl, rfl⟩⟩ := hmove.leadsTo_or_withdrawn
  · exact ⟨target, htarget, .inl hleads⟩
  · exact ⟨.created, htarget, .inr (exists_withdraws hs hstep hsource htarget)⟩

/-- Over a run, a bid is on its declared course or was withdrawn. -/
theorem leadsTo_or_withdraws_after (hs : s.market.Faithful) {bidId : String}
    {source target : BidStatus} (hsource : s.bidStatus? bidId = some source) {steps : List Step}
    (hsteps : ∀ step ∈ steps, step.isGuarded = true)
    (htarget : (s.after steps).bidStatus? bidId = some target) :
    source.LeadsTo target ∨ ∃ before step rest actor,
      steps = before ++ step :: rest ∧ (s.after before).Withdraws step actor bidId := by
  induction steps generalizing s source with
  | nil =>
    obtain rfl := Option.some.inj (hsource.symm.trans htarget)
    exact .inl .refl
  | cons step rest ih =>
    have hstep := hsteps step List.mem_cons_self
    have hrest : ∀ step ∈ rest, step.isGuarded = true :=
      fun step' hmem => hsteps step' (List.mem_cons_of_mem _ hmem)
    have hnext := faithful_step hs (Step.learns_of_isGuarded hstep)
    obtain ⟨middle, hmiddle, hleads | ⟨actor, hwithdraws⟩⟩ :=
      leadsTo_or_withdraws_step hs hstep hsource
    · rcases ih hnext hmiddle hrest htarget with hlater | ⟨before, step', rest', actor, rfl, hlater⟩
      · exact .inl (hleads.trans hlater)
      · exact .inr ⟨step :: before, step', rest', actor, rfl, hlater⟩
    · exact .inr ⟨[], step, rest, actor, rfl, hwithdraws⟩

/-- Where a bid is stored there is a market. -/
theorem Unused.assembled_of_bidStatus? (hs : s.Unused) {bidId : String} {status : BidStatus}
    (h : s.bidStatus? bidId = some status) : s.stage = .assembled := by
  refine hs.assembled fun hempty => ?_
  unfold bidStatus? at h
  rw [hempty] at h
  cases h

/-- The author of a published bid can make a draft of it again. -/
theorem draft_of_published (hs : s.market.Faithful) (hassembled : s.stage = .assembled)
    {actor bidId : String} (hpublished : s.bidStatus? bidId = some .published)
    (hauthored : s.market.tables.AuthoredBid actor bidId) (offered : Option String) :
    let step := Step.request offered (.operation (.setBidStatus actor bidId .created))
    s.Withdraws step actor bidId ∧ (s.step step).2.bidStatus? bidId = some .created := by
  intro step
  obtain ⟨stage, m⟩ := s
  obtain rfl : stage = .assembled := hassembled
  have hm : (m.offer offered).Faithful := faithful_offer hs offered
  obtain ⟨bid, hbid, hauthor⟩ := hauthored
  have hstatus : bid.status = .published :=
    Option.some.inj ((congrArg (Option.map Row.status) hbid).symm.trans hpublished)
  have hknows : (m.offer offered).caches.bids.knows bidId = true := by
    rw [ExistenceCache.knows_iff, hm.mirror.bids]
    exact Register.mem_ids_of_row? hbid
  have hundecided : BidStatus.created.isDecision = false := rfl
  obtain ⟨entity, hentity⟩ := Market.exists_answer_setBidStatus hm.toSound hknows hbid
    (hm.knowsAuthor_of_authored hauthor) (by rw [hstatus]; decide) hundecided
  have haccepted : (Session.step ⟨.assembled, m⟩ step).1 = some (.ok (.bid entity)) :=
    congrArg some (Market.answer_map_eq_ok_iff.mpr ⟨entity, hentity, rfl⟩)
  refine ⟨⟨⟨offered, rfl⟩, ⟨_, haccepted⟩, hpublished, bid, hbid, hauthor⟩, ?_⟩
  obtain ⟨n, hn, htables, -⟩ := exists_writeAll? hs.toSound step
  have hwrites : writes ⟨.assembled, m⟩ step = [.bid (.setStatus bidId .created)] := by
    simp only [writes, haccepted, step, Request.writes, Operation.writes]
  have hchanged := (Market.registers_of_writeAll? (hwrites ▸ hn)).2
  unfold bidStatus?
  rw [← htables, hs.bids.status?_of_changeAll? hchanged bidId]
  exact (if_pos rfl).trans (congrArg _ hpublished)

/-- In a run that makes no request behind the services a bid follows its declared course, unless
it was withdrawn: its author made a draft of it while it was published. The author always can. -/
theorem bids_keep_course_unless_withdrawn (stage : Stage) (decisionLimit : Option UInt64)
    (steps more : List Step) (hsteps : ∀ step ∈ steps ++ more, step.isGuarded = true)
    (bidId : String) :
    let s := (fresh stage decisionLimit).after steps
    (∀ source target, s.bidStatus? bidId = some source →
        (s.after more).bidStatus? bidId = some target →
        source.LeadsTo target ∨ ∃ before step rest actor,
          more = before ++ step :: rest ∧ (s.after before).Withdraws step actor bidId) ∧
      (s.bidStatus? bidId = some .published →
        (s.after more).bidStatus? bidId = some .created → ∃ before step rest actor,
          more = before ++ step :: rest ∧ (s.after before).Withdraws step actor bidId) ∧
      ∀ actor offered, s.bidStatus? bidId = some .published →
        s.market.tables.AuthoredBid actor bidId →
        let step := Step.request offered (.operation (.setBidStatus actor bidId .created))
        s.Withdraws step actor bidId ∧ (s.step step).2.bidStatus? bidId = some .created := by
  intro s
  have hlearns : ∀ step ∈ steps, step.learns = false := fun step hmem =>
    Step.learns_of_isGuarded (hsteps step (List.mem_append_left _ hmem))
  have hfaithful : s.market.Faithful :=
    faithful_after (faithful_fresh stage decisionLimit) hlearns
  have hunused : s.Unused := unused_after (unused_fresh stage decisionLimit) steps
  have hmore : ∀ step ∈ more, step.isGuarded = true :=
    fun step hmem => hsteps step (List.mem_append_right _ hmem)
  have hcourse {source target} (hsource : s.bidStatus? bidId = some source)
      (htarget : (s.after more).bidStatus? bidId = some target) :=
    leadsTo_or_withdraws_after hfaithful hsource hmore htarget
  refine ⟨fun source target => hcourse, fun hpublished hcreated => ?_,
    fun actor offered hpublished hauthored => ?_⟩
  · refine (hcourse hpublished hcreated).resolve_left fun hleads => ?_
    cases hleads.eq_created
  · exact draft_of_published hfaithful (hunused.assembled_of_bidStatus? hpublished) hpublished
      hauthored offered

/-- A bid that was published and is a draft again was withdrawn by its author. -/
theorem bids_keep_course_unless_withdrawn_redrafted :
    let s := (fresh .assembled none).after biddingRun
    let more := [.request none (.operation (.setBidStatus "ann" "b" .created))]
    (∀ step ∈ biddingRun ++ more, step.isGuarded = true) ∧
      s.bidStatus? "b" = some .published ∧ (s.after more).bidStatus? "b" = some .created ∧
      ∃ before step rest actor,
        more = before ++ step :: rest ∧ (s.after before).Withdraws step actor "b" := by
  intro s more
  have hguarded : ∀ step ∈ biddingRun ++ more, step.isGuarded = true := by decide
  have hpublished : s.bidStatus? "b" = some .published := by decide
  have hcreated : (s.after more).bidStatus? "b" = some .created := by decide
  obtain ⟨_, hwithdrawn, _⟩ :=
    bids_keep_course_unless_withdrawn .assembled none biddingRun more hguarded "b"
  exact ⟨hguarded, hpublished, hcreated, hwithdrawn hpublished hcreated⟩

/-- A published bid does not always stay out of the draft. -/
theorem not_published_for_good :
    ¬ ∀ (stage : Stage) (decisionLimit : Option UInt64) (steps more : List Step),
      (∀ step ∈ steps ++ more, step.isGuarded = true) → ∀ bidId : String,
      let s := (fresh stage decisionLimit).after steps
      s.bidStatus? bidId = some .published → (s.after more).bidStatus? bidId ≠ some .created := by
  intro h
  exact h .assembled none biddingRun
    [.request none (.operation (.setBidStatus "ann" "b" .created))] (by decide) "b"
    (by decide) (by decide)

end Session

end Procurement

import Procurement.Proofs.Access
import Procurement.Proofs.Approvals
import Procurement.Proofs.Integrity
import Procurement.Proofs.Lookups

/-!
# How decisions are judged

What a decision comes to can be read off the tables. Whether the bid and the actor are
known is asked first, then whether the actor is responsible for the tender, then for the
status of the bid, and last, for an approval, for that of the tender. A decision that passes
changes the status of the bid, an approval also that of the tender, and nothing else.
-/

namespace Procurement

namespace Tables

/-! ## Objections -/

instance (t : Tables) (actor organizationId : String) :
    Decidable (t.ActsFor actor organizationId) :=
  inferInstanceAs (Decidable (∃ user ∈ t.users,
    user.username = actor ∧ t.isResponsible organizationId user.id = true))

/-- Why a decision about a bid on a tender is refused: the first of these reasons that applies. -/
def objection? (t : Tables) (actor : String) (decision : Decision) (bid : Bid) (tender : Tender) :
    Option MarketError :=
  if ∀ user ∈ t.users, user.username ≠ actor then some (.notFound .user actor)
  else if ¬ t.ActsFor actor tender.origin.organizationId then
    some (.notResponsible actor tender.origin.organizationId)
  else if bid.status ≠ .published then some (.bidNotPublished bid.id)
  else if decision = .approve ∧ tender.status ≠ .published then
    some (.tenderNotPublished tender.id)
  else none

/-- The tables after a decision about a bid: the bid has another status, and its tender is closed
if the bid was approved. -/
def decided (t : Tables) (bid : Bid) (decision : Decision) : Tables :=
  { t with
    bids.rows := t.bids.rows.map fun row =>
      if row.id = bid.id then { row with status := decision.bidStatus } else row
    tenders.rows := t.tenders.rows.map fun row =>
      if row.id = bid.origin.tenderId ∧ decision = .approve then { row with status := .closed }
      else row }

/-- A decision gives the bid its status, and changes no other bid. -/
theorem bids_decided (t : Tables) (bid : Bid) (decision : Decision) :
    (t.decided bid decision).bids = t.bids.setStatus bid.id decision.bidStatus :=
  (t.bids.mapRow_eq bid.id fun row => { row with status := decision.bidStatus }).symm

/-- A rejection does not show in the tenders. -/
theorem decided_reject (t : Tables) (bid : Bid) :
    t.decided bid .reject = { t with bids := t.bids.setStatus bid.id .rejected } := by
  rw [Register.setStatus, Register.mapRow_eq]
  simp [decided, Decision.bidStatus]

/-- An approval changes the bid, and closes its tender. -/
theorem decided_approve (t : Tables) (bid : Bid) :
    t.decided bid .approve =
      { t with
        bids := t.bids.setStatus bid.id .approved
        tenders := t.tenders.setStatus bid.origin.tenderId .closed } := by
  rw [Register.setStatus, Register.setStatus, Register.mapRow_eq, Register.mapRow_eq]
  simp [decided, Decision.bidStatus]

/-! ## Tenders of bids -/

/-- The tender of every bid is stored. -/
def HoldsTenders (t : Tables) : Prop :=
  ∀ bid ∈ t.bids.rows, (t.tenders.row? bid.origin.tenderId).isSome = true

/-- A bid is only added to a tender that is stored, and no tender is taken away. -/
theorem HoldsTenders.of_applyTo? {t t' : Tables} (ht : t.HoldsTenders) {write : Write}
    (h : write.applyTo? t = some t') : t'.HoldsTenders := by
  have hext := Extends.of_applyTo? h
  have hkept {tenderId : String} (hstored : (t.tenders.row? tenderId).isSome = true) :
      (t'.tenders.row? tenderId).isSome = true := by
    obtain ⟨tender, htender⟩ := Option.isSome_iff_exists.mp hstored
    obtain ⟨tender', htender', _⟩ := hext.exists_tender htender
    exact Option.isSome_iff_exists.mpr ⟨tender', htender'⟩
  have hbids := (Write.registers_of_applyTo? h).2
  intro bid hmem
  by_cases hold : bid.birth ∈ t.bids.births
  · obtain ⟨old, holdmem, hborn⟩ := Register.exists_of_mem_births hold
    have horigin : old.origin = bid.origin := congrArg Birth.origin hborn
    exact horigin ▸ hkept (ht old holdmem)
  · have hnew : bid.birth ∈ t'.bids.births := List.mem_map_of_mem hmem
    cases write with
    | bid change =>
      have hsupported := Catalogue.isSupported_of_change? h
      obtain ⟨register, hregister, rfl⟩ := Catalogue.exists_of_change? h
      obtain ⟨createdAt, content, rfl⟩ := Register.birth?_of_not_mem hregister hnew hold
      exact hkept hsupported
    | _ =>
      have hsame : t'.bids = t.bids := (Option.some.inj hbids).symm
      rw [hsame] at hnew
      exact absurd hnew hold

end Tables

namespace Market

/-- No decision exceeds the deadline: the pace is not slow, or there is no limit. -/
def MeetsDeadlines (m : Market) : Prop := m.slow = true → m.decisionLimit = none

/-! ## Checks of responsibility -/

/-- A check of responsibility fails for an unknown username first, and then for a missing link. -/
theorem answer_requireResponsible (m : Market) (username organizationId : String) :
    m.answer (requireResponsible username organizationId) =
      (found (.notFound .user username) (m.caches.users.value? username) >>= fun userId =>
        if m.tables.isResponsible organizationId userId then .ok ()
        else .error (.notResponsible username organizationId)) := by
  unfold requireResponsible
  rw [(onlyReads_isUserResponsible username organizationId).answer_bind fun _ =>
    ignoresCounts_ite _ (onlyReads_pure ()).ignoresCounts (onlyReads_throw _).ignoresCounts,
    answer_isUserResponsible]
  cases m.caches.users.value? username with
  | none => rfl
  | some userId =>
    cases h : m.tables.isResponsible organizationId userId <;>
      simp [Except.map, bind, Except.bind, h]

/-- In a faithful market the check of responsibility is one of the tables. -/
theorem Faithful.answer_requireResponsible {m : Market} (hm : m.Faithful)
    (actor organizationId : String) :
    m.answer (requireResponsible actor organizationId) =
      if ∀ user ∈ m.tables.users, user.username ≠ actor then .error (.notFound .user actor)
      else if ¬ m.tables.ActsFor actor organizationId then
        .error (.notResponsible actor organizationId)
      else .ok () := by
  rw [Market.answer_requireResponsible]
  cases hvalue : m.caches.users.value? actor with
  | none =>
    rw [if_pos ((hm.value?_eq_none_iff actor).mp hvalue)]
    rfl
  | some userId =>
    have hnamed := hm.named_of_value? hvalue
    have hknown : ¬ ∀ user ∈ m.tables.users, user.username ≠ actor := by
      intro hnone
      rw [(hm.value?_eq_none_iff actor).mpr hnone] at hvalue
      cases hvalue
    rw [if_neg hknown]
    change (if m.tables.isResponsible organizationId userId then _ else _) = _
    by_cases hacts : m.tables.ActsFor actor organizationId
    · rw [if_neg (not_not.mpr hacts), if_pos (hm.keyed.isResponsible hnamed hacts)]
    · have hnot : ¬ m.tables.isResponsible organizationId userId = true := by
        intro hresponsible
        exact hacts (hm.actsFor_of_knowsResponsible ⟨userId, hvalue, hresponsible⟩)
      rw [if_pos hacts, if_neg hnot]

/-! ## The work of a decision -/

/-- Deciding a bid that is published touches nothing but the tables. -/
theorem touchesTables_decideIfPublished (bidId : String) (target : BidStatus) :
    TouchesTables (decideIfPublished bidId target) :=
  (touchesTables_transition bids_lawful bidId [.published] target).bind fun _ =>
    (onlyReads_pure _).touchesTables

/-- The work of a decision asks for the status of the bid, and then, if it approves, for that of
the tender. -/
theorem answer_applyDecision {m : Market} {bidId : String} {bid : Row BidStatus BidOrigin}
    {tender : Row TenderStatus TenderOrigin} (hknows : m.caches.bids.knows bidId = true)
    (hbid : m.tables.bids.row? bidId = some bid)
    (hknowsTender : m.caches.tenders.knows bid.origin.tenderId = true)
    (htender : m.tables.tenders.row? bid.origin.tenderId = some tender) (decision : Decision) :
    m.answer (applyDecision bidId decision) =
      if bid.status ≠ .published then .error (.bidNotPublished bidId)
      else if decision = .approve ∧ tender.status ≠ .published then
        .error (.tenderNotPublished bid.origin.tenderId)
      else .ok () := by
  have htransition : m.answer (bids.transition bidId [.published] decision.bidStatus) =
      .ok ((some bid).filter fun row => row.status ∈ [BidStatus.published]) := by
    rw [bids_writes.answer_transition, ← hbid]
    exact if_pos hknows
  have hdecide : m.answer (decideIfPublished bidId decision.bidStatus) =
      .ok (if bid.status = .published then some bid.origin.tenderId else none) := by
    refine answer_bind_eq_ok_iff.mpr ⟨_, htransition, ?_⟩
    by_cases hpublished : bid.status = .published <;> simp [hpublished]
  unfold applyDecision
  rw [answer_bind, hdecide]
  by_cases hpublished : bid.status = .published
  · rw [if_pos hpublished] at hdecide ⊢
    rw [if_neg (not_not.mpr hpublished)]
    dsimp only
    by_cases happrove : decision = .approve
    · have hcaches :=
        (touchesTables_decideIfPublished bidId decision.bidStatus).caches_after m
      have htenders := tenders_after_decideIfPublished hdecide
      have hclose : (m.after (decideIfPublished bidId decision.bidStatus)).answer
          (tenders.setStatusIfPublished bid.origin.tenderId .closed) =
            .ok (decide (tender.status = .published)) := by
        unfold Catalogue.setStatusIfPublished
        rw [tenders_writes.answer_setStatusFrom, tenders_lawful.knows_congr hcaches]
        refine (if_pos hknowsTender).trans (congrArg Except.ok ?_)
        change ((m.after _).tables.tenders.row? _).any _ = _
        rw [htenders, htender]
        simp [tenders]
      rw [if_pos happrove, answer_bind, hclose]
      by_cases hopen : tender.status = .published <;> simp [happrove, hopen]
    · rw [if_neg happrove]
      simp [happrove]
  · rw [if_neg hpublished, if_pos hpublished]
    rfl

/-- In time, a transaction ends as its work does. -/
theorem TouchesTables.decisionTransaction_eq {request : MarketM Unit} (h : TouchesTables request)
    {limit : Option UInt64} {m : Market} (hlimit : m.slow = true → limit = none) :
    decisionTransaction limit (workOf request) m =
      match m.opened.answer request with
      | .error refusal => (.returns (.error refusal), discard m (m.opened.after request))
      | .ok () => (.returns (.ok ()),
          { m.opened.after request with transaction := m.transaction }) := by
  have hwork : workOf request m.opened =
      ({ ending := .returns (m.opened.answer request) }, m.opened.after request) := rfl
  have hopened : (m.opened.after request).transaction = some { deferred := [] } :=
    (congrArg Market.transaction (h m.opened) :)
  have hintime : Conclusion.exceeded?
      ({ ending := .returns (m.opened.answer request) } : Conclusion Unit) m limit = none := by
    unfold Conclusion.exceeded?
    cases hslow : m.slow <;> simp_all
  cases hanswer : m.opened.answer request with
  | error refusal =>
    have hfailed := decisionTransaction_of_failure hwork hintime (by simp [hanswer])
    rw [hanswer] at hfailed
    exact hfailed
  | ok _ =>
    exact decisionTransaction_of_value hwork hintime (congrArg Ending.returns hanswer) hopened

/-- A request behind a transaction is answered as soon as the work is, if the work ends in
time. -/
theorem TouchesTables.answer_decisionTransaction_bind {β : Type} {request : MarketM Unit}
    {next : MarketM β} (h : TouchesTables request) {limit : Option UInt64} {m : Market}
    (hlimit : m.slow = true → limit = none) :
    m.answer (do
      match ← (decisionTransaction limit (workOf request) : StateM Market (Ending Unit)) with
      | .returns (.error refusal) => throw refusal
      | _ => next) =
      match m.opened.answer request with
      | .error refusal => .error refusal
      | .ok () =>
        ({ m.opened.after request with transaction := m.transaction } : Market).answer next := by
  rw [answer_bind, answer_decisionTransaction, after_decisionTransaction,
    h.decisionTransaction_eq hlimit]
  cases m.opened.answer request <;> rfl

/-! ## Decisions -/

/-- The bid after a decision is the bid before it with another status. -/
theorem find?_decided {t : Tables} (hbids : t.bids.Dense) {bidId : String}
    {x : Chronicle BidStatus BidOrigin BidContent} (hx : t.bids.chronicle? bidId = some x)
    (decision : Decision) :
    (t.decided (x.entity bidId) decision).bids.find? bidId =
      some { x.entity bidId with status := decision.bidStatus } := by
  have hx' := hbids.chronicle?_setStatus bidId decision.bidStatus bidId
  rw [if_pos rfl, hx, Option.map_some] at hx'
  rw [Tables.bids_decided]
  exact (hbids.setStatus bidId decision.bidStatus).find?_of_chronicle? hx'

/-- A decision that passes leaves the tables decided. -/
theorem tables_of_decisionWrites {m n : Market} (hbids : m.tables.bids.Dense) {bidId : String}
    {x : Chronicle BidStatus BidOrigin BidContent} (hx : m.tables.bids.chronicle? bidId = some x)
    {decision : Decision}
    (h : (m.writeAll? (m.decisionWrites bidId decision)).map substance = some n.substance) :
    n.tables = m.tables.decided (x.entity bidId) decision := by
  have hrow := hbids.row?_of_chronicle? hx
  have hwritten : (m.decisionWrites bidId decision).foldlM Write.applyTo? m.tables =
      some (m.tables.decided (x.entity bidId) decision) := by
    unfold decisionWrites closingWrites
    rw [hrow]
    cases decision with
    | reject =>
      rw [Tables.decided_reject]
      rfl
    | approve =>
      rw [Tables.decided_approve]
      rfl
  rw [writeAll?_of_silent _ fun _ => silent_of_mem_decisionWrites, hwritten] at h
  exact (tables_of_substance (Option.some.inj h)).symm

/-- A decision in time goes through the checks to its work, which finds the market as it was up to
the counters, and on to the bid. -/
theorem exists_answer_submitDecision_eq {m : Market} (htimely : m.MeetsDeadlines)
    {bidId organizationId : String}
    (hissued : m.answer (bidOrganization bidId) = .ok organizationId) (actor : String)
    (decision : Decision) :
    ∃ n : Market, n.uncounted = { m.uncounted with ids := m.ids.draw.2 } ∧
      m.answer (submitDecision actor bidId decision) =
        match m.answer (requireResponsible actor organizationId) with
        | .error refusal => .error refusal
        | .ok () => match n.opened.answer (applyDecision bidId decision) with
          | .error refusal => .error refusal
          | .ok () => ({ n.opened.after (applyDecision bidId decision) with
              transaction := n.transaction } : Market).answer (bids.get bidId) := by
  -- The identifier that is drawn first does not show in the checks.
  let drawn : Market := { m with ids := m.ids.draw.2 }
  have hissued' : drawn.answer (bidOrganization bidId) = .ok organizationId :=
    (answer_bidOrganization drawn bidId).trans ((answer_bidOrganization m bidId).symm.trans hissued)
  have hguard : drawn.answer (requireResponsible actor organizationId) =
      m.answer (requireResponsible actor organizationId) :=
    (answer_requireResponsible drawn actor organizationId).trans
      (answer_requireResponsible m actor organizationId).symm
  have hasked := (onlyReads_bidOrganization bidId).after_uncounted drawn
  generalize hm₁ : drawn.after (bidOrganization bidId) = m₁ at hasked
  have hchecked := (onlyReads_requireResponsible actor organizationId).after_uncounted m₁
  generalize hm₂ : m₁.after (requireResponsible actor organizationId) = m₂ at hchecked
  have hsame := hchecked.trans hasked
  have hlimit : m₂.slow = true → m₂.decisionLimit = none := by
    rw [slow_of_contents (contents_of_uncounted hsame),
      decisionLimit_of_contents (contents_of_uncounted hsame)]
    exact htimely
  refine ⟨m₂, hsame, ?_⟩
  unfold submitDecision
  rw [answer_bind, answer_drawId, after_drawId]
  dsimp only
  rw [answer_bind, hissued', hm₁]
  dsimp only
  rw [answer_bind, (onlyReads_requireResponsible actor organizationId).answer_congr hasked, hm₂,
    hguard]
  cases m.answer (requireResponsible actor organizationId) with
  | error refusal => rfl
  | ok _ =>
    exact (touchesTables_applyDecision bidId decision).answer_decisionTransaction_bind hlimit

section Faithful

variable {m : Market} (hm : m.Faithful) {bidId : String}
  {x : Chronicle BidStatus BidOrigin BidContent}
  {y : Chronicle TenderStatus TenderOrigin TenderContent}
  (hx : m.tables.bids.chronicle? bidId = some x)
  (hy : m.tables.tenders.chronicle? x.origin.tenderId = some y)
  (actor : String) (decision : Decision)

include hm hx hy

/-- The organization that a stored bid is for is answered. -/
theorem Faithful.answer_bidOrganization_of_chronicle? :
    m.answer (bidOrganization bidId) = .ok y.origin.organizationId := by
  have hbid := hm.bids.row?_of_chronicle? hx
  have htender : m.tables.tenders.row? (x.row bidId).origin.tenderId =
      some (y.row x.origin.tenderId) := hm.tenders.row?_of_chronicle? hy
  have hissued : m.tables.organizationOfBid? bidId = some y.origin.organizationId := by
    unfold Tables.organizationOfBid?
    rw [hbid, Option.bind_eq_bind, Option.bind_some, htender]
    rfl
  rw [answer_bidOrganization, if_pos (hm.knows_of_bid hbid), hissued, found_some]

/-- The work of a decision is answered by what the tables and the caches hold. -/
theorem Faithful.answer_applyDecision_of_chronicle? {n : Market} (htables : n.tables = m.tables)
    (hcaches : n.caches.uncounted = m.caches.uncounted) :
    n.answer (applyDecision bidId decision) =
      if x.status ≠ .published then .error (.bidNotPublished bidId)
      else if decision = .approve ∧ y.status ≠ .published then
        .error (.tenderNotPublished x.origin.tenderId)
      else .ok () := by
  have hbid := hm.bids.row?_of_chronicle? hx
  have htender := hm.tenders.row?_of_chronicle? hy
  have hknows : n.caches.bids.knows bidId = true :=
    (bids_lawful.knows_congr hcaches bidId).trans (hm.knows_of_bid hbid)
  have hknowsTender : n.caches.tenders.knows x.origin.tenderId = true :=
    (tenders_lawful.knows_congr hcaches x.origin.tenderId).trans (hm.knows_of_tender htender)
  rw [← htables] at hbid htender
  exact answer_applyDecision hknows hbid hknowsTender htender decision

omit hy in
/-- After the work of a decision that passes, the bid is read as it has become. -/
theorem Faithful.answer_get_of_applyDecision {n : Market}
    (hn : n.uncounted = { m.uncounted with ids := m.ids.draw.2 })
    (hwork : n.opened.answer (applyDecision bidId decision) = .ok ()) :
    ({ n.opened.after (applyDecision bidId decision) with
        transaction := n.transaction } : Market).answer (bids.get bidId) =
      .ok { x.entity bidId with status := decision.bidStatus } := by
  have htables : n.tables = m.tables := (congrArg Market.tables hn :)
  have hcaches : n.caches.uncounted = m.caches.uncounted := (congrArg Market.caches hn :)
  have htransaction : n.transaction = m.transaction := (congrArg Market.transaction hn :)
  have hkept := (achieves_applyDecision n.opened bidId decision).committed
    (fun _ => silent_of_mem_decisionWrites) rfl hwork
  have hsound : n.Sound := ⟨htables ▸ hm.tenders, htables ▸ hm.bids, htransaction.trans hm.settled⟩
  have hbid := hm.bids.row?_of_chronicle? hx
  have hhas : bids.Has n bidId :=
    ⟨(bids_lawful.knows_congr hcaches bidId).trans (hm.knows_of_bid hbid),
      htables ▸ Register.mem_ids_of_row? hbid⟩
  obtain ⟨bid, hget⟩ := exists_answer_get_decided hsound hhas hkept
  have hleft := tables_of_decisionWrites (htables ▸ hm.bids) (htables ▸ hx) hkept
  have hfound : Register.find? (Tables.bids _) bidId = some bid :=
    bids_lawful.find?_of_answer_get hget
  rw [hleft, htables, find?_decided hm.bids hx] at hfound
  rw [hget, Option.some.inj hfound]

/-- In time, a decision is refused for what the tables object to it, or else is answered with the
bid as it has become. -/
theorem Faithful.answer_submitDecision (htimely : m.MeetsDeadlines) :
    m.answer (submitDecision actor bidId decision) =
      match m.tables.objection? actor decision (x.entity bidId) (y.entity x.origin.tenderId) with
      | some refusal => .error refusal
      | none => .ok { x.entity bidId with status := decision.bidStatus } := by
  obtain ⟨n, hn, hsubmit⟩ := exists_answer_submitDecision_eq htimely
    (hm.answer_bidOrganization_of_chronicle? hx hy) actor decision
  have htables : n.opened.tables = m.tables := (congrArg Market.tables hn :)
  have hcaches : n.opened.caches.uncounted = m.caches.uncounted := (congrArg Market.caches hn :)
  have hguard := hm.answer_requireResponsible actor y.origin.organizationId
  have hwork := hm.answer_applyDecision_of_chronicle? hx hy decision htables hcaches
  have hobjection : m.tables.objection? actor decision (x.entity bidId)
      (y.entity x.origin.tenderId) =
        if ∀ user ∈ m.tables.users, user.username ≠ actor then some (.notFound .user actor)
        else if ¬ m.tables.ActsFor actor y.origin.organizationId then
          some (.notResponsible actor y.origin.organizationId)
        else if x.status ≠ .published then some (.bidNotPublished bidId)
        else if decision = .approve ∧ y.status ≠ .published then
          some (.tenderNotPublished x.origin.tenderId)
        else none := rfl
  rw [hobjection, hsubmit, hguard]
  by_cases hunknown : ∀ user ∈ m.tables.users, user.username ≠ actor
  · simp only [if_pos hunknown]
  by_cases hacts : ¬ m.tables.ActsFor actor y.origin.organizationId
  · simp only [if_neg hunknown, if_pos hacts]
  simp only [if_neg hunknown, if_neg hacts]
  by_cases hunpublished : x.status ≠ .published
  · rw [if_pos hunpublished] at hwork ⊢
    rw [hwork]
  rw [if_neg hunpublished] at hwork ⊢
  by_cases hclosed : decision = .approve ∧ y.status ≠ .published
  · rw [if_pos hclosed] at hwork ⊢
    rw [hwork]
  rw [if_neg hclosed] at hwork ⊢
  rw [hwork]
  exact hm.answer_get_of_applyDecision hx decision hn hwork

/-- In time, a decision leaves the tables decided if nothing is objected, and as they were if
something is. -/
theorem Faithful.tables_after_submitDecision (htimely : m.MeetsDeadlines) :
    (m.after (submitDecision actor bidId decision)).tables =
      match m.tables.objection? actor decision (x.entity bidId) (y.entity x.origin.tenderId) with
      | some _ => m.tables
      | none => m.tables.decided (x.entity bidId) decision := by
  have hperforms := performs_submitDecision hm.toSound actor bidId decision
  have hanswer := hm.answer_submitDecision hx hy actor decision htimely
  cases hobjection : m.tables.objection? actor decision (x.entity bidId)
      (y.entity x.origin.tenderId) with
  | some refusal =>
    rw [hobjection] at hanswer
    exact tables_of_substance (hperforms.refused rfl hanswer)
  | none =>
    rw [hobjection] at hanswer
    exact tables_of_decisionWrites hm.bids hx (hperforms.accepted rfl hanswer)

end Faithful

/-- A decision about a bid that is not stored does not find it. -/
theorem Faithful.answer_submitDecision_of_unknown {m : Market} (hm : m.Faithful)
    {bidId : String} (hbid : bidId ∉ m.tables.bids.ids) (actor : String) (decision : Decision) :
    m.answer (submitDecision actor bidId decision) = .error (.notFound .bid bidId) := by
  have hunknown : ¬ m.caches.bids.knows bidId = true := by
    rw [ExistenceCache.knows_iff, hm.mirror.bids]
    exact hbid
  have hissued : ({ m with ids := m.ids.draw.2 } : Market).answer (bidOrganization bidId) =
      .error (.notFound .bid bidId) := by
    rw [answer_bidOrganization]
    exact if_neg hunknown
  unfold submitDecision
  rw [answer_bind, answer_drawId, after_drawId]
  exact answer_bind_of_error hissued

end Market

namespace Session

/-- In every run the tender of every bid is stored. -/
theorem holdsTenders_after (stage : Stage) (decisionLimit : Option UInt64) (steps : List Step) :
    ((fresh stage decisionLimit).after steps).market.tables.HoldsTenders :=
  keeps_after (sound_fresh stage decisionLimit) Tables.HoldsTenders
    (fun happlied ht => ht.of_applyTo? happlied) (fun _ hmem => absurd hmem List.not_mem_nil) steps

/-- In every run, a decision in time is answered with what is wrong first: the bid is not stored,
or the tables object to the decision. Then nothing has changed. Otherwise it is answered with the
bid under its new status, and the tables have become those of the decision. -/
theorem decisions_follow_tables (stage : Stage) (decisionLimit : Option UInt64)
    (steps : List Step) (hsteps : ∀ step ∈ steps, step.learns = false)
    (offered : Option String) (actor bidId : String) (decision : Decision) :
    let m := ((fresh stage decisionLimit).after steps).market
    let next := m.step (.request offered (.operation (.submitDecision actor bidId decision)))
    m.MeetsDeadlines →
      (bidId ∉ m.tables.bids.ids →
        next.1 = .error (.notFound .bid bidId) ∧ next.2.tables = m.tables) ∧
      (bidId ∈ m.tables.bids.ids → ∃ bid tender, m.tables.bids.find? bidId = some bid ∧
        m.tables.tenders.find? bid.origin.tenderId = some tender ∧
        match m.tables.objection? actor decision bid tender with
        | some refusal => next.1 = .error refusal ∧ next.2.tables = m.tables
        | none => next.1 = .ok (.bid { bid with status := decision.bidStatus }) ∧
            next.2.tables = m.tables.decided bid decision) := by
  intro m next htimely
  have hm : m.Faithful := faithful_after (faithful_fresh stage decisionLimit) hsteps
  have hoffered : (m.offer offered).Faithful := faithful_offer hm offered
  have hanswer : next.1 =
      ((m.offer offered).answer (Market.submitDecision actor bidId decision)).map .bid :=
    Market.answer_map _ _ _
  have hafter : next.2 = (m.offer offered).after (Market.submitDecision actor bidId decision) :=
    Market.after_map _ _ _
  constructor
  · intro hmem
    have hrefused := hoffered.answer_submitDecision_of_unknown hmem actor decision
    have hperforms := Market.performs_submitDecision hoffered.toSound actor bidId decision
    rw [hanswer, hafter, hrefused]
    exact ⟨rfl, Market.tables_of_substance (hperforms.refused rfl hrefused)⟩
  · intro hmem
    obtain ⟨x, hx⟩ := hm.bids.exists_chronicle?_of_mem hmem
    have hstored := holdsTenders_after stage decisionLimit steps (x.row bidId)
      (Register.mem_of_row? (hm.bids.row?_of_chronicle? hx))
    have htender := (Register.isSome_row?_iff _).mp hstored
    obtain ⟨y, hy⟩ := hm.tenders.exists_chronicle?_of_mem htender
    refine ⟨x.entity bidId, y.entity x.origin.tenderId, hm.bids.find?_of_chronicle? hx,
      hm.tenders.find?_of_chronicle? hy, ?_⟩
    have hreply := hoffered.answer_submitDecision hx hy actor decision htimely
    have htables := hoffered.tables_after_submitDecision hx hy actor decision htimely
    have hsame : (m.offer offered).tables = m.tables := rfl
    rw [hsame] at hreply htables
    rw [hanswer, hafter, hreply, htables]
    cases m.tables.objection? actor decision (x.entity bidId) (y.entity x.origin.tenderId) with
    | some refusal => exact ⟨rfl, rfl⟩
    | none => exact ⟨rfl, rfl⟩

/-- The published bid on a published tender is approved. -/
theorem decisions_follow_tables_approved :
    let m := ((fresh .assembled (some 10)).after biddingRun).market
    let approval := Step.request none (.operation (.submitDecision "ann" "b" .approve))
    (∀ step ∈ biddingRun, step.learns = false) ∧ m.MeetsDeadlines ∧
      ∃ bid, m.tables.bids.find? "b" = some bid ∧
        (m.step approval).1 = .ok (.bid { bid with status := .approved }) ∧
        (m.step approval).2.tables = m.tables.decided bid .approve := by
  intro m approval
  have hlearns : ∀ step ∈ biddingRun, step.learns = false := by decide
  have htimely : m.MeetsDeadlines := by
    intro hslow
    exact absurd hslow (by decide)
  have hpassed : ((m.tables.bids.find? "b").bind fun bid =>
      (m.tables.tenders.find? bid.origin.tenderId).map fun tender =>
        m.tables.objection? "ann" .approve bid tender) = some none := by decide
  obtain ⟨_, hknown⟩ := decisions_follow_tables .assembled (some 10) biddingRun hlearns none
    "ann" "b" .approve htimely
  obtain ⟨bid, tender, hbid, htender, hverdict⟩ := hknown (by decide)
  rw [hbid, Option.bind_some, htender, Option.map_some] at hpassed
  rw [Option.some.inj hpassed] at hverdict
  exact ⟨hlearns, htimely, bid, hbid, hverdict⟩

end Session

end Procurement

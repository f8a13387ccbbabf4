import Procurement.Proofs.Mirror
import Mathlib.Data.List.Induction

/-!
# Decisions are final

A bid comes to the status of a decision only by an accepted decision, and leaves
neither such a status nor the canceled one. The step lemma of this file says how
a step may move the status of one bid, depending on whether the step is an
accepted decision on it; over a run, the decisions on a bid can therefore be read
off its status.
-/

namespace Procurement

/-- The status of an entity, if there is one. -/
def Register.status? {Status Origin Content : Type} (r : Register Status Origin Content)
    (id : String) : Option Status :=
  (r.row? id).map Row.status

/-- What becomes of the status of an entity with a change. -/
def Change.statusAfter {Status Origin Content : Type} (initial : Status) (id : String)
    (status? : Option Status) : Change Status Origin Content → Option Status
  | .insert new _ _ _ => if id = new then some initial else status?
  | .setStatus other status => if id = other then status?.map fun _ => status else status?
  | _ => status?

namespace Register.Dense

variable {Status Origin Content : Type} {r r' : Register Status Origin Content} {initial : Status}

/-- A change moves the status of one entity as it says. -/
theorem status?_of_change? {change : Change Status Origin Content} (hr : r.Dense)
    (h : r.change? initial change = some r') (id : String) :
    r'.status? id = change.statusAfter initial id (r.status? id) := by
  unfold status?
  rw [hr.row?_of_change? h]
  cases change with
  | insert new origin createdAt content =>
    simp only [Change.rowAfter, Change.statusAfter]
    split <;> rfl
  | setStatus other status =>
    simp only [Change.rowAfter, Change.statusAfter]
    split
    · rw [Option.map_map, Option.map_map]
      rfl
    · rfl
  | append other _ | restore other _ =>
    simp only [Change.rowAfter, Change.statusAfter]
    split
    · rw [Option.map_map]
      rfl
    · rfl

/-- Changes move the status of an entity one after the other. -/
theorem status?_of_changeAll? {changes : List (Change Status Origin Content)} (hr : r.Dense)
    (h : r.changeAll? initial changes = some r') (id : String) :
    r'.status? id =
      changes.foldl (fun status? change => change.statusAfter initial id status?)
        (r.status? id) := by
  induction changes generalizing r with
  | nil => exact Option.some.inj h ▸ rfl
  | cons change rest ih =>
    obtain ⟨next, hnext, hrest⟩ := Option.bind_eq_some_iff.mp h
    rw [ih (hr.of_change? hnext) hrest, hr.status?_of_change? hnext, List.foldl_cons]

end Register.Dense

/-- How the status of a bid may move in one step, given the decision that was accepted on it. -/
inductive StatusMove : Option Decision → Option BidStatus → Option BidStatus → Prop
  | keep (status? : Option BidStatus) : StatusMove none status? status?
  | create : StatusMove none none (some .created)
  | author {source target : BidStatus} (hsource : source ∈ BidStatus.authorMutable)
      (htarget : target.isDecision = false) : StatusMove none (some source) (some target)
  | decide (decision : Decision) :
      StatusMove (some decision) (some .published) (some decision.bidStatus)

/-- The changes to the bids that an operation makes if it is accepted. -/
def Operation.bidChanges (m : Market) :
    Operation → List (Change BidStatus BidOrigin BidContent)
  | createBid tenderId author content => [.insert m.ids.draw.1 { tenderId, author } m.now content]
  | setBidStatus _ id status => [.setStatus id status]
  | editBid _ id content => [.append id content]
  | rollbackBid _ id version => [.restore id version]
  | submitDecision _ bidId decision => [.setStatus bidId decision.bidStatus]
  | _ => []

/-- What an operation writes to the bids are its changes to them. -/
theorem Operation.flatMap_bidChanges (m : Market) (op : Operation) :
    (op.writes m).flatMap Write.bidChanges = op.bidChanges m := by
  cases op with
  | makeResponsible organizationId username =>
    simp only [writes, Market.writesOf]
    cases m.caches.users.value? username <;> rfl
  | createTender actor organizationId content =>
    simp only [writes, Market.writesOf]
    cases m.caches.users.value? actor <;> rfl
  | submitDecision actor bidId decision =>
    simp only [writes, Market.decisionWrites, Market.closingWrites]
    cases m.tables.bids.row? bidId <;> cases decision <;> rfl
  | submitFeedback actor bidId content =>
    simp only [writes, Market.feedbackWrites, Market.writesOf]
    cases m.tables.bids.row? bidId <;> cases m.caches.users.value? actor <;> rfl
  | _ => rfl

namespace Market

variable {m : Market}

/-- Authors move a bid only as long as it is neither decided nor canceled, and decide nothing. -/
theorem of_answer_setBidStatus {actor bidId : String} {status : BidStatus} {bid : Bid}
    (h : m.answer (setBidStatus actor bidId status) = .ok bid) :
    status.isDecision = false ∧
      ∃ source ∈ BidStatus.authorMutable, m.tables.bids.status? bidId = some source := by
  obtain ⟨_, _, hmoved⟩ := answer_bind_eq_ok_iff.mp h
  dsimp only at hmoved
  split at hmoved
  · cases hmoved
  · rename_i hdecision
    obtain ⟨changed, hchanged, hread⟩ := answer_bind_eq_ok_iff.mp hmoved
    cases changed with
    | false => cases hread
    | true =>
      have hany := (bids_writes.any_of_answer_setStatusFrom hchanged).2
      rw [(onlyReads_requireAuthor actor bidId).tables_after m] at hany
      obtain ⟨row, hrow, hsource⟩ := (Option.any_eq_true _ _).mp hany
      refine ⟨by simpa using hdecision, row.status, by simpa using hsource, ?_⟩
      exact congrArg (Option.map Row.status) hrow

/-- A decision is accepted from someone responsible for the tender only, and with its work. -/
theorem exists_of_answer_submitDecision {actor bidId : String} {decision : Decision} {bid : Bid}
    (h : m.answer (submitDecision actor bidId decision) = .ok bid) :
    ∃ (organizationId : String) (n : Market),
      m.tables.organizationOfBid? bidId = some organizationId ∧
        m.knowsResponsible actor organizationId ∧ n.tables = m.tables ∧
        n.answer (applyDecision bidId decision) = .ok () := by
  obtain ⟨_, _, hguarded⟩ := answer_bind_eq_ok_iff.mp h
  rw [after_drawId] at hguarded
  obtain ⟨organizationId, m₁, horganization, hm₁, hguarded⟩ :=
    (onlyReads_bidOrganization bidId).exists_of_answer_bind rfl hguarded
  obtain ⟨_, m₂, hresponsible, hm₂, hdecided⟩ :=
    (onlyReads_requireResponsible actor organizationId).exists_of_answer_bind hm₁ hguarded
  have hissued := (of_answer_bidOrganization horganization).2
  have hknown := (answer_requireResponsible_eq_ok_iff _ actor organizationId).mp hresponsible
  obtain ⟨m₃, _, hdecided⟩ := answer_bind_eq_ok_iff.mp hdecided
  rw [after_get] at hdecided
  have htables : m₂.tables = m.tables := (tables_of_uncounted hm₂ :)
  exact ⟨organizationId, m₂.opened, hissued, hknown, htables,
    (touchesTables_applyDecision bidId decision).answer_of_decisionTransaction
      m₃.decisionLimit hdecided⟩

/-- Only a published bid is decided, and only by someone responsible for the tender. -/
theorem of_answer_submitDecision {actor bidId : String} {decision : Decision} {bid : Bid}
    (h : m.answer (submitDecision actor bidId decision) = .ok bid) :
    m.tables.bids.status? bidId = some .published ∧
      ∃ organizationId, m.tables.organizationOfBid? bidId = some organizationId ∧
        m.knowsResponsible actor organizationId := by
  obtain ⟨organizationId, n, hissued, hknown, htables, hdecided⟩ :=
    exists_of_answer_submitDecision h
  refine ⟨?_, organizationId, hissued, hknown⟩
  obtain ⟨row, hrow, hpublished⟩ := exists_of_answer_applyDecision hdecided
  rw [htables] at hrow
  unfold Register.status?
  rw [hrow, Option.map_some, hpublished]

end Market

/-- The decision on a bid that an operation asks for. -/
def Operation.decisionOn? (bidId : String) : Operation → Option Decision
  | submitDecision _ other decision => if other = bidId then some decision else none
  | _ => none

/-- The decision on a bid that a request asks for. -/
def Request.decisionOn? (bidId : String) : Request → Option Decision
  | operation op => op.decisionOn? bidId
  | _ => none

/-- Only a request of a user to decide asks for a decision. -/
theorem Request.decisionOn?_eq_some_iff {bidId : String} {request : Request}
    {decision : Decision} :
    request.decisionOn? bidId = some decision ↔
      ∃ actor, request = .operation (.submitDecision actor bidId decision) := by
  cases request with
  | operation op => cases op <;> simp [decisionOn?, Operation.decisionOn?]
  | _ => simp [decisionOn?]

/-- An accepted operation moves the status of a bid as its decision allows. -/
theorem Operation.statusMove {m : Market} (hm : m.Sound) {op : Operation} {answer : Answer}
    (h : m.answer op.perform = .ok answer) {bids : Register BidStatus BidOrigin BidContent}
    (hbids : m.tables.bids.changeAll? .created (op.bidChanges m) = some bids) (bidId : String) :
    StatusMove (op.decisionOn? bidId) (m.tables.bids.status? bidId) (bids.status? bidId) := by
  rw [hm.bids.status?_of_changeAll? hbids]
  cases op with
  | createBid tenderId author content =>
    simp only [bidChanges, List.foldl_cons, List.foldl_nil, Change.statusAfter, decisionOn?]
    split
    · rename_i hnew
      obtain ⟨_, hinsert, _⟩ := Option.bind_eq_some_iff.mp hbids
      have hnone : m.tables.bids.row? bidId = none :=
        hnew ▸ Register.row?_eq_none_of_insert? hinsert
      unfold Register.status?
      rw [hnone]
      exact .create
    · exact .keep _
  | setBidStatus actor other status =>
    simp only [bidChanges, List.foldl_cons, List.foldl_nil, Change.statusAfter, decisionOn?]
    split
    · rename_i heq
      obtain ⟨bid, hbid, _⟩ := Market.answer_map_eq_ok_iff.mp h
      obtain ⟨htarget, source, hsource, hstatus⟩ := Market.of_answer_setBidStatus hbid
      rw [heq, hstatus]
      exact .author hsource htarget
    · exact .keep _
  | submitDecision actor other decision =>
    simp only [bidChanges, List.foldl_cons, List.foldl_nil, Change.statusAfter, decisionOn?]
    by_cases heq : bidId = other
    · obtain ⟨bid, hbid, _⟩ := Market.answer_map_eq_ok_iff.mp h
      obtain ⟨hpublished, _⟩ := Market.of_answer_submitDecision hbid
      rw [if_pos heq, if_pos heq.symm, heq, hpublished]
      exact .decide decision
    · rw [if_neg heq, if_neg (Ne.symm heq)]
      exact .keep _
  | _ => exact .keep _

/-! ## Runs -/

/-- Whether a step makes no request behind the services, where no authority is checked. -/
def Step.isGuarded : Step → Bool
  | .request _ (.store _) | .request _ (.learn _) => false
  | _ => true

/-- A step that makes no request behind the services teaches no cache by hand. -/
theorem Step.learns_of_isGuarded {step : Step} (h : step.isGuarded = true) :
    step.learns = false := by
  unfold isGuarded at h
  unfold learns
  split
  · cases h
  · rfl

/-- The statuses that a bid never leaves. -/
def BidStatus.final : List BidStatus := [.approved, .rejected, .canceled]

/-- What an author may change is not final. -/
theorem BidStatus.not_mem_final {status : BidStatus} (h : status ∈ authorMutable) :
    status ∉ final := by
  revert h
  cases status <;> decide

/-- The decision that a status tells of. -/
def BidStatus.decision? : BidStatus → Option Decision
  | .approved => some .approve
  | .rejected => some .reject
  | _ => none

/-- Just the status of a decision tells of it. -/
theorem BidStatus.decision?_eq_some_iff {status : BidStatus} {decision : Decision} :
    status.decision? = some decision ↔ status = decision.bidStatus := by
  cases status <;> cases decision <;> decide

/-- Whether a user of that name is stored as responsible for the tender of the bid. -/
def Tables.MayDecide (t : Tables) (actor bidId : String) : Prop :=
  ∃ organizationId, t.organizationOfBid? bidId = some organizationId ∧
    ∃ user ∈ t.users, user.username = actor ∧ t.isResponsible organizationId user.id = true

namespace StatusMove

variable {decision? : Option Decision} {source? target? : Option BidStatus}

/-- No move leads away from a final status. -/
theorem eq_of_final (h : StatusMove decision? source? target?) {status : BidStatus}
    (hfinal : status ∈ BidStatus.final) (hsource : source? = some status) :
    target? = some status := by
  cases h with
  | keep => exact hsource
  | create => cases hsource
  | author hmutable _ =>
    obtain rfl := Option.some.inj hsource
    exact absurd hfinal (BidStatus.not_mem_final hmutable)
  | decide decision =>
    obtain rfl := Option.some.inj hsource
    exact absurd hfinal (by decide)

/-- The status tells of one decision more than before, if there was one. -/
theorem toList_decision? (h : StatusMove decision? source? target?) :
    (target?.bind BidStatus.decision?).toList =
      (source?.bind BidStatus.decision?).toList ++ decision?.toList := by
  cases h with
  | keep => exact (List.append_nil _).symm
  | create => rfl
  | author hmutable htarget =>
    rename_i source target
    revert hmutable htarget
    cases source <;> cases target <;> decide
  | decide decision => cases decision <;> rfl

end StatusMove

namespace Session

/-- The decision on a bid that a step is, if it is accepted with the answer to it. -/
def decisionOn? (bidId : String) : Step × Option Reply → Option Decision
  | (.request _ request, some (.ok _)) => request.decisionOn? bidId
  | _ => none

/-- The accepted decisions on a bid in a run. -/
def decisions (s : Session) (steps : List Step) (bidId : String) : List Decision :=
  (s.transcript steps).filterMap (decisionOn? bidId)

/-- A step more adds its own decision to those before it. -/
theorem decisions_concat (s : Session) (steps : List Step) (step : Step) (bidId : String) :
    s.decisions (steps ++ [step]) bidId =
      s.decisions steps bidId ++
        (decisionOn? bidId (step, ((s.after steps).step step).1)).toList := by
  unfold decisions
  rw [transcript_concat, List.filterMap_append]
  cases h : decisionOn? bidId (step, ((s.after steps).step step).1) <;> simp [h]

/-- The status of a bid, if it is stored. -/
def bidStatus? (s : Session) (bidId : String) : Option BidStatus :=
  s.market.tables.bids.status? bidId

/-- A request in a session is answered by the market, which was offered an identifier. -/
theorem answer_of_step {s : Session} {id : Option String} {request : Request} {answer : Answer}
    (h : (s.step (.request id request)).1 = some (.ok answer)) :
    (s.market.offer id).answer request.perform = .ok answer := by
  obtain ⟨stage, m⟩ := s
  cases stage with
  | bare => cases h
  | migrated => cases h
  | assembled => exact Option.some.inj h

/-- Each step moves the status of a bid as the decision that the step is allows. -/
theorem statusMove_step {s : Session} (hs : s.market.Sound) {step : Step}
    (hstep : step.isGuarded = true) (bidId : String) :
    StatusMove (decisionOn? bidId (step, (s.step step).1)) (s.bidStatus? bidId)
      ((s.step step).2.bidStatus? bidId) := by
  obtain ⟨n, hn, htables, _⟩ := exists_writeAll? hs step
  have hbids := (Market.registers_of_writeAll? hn).2
  have hkept (hnone : (s.writes step).flatMap Write.bidChanges = []) :
      StatusMove none (s.bidStatus? bidId) (n.tables.bids.status? bidId) := by
    rw [hnone] at hbids
    unfold bidStatus?
    rw [Option.some.inj hbids]
    exact .keep _
  unfold bidStatus? at hkept ⊢
  rw [← htables]
  -- Only an accepted operation can change a bid; whatever else is asked keeps all of them.
  cases step with
  | request id request =>
    cases hreply : (s.step (.request id request)).1 with
    | none => exact hkept (by simp [writes, hreply])
    | some reply =>
      cases reply with
      | error refusal => exact hkept (by simp [writes, hreply])
      | ok answer =>
        have hwrites : s.writes (.request id request) = request.writes (s.market.offer id) := by
          simp only [writes, hreply]
        rw [hwrites] at hbids hkept
        cases request with
        | operation op =>
          have hop : (op.writes (s.market.offer id)).flatMap Write.bidChanges =
            op.bidChanges (s.market.offer id) := op.flatMap_bidChanges _
          exact op.statusMove (sound_offer hs id) (answer_of_step hreply) (hop ▸ hbids) bidId
        | store op => cases hstep
        | learn registration => cases hstep
        | feedback op => exact hkept (by cases op <;> rfl)
        | _ => exact hkept rfl
  | _ => exact hkept rfl

/-- The decisions on a bid are read off its status. -/
theorem decisions_after {s : Session} (hs : s.market.Sound) (bidId : String)
    (hnone : s.bidStatus? bidId = none) {steps : List Step}
    (hsteps : ∀ step ∈ steps, step.isGuarded = true) :
    s.decisions steps bidId =
      (((s.after steps).bidStatus? bidId).bind BidStatus.decision?).toList := by
  -- The last step meets the session after all others, so the run is taken from its end.
  induction steps using List.reverseRecOn with
  | nil =>
    rw [after_nil, hnone]
    rfl
  | append_singleton steps step ih =>
    have hbefore : ∀ step ∈ steps, step.isGuarded = true :=
      fun step' hmem => hsteps step' (List.mem_append_left _ hmem)
    have hmove := statusMove_step (sound_after hs steps)
      (hsteps step (List.mem_append_right _ List.mem_cons_self)) bidId
    rw [decisions_concat, ih hbefore, after_concat, hmove.toList_decision?]

/-- No step takes a bid out of a final status. -/
theorem final_after {s : Session} (hs : s.market.Sound) {bidId : String} {status : BidStatus}
    (hfinal : status ∈ BidStatus.final) (hstatus : s.bidStatus? bidId = some status)
    {steps : List Step} (hsteps : ∀ step ∈ steps, step.isGuarded = true) :
    (s.after steps).bidStatus? bidId = some status := by
  induction steps generalizing s with
  | nil => exact hstatus
  | cons step rest ih =>
    have hmove := statusMove_step hs (hsteps step List.mem_cons_self) bidId
    exact ih (sound_step hs step) (hmove.eq_of_final hfinal hstatus)
      fun step' hmem => hsteps step' (List.mem_cons_of_mem _ hmem)

/-- A step decides on a bid just if it is an accepted request to do so. -/
theorem decisionOn?_eq_some_iff {bidId : String} {entry : Step × Option Reply}
    {decision : Decision} :
    decisionOn? bidId entry = some decision ↔ ∃ offered actor answer,
      entry = (.request offered (.operation (.submitDecision actor bidId decision)),
        some (.ok answer)) := by
  constructor
  · intro h
    unfold decisionOn? at h
    split at h
    · rename_i offered request answer
      obtain ⟨actor, rfl⟩ := Request.decisionOn?_eq_some_iff.mp h
      exact ⟨offered, actor, answer, rfl⟩
    · cases h
  · rintro ⟨offered, actor, answer, rfl⟩
    exact if_pos rfl

/-- A decision was accepted in a run just if some step of the run was an accepted request
for it. -/
theorem mem_decisions_iff {s : Session} {steps : List Step} {bidId : String}
    {decision : Decision} :
    decision ∈ s.decisions steps bidId ↔ ∃ before offered actor answer rest,
      steps = before ++
        .request offered (.operation (.submitDecision actor bidId decision)) :: rest ∧
      ((s.after before).step
        (.request offered (.operation (.submitDecision actor bidId decision)))).1 =
          some (.ok answer) := by
  unfold decisions
  rw [List.mem_filterMap]
  constructor
  · rintro ⟨entry, hentry, hdecision⟩
    obtain ⟨offered, actor, answer, rfl⟩ := decisionOn?_eq_some_iff.mp hdecision
    obtain ⟨before, step, rest, rfl, heq⟩ := mem_transcript_iff.mp hentry
    obtain ⟨rfl, hanswer⟩ := Prod.mk.inj heq
    exact ⟨before, offered, actor, answer, rest, rfl, hanswer.symm⟩
  · rintro ⟨before, offered, actor, answer, rest, heq, hanswer⟩
    refine ⟨_, mem_transcript_iff.mpr ⟨before, _, rest, heq, rfl⟩, ?_⟩
    exact decisionOn?_eq_some_iff.mpr ⟨offered, actor, answer, by rw [hanswer]⟩

/-- Who decides on a bid is stored as responsible for its tender. -/
theorem mayDecide_of_decided {s : Session} (hs : s.market.Faithful) {offered : Option String}
    {actor bidId : String} {decision : Decision} {answer : Answer}
    (h : (s.step (.request offered (.operation (.submitDecision actor bidId decision)))).1 =
      some (.ok answer)) :
    s.market.tables.MayDecide actor bidId := by
  obtain ⟨bid, hbid, _⟩ := Market.answer_map_eq_ok_iff.mp (answer_of_step h)
  obtain ⟨_, organizationId, hissued, userId, huserId, hresponsible⟩ :=
    Market.of_answer_submitDecision hbid
  obtain ⟨user, hstored, hname, rfl⟩ := (hs.value?_eq_some_iff actor userId).mp huserId
  exact ⟨organizationId, hissued, user, hstored, hname, hresponsible⟩

/-- In a run that makes no request behind the services, no step takes a bid out of a final
status, at most one decision on it is accepted, and the bid has the status of a decision exactly
if such a decision was accepted before, from someone responsible for the tender at that time. -/
theorem decisions_settle_bids (stage : Stage) (decisionLimit : Option UInt64)
    (steps more : List Step) (hsteps : ∀ step ∈ steps ++ more, step.isGuarded = true)
    (bidId : String) :
    let s := fresh stage decisionLimit
    (∀ status ∈ BidStatus.final, (s.after steps).bidStatus? bidId = some status →
        (s.after (steps ++ more)).bidStatus? bidId = some status) ∧
      (s.decisions steps bidId).length ≤ 1 ∧
      ∀ decision : Decision, (s.after steps).bidStatus? bidId = some decision.bidStatus ↔
        ∃ before offered actor answer rest,
          steps = before ++
            .request offered (.operation (.submitDecision actor bidId decision)) :: rest ∧
          ((s.after before).step
            (.request offered (.operation (.submitDecision actor bidId decision)))).1 =
              some (.ok answer) ∧
          (s.after before).market.tables.MayDecide actor bidId := by
  intro s
  have hsound : s.market.Sound := sound_fresh stage decisionLimit
  have hguarded : ∀ step ∈ steps, step.isGuarded = true :=
    fun step hmem => hsteps step (List.mem_append_left _ hmem)
  have hdecisions := decisions_after hsound bidId rfl hguarded
  refine ⟨fun status hfinal hstatus => ?_, ?_, fun decision => ?_⟩
  · rw [after_append]
    exact final_after (sound_after hsound steps) hfinal hstatus
      fun step hmem => hsteps step (List.mem_append_right _ hmem)
  · rw [hdecisions]
    exact Option.length_toList_le
  · have hmem : (s.after steps).bidStatus? bidId = some decision.bidStatus ↔
        decision ∈ s.decisions steps bidId := by
      rw [hdecisions, Option.mem_toList, Option.bind_eq_some_iff]
      simp only [BidStatus.decision?_eq_some_iff, exists_eq_right]
    rw [hmem, mem_decisions_iff]
    constructor
    · rintro ⟨before, offered, actor, answer, rest, rfl, hanswer⟩
      have hlearns : ∀ step ∈ before, step.learns = false := fun step hstep =>
        Step.learns_of_isGuarded (hguarded step (List.mem_append_left _ hstep))
      have hfaithful := faithful_after (faithful_fresh stage decisionLimit) hlearns
      exact ⟨before, offered, actor, answer, rest, rfl, hanswer,
        mayDecide_of_decided hfaithful hanswer⟩
    · rintro ⟨before, offered, actor, answer, rest, heq, hanswer, _⟩
      exact ⟨before, offered, actor, answer, rest, heq, hanswer⟩

/-- A bid that was approved is neither rejected nor canceled. -/
theorem decisions_settle_bids_approved :
    let s := fresh .assembled none
    let steps := biddingRun ++
      [.request none (.operation (.submitDecision "ann" "b" .approve))]
    let more := [.request none (.operation (.submitDecision "ann" "b" .reject)),
      .request none (.operation (.setBidStatus "ann" "b" .canceled))]
    (∀ step ∈ steps ++ more, step.isGuarded = true) ∧
      (s.after steps).bidStatus? "b" = some .approved ∧
      (s.after (steps ++ more)).bidStatus? "b" = some .approved ∧
      (s.decisions (steps ++ more) "b").length ≤ 1 := by
  intro s steps more
  have hguarded : ∀ step ∈ steps ++ more, step.isGuarded = true := by decide
  have happroved : (s.after steps).bidStatus? "b" = some .approved := by decide
  obtain ⟨hkept, _⟩ := decisions_settle_bids .assembled none steps more hguarded "b"
  obtain ⟨_, hsingle, _⟩ := decisions_settle_bids .assembled none (steps ++ more) []
    (by simpa using hguarded) "b"
  exact ⟨hguarded, happroved, hkept .approved (by decide) happroved, hsingle⟩

end Session

end Procurement

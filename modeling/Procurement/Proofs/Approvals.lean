import Procurement.Proofs.Decisions
import Procurement.Proofs.Versions

/-!
# Approvals and publications

An approval closes the tender of the bid, and nothing but a new publication opens
it again. So each approval of a bid uses up one publication of the tender. The
step lemmas of this file say how a step may move the status of one tender, and by
how many its approved bids may grow; the rest is counting.
-/

namespace Procurement

/-! ## Moves of a tender -/

/-- The tender that a bid answers. -/
def Tables.tenderOfBid? (t : Tables) (bidId : String) : Option String :=
  (t.bids.row? bidId).map fun row => row.origin.tenderId

/-- The changes to the tenders that an operation makes if it is accepted. -/
def Operation.tenderChanges (m : Market) :
    Operation → List (Change TenderStatus TenderOrigin TenderContent)
  | createTender actor organizationId content =>
    (m.caches.users.value? actor).toList.map fun creatorId =>
      .insert m.ids.draw.1 { organizationId, creatorId } m.now content
  | setTenderStatus _ id status => [.setStatus id status]
  | editTender _ id content => [.append id content]
  | rollbackTender _ id version => [.restore id version]
  | submitDecision _ bidId .approve =>
    (m.tables.tenderOfBid? bidId).toList.map fun tenderId => .setStatus tenderId .closed
  | _ => []

/-- What an operation writes to the tenders are its changes to them. -/
theorem Operation.flatMap_tenderChanges (m : Market) (op : Operation) :
    (op.writes m).flatMap Write.tenderChanges = op.tenderChanges m := by
  cases op with
  | makeResponsible organizationId username =>
    simp only [writes, Market.writesOf]
    cases m.caches.users.value? username <;> rfl
  | createTender actor organizationId content =>
    simp only [writes, Market.writesOf, tenderChanges]
    cases m.caches.users.value? actor <;> rfl
  | submitDecision actor bidId decision =>
    cases decision with
    | reject => rfl
    | approve =>
      simp only [writes, Market.decisionWrites, Market.closingWrites, tenderChanges,
        Tables.tenderOfBid?]
      cases m.tables.bids.row? bidId <;> rfl
  | submitFeedback actor bidId content =>
    simp only [writes, Market.feedbackWrites, Market.writesOf]
    cases m.tables.bids.row? bidId <;> cases m.caches.users.value? actor <;> rfl
  | _ => rfl

/-- Whether an operation is an approval of a bid on the tender. -/
def Operation.approves (t : Tables) (tenderId : String) : Operation → Bool
  | submitDecision _ bidId .approve => t.tenderOfBid? bidId == some tenderId
  | _ => false

/-- The status that an operation sets the tender to. -/
def Operation.statusSet? (tenderId : String) : Operation → Option TenderStatus
  | setTenderStatus _ other status => if tenderId = other then some status else none
  | _ => none

/-- How the status of a tender may move in one step, given whether the step is an approval of a
bid on it, and the status that the step sets it to. -/
inductive TenderMove :
    Bool → Option TenderStatus → Option TenderStatus → Option TenderStatus → Prop
  | keep (status? : Option TenderStatus) : TenderMove false none status? status?
  | create : TenderMove false none none (some .created)
  | set (source target : TenderStatus) :
      TenderMove false (some target) (some source) (some target)
  | close : TenderMove true none (some .published) (some .closed)

namespace Market

variable {m : Market}

/-- Deciding a bid leaves the tenders as they are. -/
theorem tenders_after_decideIfPublished {bidId : String} {target : BidStatus}
    {tenderId? : Option String}
    (h : m.answer (decideIfPublished bidId target) = .ok tenderId?) :
    (m.after (decideIfPublished bidId target)).tables.tenders = m.tables.tenders := by
  have hdecided := (performs_decideIfPublished m bidId target).accepted rfl h
  obtain ⟨n, hn, hsubstance⟩ := Option.map_eq_some_iff.mp hdecided
  have hnone : (bids.transitionWrites .bid m bidId [.published] target).flatMap
      Write.tenderChanges = [] := by
    unfold Catalogue.transitionWrites
    split <;> rfl
  have htenders := (registers_of_writeAll? hn).1
  rw [hnone] at htenders
  rw [← tables_of_substance hsubstance, ← Option.some.inj htenders]

/-- A bid is approved only as long as its tender is published. -/
theorem published_of_answer_applyDecision {bidId : String}
    (h : m.answer (applyDecision bidId .approve) = .ok ()) :
    ∃ tenderId, m.tables.tenderOfBid? bidId = some tenderId ∧
      m.tables.tenders.status? tenderId = some .published := by
  obtain ⟨tenderId?, hdecided, hclosed⟩ := answer_bind_eq_ok_iff.mp h
  cases tenderId? with
  | none => cases hclosed
  | some tenderId =>
    obtain ⟨bid, hbid, _, rfl⟩ := exists_of_answer_decideIfPublished hdecided
    refine ⟨bid.origin.tenderId, by rw [Tables.tenderOfBid?, hbid, Option.map_some], ?_⟩
    obtain ⟨closed, hclosed, haccepted⟩ := answer_bind_eq_ok_iff.mp hclosed
    cases closed with
    | false => cases haccepted
    | true =>
      have hany := (tenders_writes.any_of_answer_setStatusFrom hclosed).2
      have htenders := tenders_after_decideIfPublished hdecided
      obtain ⟨tender, htender, hpublished⟩ := (Option.any_eq_true _ _).mp hany
      have hrow : m.tables.tenders.row? bid.origin.tenderId = some tender := htenders ▸ htender
      have hstatus : tender.status = .published :=
        List.mem_singleton.mp (of_decide_eq_true hpublished)
      unfold Register.status?
      rw [hrow, Option.map_some, hstatus]

end Market

/-- An accepted operation moves the status of a tender as the status set by it, or its approval
of a bid on the tender, allows. -/
theorem Operation.tenderMove {m : Market} (hm : m.Sound) {op : Operation} {answer : Answer}
    (h : m.answer op.perform = .ok answer) {tenders : TenderRegister}
    (htenders : m.tables.tenders.changeAll? .created (op.tenderChanges m) = some tenders)
    (tenderId : String) :
    TenderMove (op.approves m.tables tenderId) (op.statusSet? tenderId)
      (m.tables.tenders.status? tenderId) (tenders.status? tenderId) := by
  rw [hm.tenders.status?_of_changeAll? htenders]
  cases op with
  | createTender actor organizationId content =>
    simp only [tenderChanges, approves, statusSet?] at htenders ⊢
    cases hcreator : m.caches.users.value? actor with
    | none => exact .keep _
    | some creatorId =>
      simp only [hcreator, Option.toList_some, List.map_cons, List.map_nil, List.foldl_cons,
        List.foldl_nil, Change.statusAfter] at htenders ⊢
      split
      · rename_i hnew
        obtain ⟨_, hinsert, _⟩ := Option.bind_eq_some_iff.mp htenders
        have hnone : m.tables.tenders.row? tenderId = none :=
          hnew ▸ Register.row?_eq_none_of_insert? hinsert
        unfold Register.status?
        rw [hnone]
        exact .create
      · exact .keep _
  | setTenderStatus actor other status =>
    simp only [tenderChanges, approves, statusSet?, List.foldl_cons, List.foldl_nil,
      Change.statusAfter]
    split
    · rename_i heq
      obtain ⟨tender, htender, _⟩ := Market.answer_map_eq_ok_iff.mp h
      obtain ⟨_, hmember, _⟩ := Market.answer_bind_eq_ok_iff.mp htender
      obtain ⟨row, hrow, _⟩ := Market.exists_of_answer_requireMember hmember
      unfold Register.status?
      rw [heq, hrow]
      exact .set row.status status
    · exact .keep _
  | submitDecision actor bidId decision =>
    cases decision with
    | reject => exact .keep _
    | approve =>
      obtain ⟨bid, hbid, _⟩ := Market.answer_map_eq_ok_iff.mp h
      obtain ⟨_, n, _, _, htables, hdecided⟩ := Market.exists_of_answer_submitDecision hbid
      obtain ⟨closed, hclosed, hpublished⟩ := Market.published_of_answer_applyDecision hdecided
      rw [htables] at hclosed hpublished
      simp only [tenderChanges, approves, statusSet?, hclosed, Option.toList_some, List.map_cons,
        List.map_nil, List.foldl_cons, List.foldl_nil, Change.statusAfter]
      by_cases heq : tenderId = closed
      · rw [if_pos heq, heq, hpublished, beq_self_eq_true]
        exact .close
      · have hother : (some closed == some tenderId) = false := by simpa using Ne.symm heq
        rw [if_neg heq, hother]
        exact .keep _
  | _ => exact .keep _

/-! ## Counting approved bids -/

namespace Register

variable {Status Origin Content : Type} {r r' : Register Status Origin Content}

/-- Setting a status to one that does not count adds nothing to the rows that count. -/
theorem countP_setStatus_le {id : String} {status : Status} {counts : Row Status Origin → Bool}
    (h : ∀ row ∈ r.rows, row.id = id → counts { row with status } = false) :
    (r.setStatus id status).rows.countP counts ≤ r.rows.countP counts := by
  simp only [setStatus, mapRow, List.countP_map]
  refine List.countP_mono_left fun row hrow hcounts => ?_
  simp only [Function.comp_apply] at hcounts
  split at hcounts
  · rename_i hid
    rw [h row hrow (by simpa using hid)] at hcounts
    cases hcounts
  · exact hcounts

/-- Setting the status of one entity adds at most one to the rows that count. -/
theorem countP_setStatus_le_succ (hr : r.ids.Nodup) (id : String) (status : Status)
    (counts : Row Status Origin → Bool) :
    (r.setStatus id status).rows.countP counts ≤ r.rows.countP counts + 1 := by
  have hone : r.rows.countP (fun row => row.id == id) ≤ 1 := by
    have hcount := List.nodup_iff_count_le_one.mp hr id
    rwa [ids, List.count, List.countP_map] at hcount
  -- The rows of the entity, of which there is at most one, are told from all others.
  simp only [setStatus, mapRow, List.countP_map]
  rw [List.countP_eq_countP_filter_add _ _ fun row => row.id == id, Nat.add_comm]
  refine Nat.add_le_add ?_ ?_
  · rw [List.countP_filter]
    refine List.countP_mono_left fun row _ hcounts => ?_
    simp only [Function.comp_apply, Bool.and_eq_true, Bool.not_eq_true'] at hcounts
    rw [hcounts.2] at hcounts
    exact hcounts.1
  · exact Nat.le_trans List.countP_le_length (List.countP_eq_length_filter ▸ hone)

/-- A new version changes nothing about the rows that count, if versions do not count. -/
theorem Dense.countP_of_append? (hr : r.Dense) {id : String} {content : Content}
    (h : r.append? id content = some r') {counts : Row Status Origin → Bool}
    (hcounts : ∀ row version, counts { row with version } = counts row) :
    r'.rows.countP counts = r.rows.countP counts := by
  obtain ⟨row, _, _, hrows⟩ := hr.eq_of_append? h
  rw [hrows]
  simp only [mapRow, List.countP_map]
  refine List.countP_congr fun row' _ => ?_
  simp only [Function.comp_apply]
  split <;> simp [hcounts]

end Register

/-- The number of approved bids on a tender. -/
def Tables.approvedBids (t : Tables) (tenderId : String) : Nat :=
  t.bids.rows.countP fun row => row.status == .approved && row.origin.tenderId == tenderId

/-- An accepted operation adds an approved bid to a tender only if it is an approval of it. -/
theorem Operation.approvedBids_le {m n : Market} (hm : m.Sound) {op : Operation} {answer : Answer}
    (h : m.answer op.perform = .ok answer)
    (hbids : m.tables.bids.changeAll? .created (op.bidChanges m) = some n.tables.bids)
    (tenderId : String) :
    n.tables.approvedBids tenderId ≤
      m.tables.approvedBids tenderId + if op.approves m.tables tenderId then 1 else 0 := by
  unfold Tables.approvedBids
  cases op with
  | createBid answered author content =>
    obtain ⟨_, hinsert, hnone⟩ := Option.bind_eq_some_iff.mp hbids
    rw [← Option.some.inj hnone, Register.eq_of_insert? hinsert, List.countP_append]
    exact Nat.le_refl _
  | setBidStatus actor id status =>
    obtain ⟨bid, hbid, _⟩ := Market.answer_map_eq_ok_iff.mp h
    obtain ⟨hundecided, _⟩ := Market.of_answer_setBidStatus hbid
    rw [← Option.some.inj hbids]
    refine Register.countP_setStatus_le fun row _ _ => ?_
    cases status <;> simp_all [BidStatus.isDecision]
  | editBid actor id content =>
    obtain ⟨_, happend, hnone⟩ := Option.bind_eq_some_iff.mp hbids
    rw [← Option.some.inj hnone, hm.bids.countP_of_append? happend fun _ _ => rfl]
    exact Nat.le_refl _
  | rollbackBid actor id version =>
    obtain ⟨_, hrestore, hnone⟩ := Option.bind_eq_some_iff.mp hbids
    obtain ⟨content, _, happend⟩ := Option.bind_eq_some_iff.mp hrestore
    rw [← Option.some.inj hnone, hm.bids.countP_of_append? happend fun _ _ => rfl]
    exact Nat.le_refl _
  | submitDecision actor bidId decision =>
    rw [← Option.some.inj hbids]
    cases decision with
    | reject => exact Register.countP_setStatus_le fun row _ _ => rfl
    | approve =>
      by_cases htender : m.tables.tenderOfBid? bidId = some tenderId
      · have hcounts : (submitDecision actor bidId .approve).approves m.tables tenderId = true :=
          beq_iff_eq.mpr htender
        rw [if_pos hcounts]
        exact Register.countP_setStatus_le_succ hm.bids.unique bidId _ _
      · have hcounts : (submitDecision actor bidId .approve).approves m.tables tenderId = false :=
          beq_eq_false_iff_ne.mpr htender
        rw [hcounts]
        refine Register.countP_setStatus_le fun row hrow hid => ?_
        have hfound := hm.bids.row?_of_mem hrow
        rw [hid] at hfound
        have hother : row.origin.tenderId ≠ tenderId := by
          intro heq
          exact htender (by rw [Tables.tenderOfBid?, hfound, Option.map_some, heq])
        simp [hother]
  | _ => rw [← Option.some.inj hbids]; exact Nat.le_refl _

/-! ## Runs -/

/-- The status that a request sets the tender to. -/
def Request.statusSet? (tenderId : String) : Request → Option TenderStatus
  | operation op => op.statusSet? tenderId
  | _ => none

/-- Whether a request sets the status of the tender. -/
def Request.setsStatus (tenderId : String) (request : Request) : Bool :=
  (request.statusSet? tenderId).isSome

/-- Whether a request publishes the tender. -/
def Request.publishes (tenderId : String) (request : Request) : Bool :=
  request.statusSet? tenderId == some .published

namespace TenderMove

variable {approved : Bool} {set? source? target? : Option TenderStatus}

/-- A tender is published by nothing but a status that is set. -/
theorem unpublished (h : TenderMove approved set? source? target?)
    (hset : set? ≠ some .published) (hsource : source? ≠ some .published) :
    target? ≠ some .published := by
  cases h with
  | keep => exact hsource
  | create => simp
  | set source target => exact hset
  | close => simp

/-- A closed tender stays closed as long as no status is set. -/
theorem closed (h : TenderMove approved set? (some .closed) target?) (hset : set? = none) :
    target? = some .closed := by
  cases h with
  | keep => rfl
  | set source target => cases hset

/-- An approval leads from a published tender to a closed one. -/
theorem of_approved (h : TenderMove true set? source? target?) :
    source? = some .published ∧ target? = some .closed := by
  cases h with
  | close => exact ⟨rfl, rfl⟩

end TenderMove

namespace Session

/-- The status of a tender, if it is stored. -/
def tenderStatus? (s : Session) (tenderId : String) : Option TenderStatus :=
  s.market.tables.tenders.status? tenderId

/-- Whether a step is an accepted approval of a bid on the tender. -/
def approves (s : Session) (tenderId : String) (step : Step) : Bool :=
  match step, (s.step step).1 with
  | .request _ (.operation op), some (.ok _) => op.approves s.market.tables tenderId
  | _, _ => false

/-- The status that a step sets the tender to, if it is accepted with the answer to it. -/
def statusSet? (tenderId : String) : Step × Option Reply → Option TenderStatus
  | (.request _ request, some (.ok _)) => request.statusSet? tenderId
  | _ => none

/-- A step sets the status of a tender just if it is accepted with a status to set. -/
theorem isAccepted_setsStatus (tenderId : String) (entry : Step × Option Reply) :
    isAccepted (Request.setsStatus tenderId) entry = (statusSet? tenderId entry).isSome := by
  rcases entry with ⟨step, _ | (refusal | answer)⟩ <;> cases step <;> rfl

/-- A step publishes a tender just if it is accepted and sets the status to this. -/
theorem isAccepted_publishes (tenderId : String) (entry : Step × Option Reply) :
    isAccepted (Request.publishes tenderId) entry =
      (statusSet? tenderId entry == some .published) := by
  rcases entry with ⟨step, _ | (refusal | answer)⟩ <;> cases step <;> rfl

/-- Each step moves the status of a tender as an approval, or the status that it sets, allows,
and adds to the approved bids on the tender only if it is an approval. -/
theorem tenderMove_step {s : Session} (hs : s.market.Sound) {step : Step}
    (hstep : step.isGuarded = true) (tenderId : String) :
    TenderMove (s.approves tenderId step) (statusSet? tenderId (step, (s.step step).1))
        (s.tenderStatus? tenderId) ((s.step step).2.tenderStatus? tenderId) ∧
      (s.step step).2.market.tables.approvedBids tenderId ≤
        s.market.tables.approvedBids tenderId + if s.approves tenderId step then 1 else 0 := by
  obtain ⟨n, hn, htables, _⟩ := exists_writeAll? hs step
  obtain ⟨htenders, hbids⟩ := Market.registers_of_writeAll? hn
  have hkept (htender : (s.writes step).flatMap Write.tenderChanges = [])
      (hbid : (s.writes step).flatMap Write.bidChanges = []) :
      TenderMove false none (s.tenderStatus? tenderId) (n.tables.tenders.status? tenderId) ∧
        n.tables.approvedBids tenderId ≤ s.market.tables.approvedBids tenderId + 0 := by
    rw [htender] at htenders
    rw [hbid] at hbids
    unfold tenderStatus? Tables.approvedBids
    rw [Option.some.inj htenders, Option.some.inj hbids]
    exact ⟨.keep _, Nat.le_refl _⟩
  unfold tenderStatus? at hkept ⊢
  rw [← htables]
  -- Only an accepted operation can change tenders or bids; whatever else is asked keeps them.
  cases step with
  | request id request =>
    cases hreply : (s.step (.request id request)).1 with
    | none =>
      simp only [approves, statusSet?, hreply]
      exact hkept (by simp [writes, hreply]) (by simp [writes, hreply])
    | some reply =>
      cases reply with
      | error refusal =>
        simp only [approves, statusSet?, hreply]
        exact hkept (by simp [writes, hreply]) (by simp [writes, hreply])
      | ok answer =>
        have hwrites : s.writes (.request id request) = request.writes (s.market.offer id) := by
          simp only [writes, hreply]
        rw [hwrites] at htenders hbids hkept
        simp only [approves, statusSet?, hreply]
        cases request with
        | operation op =>
          have htenderChanges : (op.writes (s.market.offer id)).flatMap Write.tenderChanges =
            op.tenderChanges (s.market.offer id) := op.flatMap_tenderChanges _
          have hbidChanges : (op.writes (s.market.offer id)).flatMap Write.bidChanges =
            op.bidChanges (s.market.offer id) := op.flatMap_bidChanges _
          exact ⟨op.tenderMove (sound_offer hs id) (answer_of_step hreply)
              (htenderChanges ▸ htenders) tenderId,
            op.approvedBids_le (sound_offer hs id) (answer_of_step hreply)
              (hbidChanges ▸ hbids) tenderId⟩
        | store op => cases hstep
        | learn registration => cases hstep
        | feedback op => exact hkept (by cases op <;> rfl) (by cases op <;> rfl)
        | _ => exact hkept rfl rfl
  | _ => exact hkept rfl rfl

/-- A first step counts by itself, and the others count from where it leads. -/
theorem acceptedCount_cons (s : Session) (step : Step) (rest : List Step)
    (kind : Request → Bool) :
    s.acceptedCount (step :: rest) kind = (s.step step).2.acceptedCount rest kind +
      if isAccepted kind (step, (s.step step).1) then 1 else 0 :=
  List.countP_cons

/-- A tender that is not published remains so until a request publishes it. -/
theorem unpublished_after {s : Session} (hs : s.market.Sound) {tenderId : String}
    (hstatus : s.tenderStatus? tenderId ≠ some .published) {steps : List Step}
    (hsteps : ∀ step ∈ steps, step.isGuarded = true)
    (hnone : s.acceptedCount steps (Request.publishes tenderId) = 0) :
    (s.after steps).tenderStatus? tenderId ≠ some .published := by
  induction steps generalizing s with
  | nil => exact hstatus
  | cons step rest ih =>
    rw [acceptedCount_cons, isAccepted_publishes, Nat.add_eq_zero_iff] at hnone
    obtain ⟨hrest, hhead⟩ := hnone
    have hset : statusSet? tenderId (step, (s.step step).1) ≠ some .published := by
      simpa using hhead
    have hmove := (tenderMove_step hs (hsteps step List.mem_cons_self) tenderId).1
    exact ih (sound_step hs step) (hmove.unpublished hset hstatus)
      (fun step' hmem => hsteps step' (List.mem_cons_of_mem _ hmem)) hrest

/-- A closed tender remains closed until a request sets its status. -/
theorem closed_after {s : Session} (hs : s.market.Sound) {tenderId : String}
    (hstatus : s.tenderStatus? tenderId = some .closed) {steps : List Step}
    (hsteps : ∀ step ∈ steps, step.isGuarded = true)
    (hnone : s.acceptedCount steps (Request.setsStatus tenderId) = 0) :
    (s.after steps).tenderStatus? tenderId = some .closed := by
  induction steps generalizing s with
  | nil => exact hstatus
  | cons step rest ih =>
    rw [acceptedCount_cons, isAccepted_setsStatus, Nat.add_eq_zero_iff] at hnone
    obtain ⟨hrest, hhead⟩ := hnone
    have hset : statusSet? tenderId (step, (s.step step).1) = none := by
      simpa using hhead
    have hmove := (tenderMove_step hs (hsteps step List.mem_cons_self) tenderId).1
    rw [hstatus] at hmove
    exact ih (sound_step hs step) (hmove.closed hset)
      (fun step' hmem => hsteps step' (List.mem_cons_of_mem _ hmem)) hrest

/-- Each publication pays for one approved bid; one that is not used up shows in the status. -/
theorem approvedBids_after {s : Session} (hs : s.market.Sound) {tenderId : String}
    (hnone : s.market.tables.approvedBids tenderId = 0)
    (hstatus : s.tenderStatus? tenderId ≠ some .published) {steps : List Step}
    (hsteps : ∀ step ∈ steps, step.isGuarded = true) :
    (s.after steps).market.tables.approvedBids tenderId +
        (if (s.after steps).tenderStatus? tenderId = some .published then 1 else 0) ≤
      s.acceptedCount steps (Request.publishes tenderId) := by
  -- The last step meets the session after all others, so the run is taken from its end.
  induction steps using List.reverseRecOn with
  | nil => rw [after_nil, hnone, if_neg hstatus]; exact Nat.zero_le _
  | append_singleton steps step ih =>
    have hbefore := ih fun step' hmem => hsteps step' (List.mem_append_left _ hmem)
    obtain ⟨hmove, hcount⟩ := tenderMove_step (sound_after hs steps)
      (hsteps step (List.mem_append_right _ List.mem_cons_self)) tenderId
    rw [acceptedCount_concat, isAccepted_publishes, after_concat]
    generalize (s.after steps).approves tenderId step = approved at hmove hcount
    generalize statusSet? tenderId (step, ((s.after steps).step step).1) = set? at hmove ⊢
    generalize (s.after steps).tenderStatus? tenderId = source? at hmove hbefore
    generalize ((s.after steps).step step).2.tenderStatus? tenderId = target? at hmove ⊢
    cases hmove with
    | keep => simp at hcount ⊢; omega
    | create => simp at hcount ⊢; omega
    | set source target => cases target <;> simp at hcount ⊢ <;> omega
    | close => simp at hcount hbefore ⊢; omega

/-- An approval finds the tender published and leaves it closed. -/
theorem tenderStatus?_of_approves {s : Session} (hs : s.market.Sound) {step : Step}
    (hstep : step.isGuarded = true) {tenderId : String} (h : s.approves tenderId step = true) :
    s.tenderStatus? tenderId = some .published ∧
      (s.step step).2.tenderStatus? tenderId = some .closed := by
  have hmove := (tenderMove_step hs hstep tenderId).1
  rw [h] at hmove
  exact hmove.of_approved

/-- In a run that makes no request behind the services, a publication of the tender precedes the
first approval of a bid on it and lies between any two of them. So the approved bids on a tender
are at most as many as its publications, and after an approval the tender is closed until its
status is set again. -/
theorem approvals_use_up_publications (stage : Stage) (decisionLimit : Option UInt64)
    (steps : List Step) (hsteps : ∀ step ∈ steps, step.isGuarded = true) (tenderId : String) :
    let s := fresh stage decisionLimit
    (∀ before approval rest, steps = before ++ approval :: rest →
        (s.after before).approves tenderId approval = true →
        0 < s.acceptedCount before (Request.publishes tenderId)) ∧
      (∀ before approval between approval' rest,
        steps = before ++ approval :: between ++ approval' :: rest →
        (s.after before).approves tenderId approval = true →
        (s.after (before ++ approval :: between)).approves tenderId approval' = true →
        0 < (s.after (before ++ [approval])).acceptedCount between (Request.publishes tenderId)) ∧
      (s.after steps).market.tables.approvedBids tenderId ≤
        s.acceptedCount steps (Request.publishes tenderId) ∧
      ∀ before approval later, steps = before ++ approval :: later →
        (s.after before).approves tenderId approval = true →
        (s.after (before ++ [approval])).acceptedCount later (Request.setsStatus tenderId) = 0 →
        (s.after steps).tenderStatus? tenderId = some .closed := by
  intro s
  have hsound : s.market.Sound := sound_fresh stage decisionLimit
  have hfresh : s.tenderStatus? tenderId ≠ some .published := by simp [s, fresh, tenderStatus?,
    Register.status?, Register.row?]
  refine ⟨?_, ?_, ?_, ?_⟩
  · rintro before approval rest rfl happroved
    rw [List.forall_mem_append, List.forall_mem_cons] at hsteps
    obtain ⟨hbefore, happroval, _⟩ := hsteps
    have hpublished :=
      (tenderStatus?_of_approves (sound_after hsound before) happroval happroved).1
    by_contra hnone
    exact unpublished_after hsound hfresh hbefore (Nat.eq_zero_of_not_pos hnone) hpublished
  · rintro before approval between approval' rest rfl happroved happroved'
    rw [List.forall_mem_append, List.forall_mem_append, List.forall_mem_cons,
      List.forall_mem_cons] at hsteps
    obtain ⟨⟨_, happroval, hbetween⟩, happroval', _⟩ := hsteps
    have hclosed :=
      (tenderStatus?_of_approves (sound_after hsound before) happroval happroved).2
    have hpublished :=
      (tenderStatus?_of_approves (sound_after hsound _) happroval' happroved').1
    rw [after_concat]
    rw [after_append] at hpublished
    by_contra hnone
    refine unpublished_after (sound_step (sound_after hsound before) approval) ?_ hbetween
      (Nat.eq_zero_of_not_pos hnone) hpublished
    simp [hclosed]
  · have hnone : s.market.tables.approvedBids tenderId = 0 := rfl
    exact Nat.le_trans (Nat.le_add_right _ _) (approvedBids_after hsound hnone hfresh hsteps)
  · rintro before approval later rfl happroved hnone
    rw [List.forall_mem_append, List.forall_mem_cons] at hsteps
    obtain ⟨_, happroval, hlater⟩ := hsteps
    have hclosed :=
      (tenderStatus?_of_approves (sound_after hsound before) happroval happroved).2
    rw [after_concat] at hnone
    rw [after_append]
    exact closed_after (sound_step (sound_after hsound before) approval) hclosed hlater hnone

/-- A run in which a tender is published twice and two bids on it are approved. -/
def approvingRun : List Step :=
  biddingRun ++
    [.request (some "c") (.operation (.createBid "t" ⟨.user, "u"⟩ ⟨"sand", ""⟩)),
      .request none (.operation (.setBidStatus "ann" "c" .published)),
      .request none (.operation (.submitDecision "ann" "b" .approve)),
      .request none (.operation (.submitDecision "ann" "c" .approve)),
      .request none (.operation (.setTenderStatus "ann" "t" .published)),
      .request none (.operation (.submitDecision "ann" "c" .approve))]

/-- The second approval is refused at first, and accepted when the tender is published again. -/
theorem approvals_use_up_publications_twice :
    (∀ step ∈ approvingRun, step.isGuarded = true) ∧
      ((fresh .assembled none).after approvingRun).market.tables.approvedBids "t" = 2 ∧
      2 ≤ (fresh .assembled none).acceptedCount approvingRun (Request.publishes "t") ∧
      ((fresh .assembled none).after approvingRun).tenderStatus? "t" = some .closed := by
  have hguarded : ∀ step ∈ approvingRun, step.isGuarded = true := by decide
  have hcount : ((fresh .assembled none).after approvingRun).market.tables.approvedBids "t" = 2 :=
    by decide
  have happroved : ((fresh .assembled none).after (approvingRun.take 12)).approves "t"
      (.request none (.operation (.submitDecision "ann" "c" .approve))) = true := by decide
  obtain ⟨_, _, hpaid, hclosed⟩ :=
    approvals_use_up_publications .assembled none approvingRun hguarded "t"
  exact ⟨hguarded, hcount, hcount ▸ hpaid,
    hclosed (approvingRun.take 12) _ [] rfl happroved rfl⟩

end Session

end Procurement

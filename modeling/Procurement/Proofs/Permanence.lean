import Procurement.Proofs.InstantText
import Procurement.Proofs.Shown
import Procurement.Proofs.Targets

/-!
# Permanence

Whatever is stored stays, and shows forever when it was created: every row gets the
instant of the clock at the step that creates it, no step takes it away, and every
later answer shows the instant that was stored. The instant survives the text that
it is stored as.
-/

namespace Procurement

/-! ## The time of creation -/

/-- When the row that a write adds was created. -/
def Write.createdAt? : Write → Option Instant
  | .user u => some u.createdAt
  | .organization o => some o.createdAt
  | .tender change => change.birth?.map Birth.createdAt
  | .bid change => change.birth?.map Birth.createdAt
  | .feedback f => some f.createdAt
  | _ => none

/-- A change that alters an entity adds none. -/
theorem Change.birth?_of_altered? {Status Origin Content : Type}
    {change : Change Status Origin Content} {id : String} (h : change.altered? = some id) :
    change.birth? = none := by
  cases change with
  | insert => cases h
  | setStatus | append | restore => rfl

section Requests

variable {m : Market} {write : Write} {instant : Instant}

/-- What an operation adds is created now. -/
theorem Operation.createdAt?_of_mem_writes {op : Operation} (h : write ∈ op.writes m)
    (hcreated : write.createdAt? = some instant) : instant = m.now := by
  cases op with
  | createUser | createOrganization | createBid =>
    rw [List.mem_singleton.mp h] at hcreated
    exact (Option.some.inj hcreated).symm
  | setTenderStatus | editTender | rollbackTender | setBidStatus | editBid | rollbackBid =>
    rw [List.mem_singleton.mp h] at hcreated
    cases hcreated
  | makeResponsible organizationId username =>
    obtain ⟨userId, _, rfl⟩ := Market.exists_of_mem_writesOf h
    cases hcreated
  | createTender actor organizationId content =>
    obtain ⟨creatorId, _, rfl⟩ := Market.exists_of_mem_writesOf h
    exact (Option.some.inj hcreated).symm
  | submitDecision actor bidId decision =>
    rcases List.mem_cons.mp h with rfl | hclosing
    · cases hcreated
    · unfold Market.closingWrites at hclosing
      split at hclosing
      · obtain ⟨bid, _, rfl⟩ := List.mem_map.mp hclosing
        cases hcreated
      · cases hclosing
  | submitFeedback actor bidId content =>
    obtain ⟨bid, _, hwrite⟩ := List.mem_flatMap.mp h
    obtain ⟨authorId, _, rfl⟩ := Market.exists_of_mem_writesOf hwrite
    exact (Option.some.inj hcreated).symm
  | _ => cases h

/-- What an operation behind the services adds is created now. -/
theorem StoreOperation.createdAt?_of_mem_writes {op : StoreOperation} (h : write ∈ op.writes m)
    (hcreated : write.createdAt? = some instant) : instant = m.now := by
  cases op with
  | insertTender organizationId creator content =>
    obtain ⟨creatorId, _, rfl⟩ := Market.exists_of_mem_writesOf h
    exact (Option.some.inj hcreated).symm
  | insertBid tenderId author content =>
    rw [List.mem_singleton.mp h] at hcreated
    exact (Option.some.inj hcreated).symm
  | onTenders op =>
    obtain ⟨change, id, rfl, haltered, _⟩ := op.exists_of_mem_writes h
    simp [Write.createdAt?, Change.birth?_of_altered? haltered] at hcreated
  | onBids op =>
    obtain ⟨change, id, rfl, haltered, _⟩ := op.exists_of_mem_writes h
    simp [Write.createdAt?, Change.birth?_of_altered? haltered] at hcreated
  | decideIfPublished bidId target =>
    simp only [writes, Catalogue.transitionWrites] at h
    split at h
    · rw [List.mem_singleton.mp h] at hcreated
      cases hcreated
    · cases h
  | _ => cases h

/-- What a request adds is created now. -/
theorem Request.createdAt?_of_mem_writes {request : Request} (h : write ∈ request.writes m)
    (hcreated : write.createdAt? = some instant) : instant = m.now := by
  cases request with
  | operation op => exact op.createdAt?_of_mem_writes h hcreated
  | store op => exact op.createdAt?_of_mem_writes h hcreated
  | feedback op => cases op with
    | insert bidId content authorId receiverId =>
      rw [List.mem_singleton.mp h] at hcreated
      exact (Option.some.inj hcreated).symm
    | reviewsFor => cases h
  | learn registration =>
    rw [List.mem_singleton.mp h] at hcreated
    cases hcreated
  | _ => cases h

end Requests

/-- What a step adds is created now. -/
theorem Session.createdAt?_of_mem_writes {s : Session} {step : Step} {write : Write}
    {instant : Instant} (h : write ∈ s.writes step) (hcreated : write.createdAt? = some instant) :
    instant = s.market.now := by
  rcases s.writes_cases step with hnone | ⟨offered, request, answer, rfl, _, hwrites⟩
  · rw [hnone] at h
    cases h
  · rw [hwrites] at h
    exact Request.createdAt?_of_mem_writes (m := s.market.offer offered) h hcreated

/-! ## What is new -/

namespace Register

variable {Status Origin Content : Type} {r r' : Register Status Origin Content}

/-- The births in a register have the identifiers of its entities. -/
theorem map_id_births (r : Register Status Origin Content) : r.births.map Birth.id = r.ids := by
  rw [births, List.map_map]
  rfl

/-- Changes add births behind all others, one after the other. -/
theorem births_of_changeAll? {initial : Status} {changes : List (Change Status Origin Content)}
    (h : r.changeAll? initial changes = some r') :
    r'.births = r.births ++ changes.filterMap Change.birth? := by
  induction changes generalizing r with
  | nil =>
    obtain rfl := Option.some.inj h
    exact (List.append_nil _).symm
  | cons change rest ih =>
    obtain ⟨next, hnext, hrest⟩ := Option.bind_eq_some_iff.mp h
    rw [ih hrest, births_of_change? hnext, List.append_assoc]
    cases hbirth : change.birth? <;> simp [hbirth]

/-- A new birth comes from one of the changes. -/
theorem exists_change_of_new_birth {initial : Status}
    {changes : List (Change Status Origin Content)} (h : r.changeAll? initial changes = some r')
    {birth : Birth Origin} (hmem : birth ∈ r'.births) (hnew : birth ∉ r.births) :
    ∃ change ∈ changes, change.birth? = some birth := by
  rw [births_of_changeAll? h, List.mem_append] at hmem
  exact List.mem_filterMap.mp (hmem.resolve_left hnew)

end Register

/-- The tenders, bids and feedback that are new in the second state of the tables were created at
the given instant. -/
structure Tables.NewAt (t t' : Tables) (instant : Instant) : Prop where
  tender : ∀ birth ∈ t'.tenders.births, birth ∉ t.tenders.births → birth.createdAt = instant
  bid : ∀ birth ∈ t'.bids.births, birth ∉ t.bids.births → birth.createdAt = instant
  feedback : ∀ f ∈ t'.feedback, f ∉ t.feedback → f.createdAt = instant

/-- What a step adds gets the instant of the clock at the step. -/
theorem Session.newAt_step {s : Session} (hs : s.market.Sound) (step : Step) :
    s.market.tables.NewAt (s.step step).2.market.tables s.market.now := by
  obtain ⟨n, hn, htables, _⟩ := exists_writeAll? hs step
  obtain ⟨htenders, hbids⟩ := Market.registers_of_writeAll? hn
  rw [← htables]
  constructor
  case tender =>
    intro birth hmem hnew
    obtain ⟨change, hchange, hbirth⟩ := Register.exists_change_of_new_birth htenders hmem hnew
    exact createdAt?_of_mem_writes (Write.mem_of_mem_tenderChanges hchange)
      (congrArg (Option.map Birth.createdAt) hbirth)
  case bid =>
    intro birth hmem hnew
    obtain ⟨change, hchange, hbirth⟩ := Register.exists_change_of_new_birth hbids hmem hnew
    exact createdAt?_of_mem_writes (Write.mem_of_mem_bidChanges hchange)
      (congrArg (Option.map Birth.createdAt) hbirth)
  case feedback =>
    intro f hmem hnew
    rw [Market.feedback_of_writeAll? hn, List.mem_append] at hmem
    exact createdAt?_of_mem_writes (Write.mem_of_mem_newFeedback (hmem.resolve_left hnew)) rfl

/-! ## Feedback has identifiers of its own -/

/-- No two pieces of feedback have the same identifier. -/
def Tables.FeedbackKeyed (t : Tables) : Prop := (t.feedback.map Feedback.id).Nodup

/-- New feedback gets an identifier that no other has. -/
theorem Tables.fresh_of_addFeedback {t t' : Tables} {feedback : Feedback}
    (h : (t.addFeedback feedback).toOption = some t') : ∀ f ∈ t.feedback, f.id ≠ feedback.id := by
  unfold addFeedback at h
  split at h
  · cases h
  · rename_i hfresh
    simpa using hfresh

/-- Writes keep the identifiers of feedback apart. -/
theorem Tables.FeedbackKeyed.of_applyTo? {t t' : Tables} (ht : t.FeedbackKeyed) {write : Write}
    (h : write.applyTo? t = some t') : t'.FeedbackKeyed := by
  obtain ⟨_, hfeedback⟩ := Write.rows_of_applyTo? h
  cases write with
  | feedback f =>
    unfold FeedbackKeyed
    rw [hfeedback, List.map_append]
    refine List.Nodup.append ht (List.nodup_singleton _) fun id hold hnew => ?_
    obtain ⟨old, holdmem, rfl⟩ := List.mem_map.mp hold
    exact fresh_of_addFeedback h old holdmem (List.mem_singleton.mp hnew)
  | _ =>
    have hsame : t'.feedback = t.feedback := hfeedback.trans (List.append_nil _)
    unfold FeedbackKeyed
    rw [hsame]
    exact ht

/-- Over a run the identifiers of feedback stay apart. -/
theorem Session.feedbackKeyed_after {s : Session} (hs : s.market.Sound)
    (ht : s.market.tables.FeedbackKeyed) (steps : List Step) :
    (s.after steps).market.tables.FeedbackKeyed :=
  keeps_after hs Tables.FeedbackKeyed (fun happlied hkeyed => hkeyed.of_applyTo? happlied) ht steps

/-! ## Answers -/

/-- Whatever an answer shows of what is new in the second state of the tables, it shows as created
at the given instant. -/
structure Answer.DatesNew (answer : Answer) (t t' : Tables) (instant : Instant) : Prop where
  tender : ∀ e ∈ answer.shownTenders, e.id ∉ t.tenders.ids → e.id ∈ t'.tenders.ids →
    e.createdAt = instant
  bid : ∀ e ∈ answer.shownBids, e.id ∉ t.bids.ids → e.id ∈ t'.bids.ids → e.createdAt = instant
  feedback : ∀ f ∈ answer.shownFeedback, f.id ∉ t.feedback.map Feedback.id →
    f.id ∈ t'.feedback.map Feedback.id → f.createdAt = instant

/-- Where no key occurs twice, what has a key that occurs in the beginning is in the beginning. -/
private theorem mem_of_prefix_of_key {α β : Type} {key : α → β} {early all : List α}
    (h : early <+: all) (hkeys : (all.map key).Nodup) {a : α} (ha : a ∈ all)
    (hkey : key a ∈ early.map key) : a ∈ early := by
  obtain ⟨b, hb, heq⟩ := List.mem_map.mp hkey
  exact List.inj_on_of_nodup_map hkeys (h.subset hb) ha heq ▸ hb

/-- An answer that shows what is stored later shows it with the birth that it had first. -/
theorem Register.birth_mem_of_prefix {Status Origin Content : Type}
    {r r' : Register Status Origin Content} (h : r.births <+: r'.births) (hr' : r'.Dense)
    {birth : Birth Origin} (hmem : birth ∈ r'.births) (hid : birth.id ∈ r.ids) :
    birth ∈ r.births := by
  refine mem_of_prefix_of_key h ?_ hmem (r.map_id_births ▸ hid)
  rw [r'.map_id_births]
  exact hr'.unique

/-- Whatever was new at some time is shown later as created at that time. -/
theorem Answer.ShowsStored.datesNew {t t' u : Tables} {instant : Instant} {answer : Answer}
    (hshown : answer.ShowsStored u) (h : t'.Extends u) (hnew : t.NewAt t' instant)
    (htenders : u.tenders.Dense) (hbids : u.bids.Dense) (hfeedback : u.FeedbackKeyed) :
    answer.DatesNew t t' instant where
  tender e hmem hid hid' := by
    refine hnew.tender e.birth ?_ fun hold => hid ?_
    · exact Register.birth_mem_of_prefix h.tenders htenders (hshown.tender e hmem) hid'
    · exact t.tenders.map_id_births ▸ List.mem_map_of_mem hold
  bid e hmem hid hid' := by
    refine hnew.bid e.birth ?_ fun hold => hid ?_
    · exact Register.birth_mem_of_prefix h.bids hbids (hshown.bid e hmem) hid'
    · exact t.bids.map_id_births ▸ List.mem_map_of_mem hold
  feedback f hmem hid hid' :=
    hnew.feedback f (mem_of_prefix_of_key h.feedback hfeedback (hshown.feedback f hmem) hid')
      fun hold => hid (List.mem_map_of_mem hold)

/-! ## Runs -/

namespace Session

/-- From a step on every answer shows what the step has added as created at the step. -/
theorem datesNew_of_mem_transcript {s : Session} (hs : s.market.Sound)
    (ht : s.market.tables.FeedbackKeyed) {step later : Step} {more : List Step} {answer : Answer}
    (h : (later, some (.ok answer)) ∈ s.transcript (step :: more)) :
    answer.DatesNew s.market.tables (s.step step).2.market.tables s.market.now := by
  obtain ⟨before, step', rest, hsteps, hentry⟩ := mem_transcript_iff.mp h
  obtain ⟨rfl, hanswer⟩ := Prod.mk.inj hentry
  have hshown := showsStored_of_step hanswer.symm
  rw [← after_concat] at hshown
  have hkeyed := feedbackKeyed_after hs ht (before ++ [later])
  have hsound := sound_after hs (before ++ [later])
  have hgrown : (s.step step).2.market.tables.Extends
      (s.after (before ++ [later])).market.tables := by
    cases before with
    | nil =>
      obtain ⟨rfl, _⟩ := List.cons.inj hsteps
      exact .refl _
    | cons first before =>
      obtain ⟨rfl, _⟩ := List.cons.inj hsteps
      exact extends_after (sound_step hs step) (before ++ [later])
  exact hshown.datesNew hgrown (newAt_step hs step) hsound.tenders hsound.bids hkeyed

/-- In every run nothing that is stored is ever taken away, and of tenders and bids only status and
content change. A step changes one tender or bid at most, and if it is an approval the status of
the tender of the bid. Whatever a step creates is shown by every later answer as created at the
instant of the clock at the step, and every instant survives the text that it is stored as. -/
theorem stored_rows_stay (stage : Stage) (decisionLimit : Option UInt64) (steps : List Step)
    (step : Step) (more : List Step) :
    let s := (fresh stage decisionLimit).after steps
    let next := (s.step step).2
    s.market.tables.Extends (s.after more).market.tables ∧
      s.market.tables.DiffersIn next.market.tables (s.target? step)
        (fun tenderId => s.approves tenderId step) ∧
      (∀ later answer, (later, some (.ok answer)) ∈ s.transcript (step :: more) →
        answer.DatesNew s.market.tables next.market.tables s.market.now) ∧
      ∀ instant : Instant, Instant.ofText? instant.storedText.toList = some instant := by
  intro s next
  have hfresh := sound_fresh stage decisionLimit
  have hs : s.market.Sound := sound_after hfresh steps
  have ht : s.market.tables.FeedbackKeyed := feedbackKeyed_after hfresh List.nodup_nil steps
  exact ⟨extends_after hs more, differsIn_step hs step,
    fun _ _ hmem => datesNew_of_mem_transcript hs ht hmem, Instant.ofText?_storedText⟩

/-- A tender that was created in a leap second shows this second when it is asked for later. -/
theorem stored_rows_stay_leap :
    let leap : Instant := ⟨1483228799, 1500000000, by decide⟩
    let steps := biddingRun.take 3 ++ [.setClock leap]
    let create := Step.request (some "t")
      (.operation (.createTender "ann" "o" ⟨"road", "", .construction⟩))
    let edit := Step.request none
      (.operation (.editTender "ann" "t" ⟨"road", "wide", .construction⟩))
    let look := Step.request none (.operation (.getTender "t"))
    let s := (fresh .assembled none).after steps
    ∃ tender, (look, some (.ok (.tender tender))) ∈
        s.transcript [create, .setClock Instant.initial, edit, look] ∧
      tender.version = 2 ∧ tender.createdAt = leap ∧
      Instant.ofText? leap.storedText.toList = some leap := by
  intro leap steps create edit look s
  obtain ⟨_, _, hdates, htext⟩ := stored_rows_stay .assembled none steps create
    [.setClock Instant.initial, edit, look]
  have hlook : (look, some (.ok (.tender ⟨"t", .created, ⟨"o", "u"⟩, 2, leap,
      ⟨"road", "wide", .construction⟩⟩))) ∈
        s.transcript [create, .setClock Instant.initial, edit, look] := by decide
  refine ⟨_, hlook, rfl, ?_, htext leap⟩
  exact (hdates look _ hlook).tender _ (List.mem_singleton_self _) (by decide) (by decide)

end Session

end Procurement

import Procurement.Market.Session
import Procurement.Proofs.Requests

/-!
# Runs of a session

A run is any list of steps from a session on a fresh database. The transcript of
a run keeps each step with its answer. What holds at the start and is preserved
by the writes of every step holds after every run; soundness is the first such
property.
-/

namespace Procurement.Session

/-- A session on a database in which nothing is stored. -/
def fresh (stage : Stage) (decisionLimit : Option UInt64) : Session where
  stage := stage
  market := { decisionLimit }

/-- The session after steps, one after the other. -/
def after (s : Session) (steps : List Step) : Session :=
  steps.foldl (fun s step => (s.step step).2) s

/-- Without steps a session stays as it is. -/
@[simp] theorem after_nil (s : Session) : s.after [] = s := rfl

/-- Steps in two parts are taken one part after the other. -/
theorem after_append (s : Session) (steps more : List Step) :
    s.after (steps ++ more) = (s.after steps).after more :=
  List.foldl_append

/-- The last step is taken after all others. -/
theorem after_concat (s : Session) (steps : List Step) (step : Step) :
    s.after (steps ++ [step]) = ((s.after steps).step step).2 :=
  after_append s steps [step]

/-- What a request is answered with; nothing if there is no market. -/
def reply (s : Session) (offered : Option String) (request : Request) : Option Reply :=
  (s.step (.request offered request)).1

/-- Steps with the answers to them. -/
def transcript (s : Session) : List Step → List (Step × Option Reply)
  | [] => []
  | step :: rest => (step, (s.step step).1) :: (s.step step).2.transcript rest

/-- The transcript of steps in two parts is that of one part after the other. -/
theorem transcript_append (s : Session) (steps more : List Step) :
    s.transcript (steps ++ more) = s.transcript steps ++ (s.after steps).transcript more := by
  induction steps generalizing s with
  | nil => rfl
  | cons step rest ih => exact congrArg (List.cons _) (ih (s.step step).2)

/-- The last step is answered after all others. -/
theorem transcript_concat (s : Session) (steps : List Step) (step : Step) :
    s.transcript (steps ++ [step]) =
      s.transcript steps ++ [(step, ((s.after steps).step step).1)] :=
  transcript_append s steps [step]

/-- The entries of a transcript are the steps of the run, each answered where it stands. -/
theorem mem_transcript_iff {s : Session} {steps : List Step} {entry : Step × Option Reply} :
    entry ∈ s.transcript steps ↔ ∃ before step rest, steps = before ++ step :: rest ∧
      entry = (step, ((s.after before).step step).1) := by
  constructor
  · induction steps generalizing s with
    | nil => simp [transcript]
    | cons step rest ih =>
      intro hmem
      rcases List.mem_cons.mp hmem with hhead | htail
      · exact ⟨[], step, rest, rfl, hhead⟩
      · obtain ⟨before, step', rest', heq, hentry⟩ := ih htail
        exact ⟨step :: before, step', rest', congrArg (List.cons step) heq, hentry⟩
  · rintro ⟨before, step, rest, rfl, rfl⟩
    rw [transcript_append]
    exact List.mem_append_right _ List.mem_cons_self

/-- What a step writes: what its request says, if it is accepted. -/
def writes (s : Session) (step : Step) : List Write :=
  match step, (s.step step).1 with
  | .request id request, some (.ok _) => request.writes (s.market.offer id)
  | _, _ => []

/-- An accepted request writes what it says. -/
theorem writes_of_accepted {s : Session} {offered : Option String} {request : Request}
    {answer : Answer} (h : (s.step (.request offered request)).1 = some (.ok answer)) :
    s.writes (.request offered request) = request.writes (s.market.offer offered) := by
  simp only [writes, h]

/-- Only an accepted request writes anything. -/
theorem writes_cases (s : Session) (step : Step) :
    s.writes step = [] ∨ ∃ offered request answer, step = .request offered request ∧
      (s.step step).1 = some (.ok answer) ∧
      s.writes step = request.writes (s.market.offer offered) := by
  cases step with
  | request offered request =>
    cases hreply : (s.step (.request offered request)).1 with
    | none => exact .inl (by simp only [writes, hreply])
    | some reply =>
      cases reply with
      | error refusal => exact .inl (by simp only [writes, hreply])
      | ok answer =>
        exact .inr ⟨offered, request, answer, rfl, rfl, writes_of_accepted hreply⟩
  | _ => exact .inl rfl

/-- Offering an identifier leaves a market sound. -/
theorem sound_offer {m : Market} (hm : m.Sound) (id : Option String) : (m.offer id).Sound where
  tenders := hm.tenders
  bids := hm.bids
  settled := hm.settled

/-- A step that is refused leaves all that lasts as it was. -/
theorem substance_of_refused {s : Session} (hs : s.market.Sound) {step : Step}
    {refusal : MarketError} (h : (s.step step).1 = some (.error refusal)) :
    (s.step step).2.market.substance = s.market.substance := by
  cases step with
  | setClock now => cases h
  | setPace slow => cases h
  | migrate => cases h
  | assemble =>
    obtain ⟨stage, market⟩ := s
    cases stage with
    | bare => rfl
    | migrated => cases h
    | assembled => cases h
  | request id request =>
    obtain ⟨stage, market⟩ := s
    cases stage with
    | bare => rfl
    | migrated => rfl
    | assembled =>
      exact (request.performs (sound_offer hs id)).refused rfl (Option.some.inj h)

/-- An accepted request writes what it says. -/
theorem writeAll?_of_accepted {m : Market} (hm : m.Sound) {id : Option String} {request : Request}
    {answer : Answer} (h : (m.run request.perform id).1 = .ok answer) :
    ∃ n, m.writeAll? (request.writes (m.offer id)) = some n ∧
      n.substance = (m.run request.perform id).2.substance := by
  have hperformed := (request.performs (sound_offer hm id)).accepted rfl h
  have hoffered : (m.offer id).substance = m.substance := rfl
  rw [Market.writeAll?_congr hoffered] at hperformed
  exact Option.map_eq_some_iff.mp hperformed

/-- A step carries out its writes. Only a new assembly changes the caches in other ways. -/
theorem exists_writeAll? {s : Session} (hs : s.market.Sound) (step : Step) :
    ∃ n, s.market.writeAll? (s.writes step) = some n ∧
      n.tables = (s.step step).2.market.tables ∧
      n.transaction = (s.step step).2.market.transaction ∧
      (step ≠ .assemble → n.caches.uncounted = (s.step step).2.market.caches.uncounted) := by
  obtain ⟨stage, m⟩ := s
  cases step with
  | setClock now => exact ⟨m, rfl, rfl, rfl, fun _ => rfl⟩
  | setPace slow => exact ⟨m, rfl, rfl, rfl, fun _ => rfl⟩
  | migrate => cases stage <;> exact ⟨m, rfl, rfl, rfl, fun _ => rfl⟩
  | assemble => cases stage <;> exact ⟨m, rfl, rfl, rfl, fun h => absurd rfl h⟩
  | request id request =>
    cases stage with
    | bare => exact ⟨m, rfl, rfl, rfl, fun _ => rfl⟩
    | migrated => exact ⟨m, rfl, rfl, rfl, fun _ => rfl⟩
    | assembled =>
      cases hanswer : (m.run request.perform id).1 with
      | error refusal =>
        have hsame : (m.run request.perform id).2.substance = m.substance :=
          (request.performs (sound_offer hs id)).refused rfl hanswer
        have hwrites : writes ⟨.assembled, m⟩ (.request id request) = [] := by
          simp only [writes, step_assembled, Market.step, hanswer]
        rw [hwrites]
        exact ⟨m, rfl, (Market.tables_of_substance hsame).symm,
          (Market.transaction_of_substance hsame).symm,
          fun _ => (Market.caches_of_substance hsame).symm⟩
      | ok answer =>
        obtain ⟨n, hn, hsubstance⟩ := writeAll?_of_accepted hs hanswer
        have hwrites : writes ⟨.assembled, m⟩ (.request id request) =
            request.writes (m.offer id) := by
          simp only [writes, step_assembled, Market.step, hanswer]
        rw [hwrites]
        exact ⟨n, hn, Market.tables_of_substance hsubstance,
          Market.transaction_of_substance hsubstance,
          fun _ => Market.caches_of_substance hsubstance⟩

/-- A step leaves a market sound. -/
theorem sound_step {s : Session} (hs : s.market.Sound) (step : Step) :
    (s.step step).2.market.Sound := by
  obtain ⟨n, hn, htables, htransaction, _⟩ := exists_writeAll? hs step
  have hsound := hs.of_writeAll? hn
  exact ⟨htables ▸ hsound.tenders, htables ▸ hsound.bids, htransaction ▸ hsound.settled⟩

/-- Steps leave a market sound. -/
theorem sound_after {s : Session} (hs : s.market.Sound) (steps : List Step) :
    (s.after steps).market.Sound := by
  induction steps generalizing s with
  | nil => exact hs
  | cons step rest ih => exact ih (sound_step hs step)

/-- What every write keeps, every run keeps. -/
theorem keeps_after {s : Session} (hs : s.market.Sound) (Kept : Tables → Prop)
    (hkeeps : ∀ {write : Write} {t t' : Tables}, write.applyTo? t = some t' → Kept t → Kept t')
    (hkept : Kept s.market.tables) (steps : List Step) : Kept (s.after steps).market.tables := by
  induction steps generalizing s with
  | nil => exact hkept
  | cons step rest ih =>
    obtain ⟨n, hn, htables, _⟩ := exists_writeAll? hs step
    have hnext : Kept n.tables := Market.keeps_of_writeAll? hn Kept (fun _ _ _ _ => hkeeps) hkept
    exact ih (sound_step hs step) (htables ▸ hnext)

/-- A market on a fresh database is sound. -/
theorem sound_fresh (stage : Stage) (decisionLimit : Option UInt64) :
    (fresh stage decisionLimit).market.Sound where
  tenders := Register.dense_empty
  bids := Register.dense_empty
  settled := rfl

/-- As long as there is no market nothing is stored. -/
def Unused (s : Session) : Prop := s.stage ≠ .assembled → s.market.tables = {}

/-- A step stores nothing without a market. -/
theorem unused_step {s : Session} (hs : s.Unused) (step : Step) : (s.step step).2.Unused := by
  obtain ⟨stage, m⟩ := s
  intro hstage
  cases step with
  | setClock now => exact hs hstage
  | setPace slow => exact hs hstage
  | migrate => cases stage with
    | bare => exact hs (by simp)
    | migrated => exact hs hstage
    | assembled => exact absurd rfl hstage
  | assemble => cases stage with
    | bare => exact hs hstage
    | migrated | assembled => exact absurd rfl hstage
  | request offered request => cases stage with
    | bare | migrated => exact hs hstage
    | assembled => exact absurd rfl hstage

/-- Steps store nothing without a market. -/
theorem unused_after {s : Session} (hs : s.Unused) (steps : List Step) :
    (s.after steps).Unused := by
  induction steps generalizing s with
  | nil => exact hs
  | cons step rest ih => exact ih (unused_step hs step)

/-- Where something is stored there is a market. -/
theorem Unused.assembled {s : Session} (hs : s.Unused) (h : s.market.tables ≠ {}) :
    s.stage = .assembled := by
  by_contra hstage
  exact h (hs hstage)

/-- Nothing is stored in a fresh database. -/
theorem unused_fresh (stage : Stage) (decisionLimit : Option UInt64) :
    (fresh stage decisionLimit).Unused :=
  fun _ => rfl

/-- Whatever is refused after any run leaves every table as it was, and every cache up to the
counted look-ups. -/
theorem refused_without_trace (stage : Stage) (decisionLimit : Option UInt64)
    (steps : List Step) (step : Step) {refusal : MarketError}
    (h : (((fresh stage decisionLimit).after steps).step step).1 = some (.error refusal)) :
    let s := (fresh stage decisionLimit).after steps
    (s.step step).2.market.tables = s.market.tables ∧
      (s.step step).2.market.caches.uncounted = s.market.caches.uncounted := by
  intro s
  have hsame : (s.step step).2.market.substance = s.market.substance :=
    substance_of_refused (sound_after (sound_fresh stage decisionLimit) steps) h
  exact ⟨Market.tables_of_substance hsame, Market.caches_of_substance hsame⟩

/-- A run that ends with a published bid on a published tender. -/
def biddingRun : List Step :=
  [.request (some "u") (.operation (.createUser "ann" "" "")),
    .request (some "o") (.operation (.createOrganization .individual "works" "")),
    .request (some "l") (.operation (.makeResponsible "o" "ann")),
    .request (some "t") (.operation (.createTender "ann" "o" ⟨"road", "", .construction⟩)),
    .request none (.operation (.setTenderStatus "ann" "t" .published)),
    .request (some "b") (.operation (.createBid "t" ⟨.user, "u"⟩ ⟨"gravel", ""⟩)),
    .request none (.operation (.setBidStatus "ann" "b" .published))]

/-- An approval that writes to the bid and to the tender, but takes too long. -/
theorem refused_without_trace_overdue :
    let s := (fresh .assembled (some 10)).after (biddingRun ++ [.setPace true])
    let step := Step.request none (.operation (.submitDecision "ann" "b" .approve))
    (s.step step).1 = some (.error (.deadlineExceeded "decision_transaction" 10)) ∧
      (s.step step).2.market.tables = s.market.tables ∧
      (s.step step).2.market.caches.uncounted = s.market.caches.uncounted := by
  intro s step
  have hoverdue : (s.step step).1 =
      some (.error (.deadlineExceeded "decision_transaction" 10)) := by decide
  exact ⟨hoverdue, refused_without_trace _ _ _ _ hoverdue⟩

end Procurement.Session

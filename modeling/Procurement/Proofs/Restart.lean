import Procurement.Proofs.Contents
import Procurement.Proofs.Decisions

/-!
# Starting a market anew

A market whose caches grew with its tables and a market whose caches are filled
anew from the same tables know the same. So a new assembly in the middle of a run
does not show: step by step, the session that was restarted and the one that was
not stay alike up to the counters of their caches, and answer alike unless they
are asked about these.
-/

namespace Procurement

/-- Caches that mirror the same tables know the same. -/
theorem Caches.Mirror.contents_eq {caches caches' : Caches} {t : Tables} (h : caches.Mirror t)
    (h' : caches'.Mirror t) : caches.contents = caches'.contents := by
  unfold Caches.contents ExistenceCache.contents LookupCache.contents
  rw [h.tenders, h.bids, h.users, h'.tenders, h'.bids, h'.users]

namespace Market

/-- A new assembly teaches the caches nothing and makes them forget nothing. -/
theorem Faithful.contents_reassemble {m : Market} (hm : m.Faithful) :
    m.reassemble.contents = m.contents := by
  have hwarm : (warmCaches m.tables).Mirror m.tables :=
    mirror_warmCaches hm.tenders hm.bids hm.keyed
  exact congrArg (fun caches => { m with caches }) (hwarm.contents_eq hm.mirror)

/-- Assemblies on the same tables come to the same. -/
theorem contents_reassemble_congr {m m' : Market} (h : m.contents = m'.contents) :
    m.reassemble.contents = m'.reassemble.contents :=
  (congrArg (fun n : Market => n.reassemble.contents) h :)

end Market

namespace Session

/-- Sessions that differ at most in the counters of their caches. -/
structure Alike (s s' : Session) : Prop where
  stage : s.stage = s'.stage
  contents : s.market.contents = s'.market.contents

/-- Whether a step asks for the counters of the caches. -/
def asksUsage : Step → Bool
  | .request _ .usage => true
  | _ => false

variable {s s' : Session}

/-- Sessions that are alike answer alike, unless they are asked for their counters. -/
theorem Alike.answer_step (h : Alike s s') {step : Step} (hstep : asksUsage step = false) :
    (s.step step).1 = (s'.step step).1 := by
  obtain ⟨stage, m⟩ := s
  obtain ⟨stage', m'⟩ := s'
  obtain ⟨rfl, hcontents⟩ := h
  cases step with
  | setClock now | setPace slow | migrate => rfl
  | assemble =>
    have hcounts := Market.counts_of_contents (Market.contents_reassemble_congr hcontents)
    cases stage with
    | bare => rfl
    | migrated | assembled =>
      exact congrArg (fun counts => some (.ok (.counts counts) : Reply)) hcounts
  | request id request =>
    have hrequest : request ≠ .usage := by
      rintro rfl
      cases hstep
    have hoffered : (m.offer id).contents = (m'.offer id).contents :=
      (congrArg (Market.offer id) hcontents :)
    cases stage with
    | bare | migrated => rfl
    | assembled => exact congrArg some ((Request.dependsOnContents hrequest).answer_congr hoffered)

/-- A step keeps sessions alike. -/
theorem Alike.step (h : Alike s s') (step : Step) : Alike (s.step step).2 (s'.step step).2 := by
  obtain ⟨stage, m⟩ := s
  obtain ⟨stage', m'⟩ := s'
  obtain ⟨rfl, hcontents⟩ := h
  cases step with
  | setClock now => exact ⟨rfl, (congrArg (fun n : Market => { n with now }) hcontents :)⟩
  | setPace slow => exact ⟨rfl, (congrArg (fun n : Market => { n with slow }) hcontents :)⟩
  | migrate => cases stage <;> exact ⟨rfl, hcontents⟩
  | assemble =>
    cases stage with
    | bare => exact ⟨rfl, hcontents⟩
    | migrated | assembled => exact ⟨rfl, Market.contents_reassemble_congr hcontents⟩
  | request id request =>
    have hoffered : (m.offer id).contents = (m'.offer id).contents :=
      (congrArg (Market.offer id) hcontents :)
    cases stage with
    | bare | migrated => exact ⟨rfl, hcontents⟩
    | assembled => exact ⟨rfl, request.contents_after hoffered⟩

/-- Sessions that are alike stay so over any steps. -/
theorem Alike.after (h : Alike s s') (steps : List Step) :
    Alike (s.after steps) (s'.after steps) := by
  induction steps generalizing s s' with
  | nil => exact h
  | cons step rest ih => exact ih (h.step step)

/-- A new assembly leaves a session alike, if it has a market already. -/
theorem alike_assemble (hs : s.market.Faithful) (hstage : s.stage = .assembled) :
    Alike (s.step .assemble).2 s := by
  obtain ⟨stage, m⟩ := s
  obtain rfl := hstage
  exact ⟨rfl, hs.contents_reassemble⟩

/-- A new assembly anywhere in a run changes the answer to no other step, however much later,
and leaves all tables the same. What is asked about the counters is left out, since the new
market starts to count anew. -/
theorem restart_changes_no_answer (stage : Stage) (decisionLimit : Option UInt64)
    (before later : List Step) (hbefore : ∀ step ∈ before, step.learns = false)
    (hstage : ((fresh stage decisionLimit).after before).stage = .assembled) :
    let s := fresh stage decisionLimit
    (s.after (before ++ .assemble :: later)).market.tables =
        (s.after (before ++ later)).market.tables ∧
      ∀ step, asksUsage step = false →
        ((s.after (before ++ .assemble :: later)).step step).1 =
          ((s.after (before ++ later)).step step).1 := by
  intro s
  have hfaithful : (s.after before).market.Faithful :=
    faithful_after (faithful_fresh stage decisionLimit) hbefore
  have halike : Alike (s.after (before ++ .assemble :: later)) (s.after (before ++ later)) := by
    rw [after_append, after_append]
    exact (alike_assemble hfaithful hstage).after later
  exact ⟨Market.tables_of_contents halike.contents, fun step hstep => halike.answer_step hstep⟩

/-- A bid that was published after a restart is approved as if there had been none. -/
theorem restart_changes_no_answer_bidding :
    let s := fresh .assembled none
    let before := biddingRun.take 4
    let later := biddingRun.drop 4
    let approval := Step.request none (.operation (.submitDecision "ann" "b" .approve))
    (∀ step ∈ before, step.learns = false) ∧ (s.after before).stage = .assembled ∧
      ((s.after (before ++ .assemble :: later)).step approval).1 =
        ((s.after biddingRun).step approval).1 ∧
      (((s.after biddingRun).step approval).2.bidStatus? "b") = some .approved := by
  intro s before later approval
  have hbefore : ∀ step ∈ before, step.learns = false := by decide
  have hstage : (s.after before).stage = .assembled := by decide
  obtain ⟨_, hsame⟩ := restart_changes_no_answer .assembled none before later hbefore hstage
  exact ⟨hbefore, hstage, hsame approval rfl, by decide⟩

end Session

end Procurement

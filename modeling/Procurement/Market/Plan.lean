import Procurement.Market.Operation
import Procurement.Market.Request
import Procurement.Market.Transaction

/-!
# Planned transactions

A plan lays down in advance what is done in a transaction and how the work ends.
A step that could not be read is passed over; its fault stands in its place among
the answers.
-/

namespace Procurement

/-- How planned work ends when all its steps are done. -/
inductive PlannedEnd where
  | succeeds
  | refuses
  | panics
  /-- The work succeeds, but a reference to the transaction outlives it. -/
  | outlived
  /-- The work refuses, and a reference to the transaction outlives it. -/
  | refusesOutlived
  /-- The work takes longer than any limit. -/
  | hangs
  deriving DecidableEq, Repr

/-- Work to be done in a transaction, with a fault for each step that cannot be done. -/
structure Plan (Fault : Type) where
  /-- How many milliseconds the work may take. -/
  limit : Option UInt64
  steps : List (Except Fault (Option String × StoreOperation))
  /-- The first refusal ends the work and is what the work returns. -/
  stopsAtRefusal : Bool
  ending : PlannedEnd
  /-- The identifier in the refusal, or the message of the panic, that ends the work. -/
  marker : String

/-- What became of a planned transaction. -/
structure PlanReport (Fault : Type) where
  ending : Ending Unit
  /-- The answers to the steps, of work that came to an end. -/
  answers : Option (List (Except Fault Reply))
  /-- What the caches know afterwards. -/
  counts : Market.Counts

namespace Plan

variable {Fault : Type}

/-- Does steps one after the other, up to the refusal that stops them if one does. -/
def performSteps (stopsAtRefusal : Bool) :
    List (Except Fault (Option String × StoreOperation)) →
      StateM Market (List (Except Fault Reply) × Option MarketError)
  | [] => pure ([], none)
  | .error fault :: rest => do
    let (answers, stop) ← performSteps stopsAtRefusal rest
    pure (.error fault :: answers, stop)
  | .ok (id, operation) :: rest => do
    match ← (Market.run operation.perform id : StateM Market Reply), stopsAtRefusal with
    | .error refusal, true => pure ([.ok (.error refusal)], some refusal)
    | reply, _ =>
      let (answers, stop) ← performSteps stopsAtRefusal rest
      pure (.ok reply :: answers, stop)

/-- How the work ends once its steps are done. -/
def conclusion (plan : Plan Fault) : Conclusion Unit :=
  let refusal : Ending Unit := .returns (.error (.tenderNotPublished plan.marker))
  match plan.ending with
  | .succeeds => { ending := .returns (.ok ()) }
  | .refuses => { ending := refusal }
  | .panics => { ending := .panics plan.marker }
  | .outlived => { ending := .returns (.ok ()), keepsHandle := true }
  | .refusesOutlived => { ending := refusal, keepsHandle := true }
  | .hangs => { ending := .returns (.ok ()), overdue := true }

/-- The planned work. -/
def work (plan : Plan Fault) : StateM Market (Conclusion Unit) := do
  let (_, stop) ← performSteps plan.stopsAtRefusal plan.steps
  match stop with
  | some refusal => pure { ending := .returns (.error refusal) }
  | none => pure plan.conclusion

/-- The answers to the planned steps, done in a transaction on the given market. -/
def answers (plan : Plan Fault) (m : Market) : List (Except Fault Reply) :=
  (performSteps plan.stopsAtRefusal plan.steps { m with transaction := some {} }).1.1

/-- Carries a plan out. -/
def run (plan : Plan Fault) (m : Market) : PlanReport Fault × Market :=
  let (ending, after) := Market.decisionTransaction plan.limit plan.work m
  let answers := if plan.ending = .hangs then none else some (plan.answers m)
  ({ ending, answers, counts := after.counts }, after)

end Plan

end Procurement

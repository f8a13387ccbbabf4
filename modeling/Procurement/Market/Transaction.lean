import Procurement.Market.Basic

/-!
# Decision transactions

Work done in a transaction takes effect as a whole or not at all. It takes effect
when it returns a value in time and lets go of the transaction. Whatever else
happens, the tables are put back as they were before it, and what the caches
should have learned is dropped; only counted look-ups and identifiers handed out
stay.
-/

namespace Procurement

/-- How work ends: with a value, with a refusal, or by giving up altogether. -/
inductive Ending (α : Type) where
  | returns (result : Except MarketError α)
  | panics (message : String)

/-- What a transaction gets to see of the end of its work. -/
structure Conclusion (α : Type) where
  ending : Ending α
  /-- The work takes longer than any limit. -/
  overdue : Bool := false
  /-- A reference to the transaction outlives the work. -/
  keepsHandle : Bool := false

namespace Market

/-- The market after a transaction whose effects are dropped. -/
def discard (before after : Market) : Market :=
  { after with tables := before.tables, transaction := before.transaction }

/-- The market after a transaction whose effects are kept, with the registrations
that waited for its commit. -/
def settle (before after : Market) (registrations : List Registration) : Market :=
  { after with
    transaction := before.transaction
    caches := registrations.foldl (fun caches r => r.applyTo caches) after.caches }

/-- Does work in a transaction that may take so many milliseconds. -/
def decisionTransaction {α : Type} (limit : Option UInt64)
    (work : StateM Market (Conclusion α)) : StateM Market (Ending α) := fun before =>
  let (conclusion, after) := work { before with transaction := some {} }
  let expired := if before.slow || conclusion.overdue then limit else none
  match expired, conclusion.ending with
  | some milliseconds, _ =>
    (.returns (.error (.deadlineExceeded "decision_transaction" milliseconds)),
      discard before after)
  | none, .returns (.ok value) =>
    let handle := after.transaction.getD {}
    let handle := if conclusion.keepsHandle then handle.share else handle
    match handle.commit with
    | .ok registrations => (.returns (.ok value), settle before after registrations)
    | .error refusal => (.returns (.error refusal), discard before after)
  | none, ending => (ending, discard before after)

end Market

end Procurement

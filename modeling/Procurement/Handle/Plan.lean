import Procurement.Handle

/-!
# Planned holds on a transaction

A transaction is opened, actions are registered for its commit, perhaps a second
reference is made, and the transaction is ended in one of three ways. An action
registered outside any transaction is taken at once.
-/

namespace Procurement

/-- How a hold on a transaction ends. -/
inductive HandleEnd where
  | commit
  | rollback
  /-- The references are given up without a word. -/
  | drop
  deriving DecidableEq, Repr

/-- What is done with a hold on a transaction. -/
structure HandlePlan (Action : Type) where
  /-- What is registered before there is a transaction. -/
  outside : List Action
  /-- What is registered with the transaction. -/
  inside : List Action
  /-- A second reference is alive at the end. -/
  shared : Bool
  ending : HandleEnd

/-- What became of a hold on a transaction. -/
structure HandleReport (Action : Type) where
  /-- What was taken before the end. -/
  before : List Action
  /-- The number of references just before the end. -/
  references : Nat
  outcome : Except MarketError Unit
  /-- What was taken in all. -/
  taken : List Action

/-- Carries out what is planned with a hold on a transaction. -/
def HandlePlan.run {Action : Type} (plan : HandlePlan Action) : HandleReport Action :=
  let own := plan.inside.foldl Handle.defer ({} : Handle Action)
  let handle := if plan.shared then own.share else own
  let (outcome, due) : Except MarketError Unit × List Action :=
    match plan.ending with
    | .commit =>
      match handle.commit with
      | .ok due => (.ok (), due)
      | .error refusal => (.error refusal, [])
    | .rollback => (handle.rollback, [])
    | .drop => (.ok (), [])
  { before := plan.outside, references := handle.references, outcome,
    taken := plan.outside ++ due }

end Procurement

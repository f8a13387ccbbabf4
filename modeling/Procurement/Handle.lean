import Procurement.Error

/-!
# Holding a transaction

A transaction is held by one or more references. Actions registered with it wait
until it is committed, which only the last reference may do; they are dropped
when it is rolled back.
-/

namespace Procurement

/-- A hold on an open transaction. -/
structure Handle (Action : Type) where
  /-- How many references to the transaction there are. -/
  references : Nat := 1
  /-- What waits for the commit, in the order of registration. -/
  deferred : List Action := []
  deriving DecidableEq, Repr

namespace Handle

variable {Action : Type}

/-- Lets an action wait for the commit. -/
def defer (handle : Handle Action) (action : Action) : Handle Action :=
  { handle with deferred := handle.deferred ++ [action] }

/-- The transaction with one more reference to it. -/
def share (handle : Handle Action) : Handle Action :=
  { handle with references := handle.references + 1 }

/-- Commits through the last reference and yields the actions that are now due. -/
def commit (handle : Handle Action) : Except MarketError (List Action) :=
  if handle.references ≤ 1 then .ok handle.deferred else .error .transactionInUse

/-- Rolls back through the last reference. -/
def rollback (handle : Handle Action) : Except MarketError Unit :=
  if handle.references ≤ 1 then .ok () else .error .transactionInUse

end Handle

end Procurement

import Procurement.Text.Decimal

/-!
# Refusals

Every way in which the marketplace refuses a request, with the sentence that
tells the caller why and whether the same request may succeed later.
-/

namespace Procurement

/-- The kinds of things that requests refer to by name or identifier. -/
inductive EntityKind where
  | tender
  | bid
  | user
  | organization
  deriving DecidableEq, Repr

/-- The word for a kind of thing. -/
def EntityKind.word : EntityKind → String
  | .tender => "tender"
  | .bid => "bid"
  | .user => "user"
  | .organization => "organization"

/-- Every kind of thing. -/
def EntityKind.all : List EntityKind := [.tender, .bid, .user, .organization]

/-- Why a request was refused. -/
inductive MarketError where
  /-- No such thing is known. -/
  | notFound (kind : EntityKind) (id : String)
  /-- The thing has no content of that version. -/
  | invalidVersion (kind : EntityKind) (id : String) (version : Int)
  /-- The actor did not make the bid. -/
  | notAuthor (username bidId : String)
  /-- The actor does not answer for the organization. -/
  | notResponsible (username organizationId : String)
  /-- The status may not be set in this way, or not now. -/
  | forbiddenTransition (kind : EntityKind) (id status : String)
  /-- Only a published bid can be decided. -/
  | bidNotPublished (bidId : String)
  /-- Only a bid on a published tender can be approved. -/
  | tenderNotPublished (tenderId : String)
  /-- The named user did not write the tender. -/
  | authorMismatch (username tenderId : String)
  /-- The name or link is taken. -/
  | alreadyExists (kind : EntityKind) (key : String)
  /-- The request refers to a thing that is not stored. -/
  | referentialIntegrity (kind : EntityKind)
  /-- The work took longer than it may. -/
  | deadlineExceeded (operation : String) (milliseconds : UInt64)
  /-- A handle on the transaction outlived the work. -/
  | transactionInUse
  /-- The storage could not do what was asked of it. -/
  | storageUnavailable
  deriving DecidableEq, Repr

namespace MarketError

open Procurement.Text

/-- The sentence for a refusal. -/
def message : MarketError → String
  | notFound kind id => kind.word ++ " '" ++ id ++ "' does not exist"
  | invalidVersion kind id version =>
    kind.word ++ " '" ++ id ++ "' has no content version " ++ String.ofList (signedDigits version)
  | notAuthor username bidId =>
    "user '" ++ username ++ "' is not the author of bid '" ++ bidId ++ "'"
  | notResponsible username organizationId =>
    "user '" ++ username ++ "' is not responsible for organization '" ++ organizationId ++ "'"
  | forbiddenTransition kind id status =>
    "transition of " ++ kind.word ++ " '" ++ id ++ "' to " ++ status ++ " is not allowed here"
  | bidNotPublished bidId => "bid '" ++ bidId ++ "' is not published"
  | tenderNotPublished tenderId => "tender '" ++ tenderId ++ "' is not published"
  | authorMismatch username tenderId =>
    "'" ++ username ++ "' is not the author of tender '" ++ tenderId ++ "'"
  | alreadyExists kind key => kind.word ++ " '" ++ key ++ "' already exists"
  | referentialIntegrity kind => "referenced " ++ kind.word ++ " does not exist"
  | deadlineExceeded operation milliseconds =>
    "operation '" ++ operation ++ "' exceeded its deadline of " ++
      String.ofList (digits milliseconds.toNat) ++ "ms"
  | transactionInUse => "transaction handle is still referenced after the callback returned"
  | storageUnavailable => "storage unavailable"

/-- Whether the same request may succeed when it is made again. -/
def isRetryable : MarketError → Bool
  | storageUnavailable | deadlineExceeded .. => true
  | _ => false

end MarketError

end Procurement

import Procurement.Market.Membership
import Procurement.Market.Transaction
import Procurement.Instant.Text

/-!
# Requests about bids

Bids are changed by their authors until they are decided or canceled. They are
decided by users responsible for the organization that issued the tender; an
approval closes the tender in the same transaction. Those users may also leave
feedback on a bid, which its author receives.
-/

namespace Procurement.Market

/-- Whether the author of a bid is stored, as a user or as an organization. -/
def authorExists (author : Author) : MarketM Bool :=
  match author.type with
  | .user => userExists author.id
  | .organization => organizationExists author.id

/-- What refusals call an author of the given type. -/
def authorKind : AuthorType → EntityKind
  | .user => .user
  | .organization => .organization

/-- Creates a bid in answer to a tender. -/
def createBid (tenderId : String) (author : Author) (content : BidContent) : MarketM Bid := do
  if ← authorExists author then
    let id ← bids.insert { tenderId, author } content
    bids.get id
  else throw (.referentialIntegrity (authorKind author.type))

/-- The bids whose author has the given identifier. -/
def bidsWithAuthor (authorId : String) (page : Page) : MarketM (List Bid) :=
  bids.list (fun bid => bid.origin.author.id == authorId) page

/-- The bids that the named user made. -/
def bidsOf (username : String) (page : Page) : MarketM (List Bid) := do
  let userId ← userId username
  bidsWithAuthor userId page

/-- The bids on a tender that are past their draft. -/
def bidsWithTender (tenderId : String) (page : Page) : MarketM (List Bid) :=
  bids.list (fun bid => bid.origin.tenderId == tenderId && bid.status != .created) page

/-- The bids on a tender that are past their draft, for those who act for the tender. -/
def bidsOn (actor tenderId : String) (page : Page) : MarketM (List Bid) := do
  requireListingMember actor tenderId
  bidsWithTender tenderId page

/-- Sets the status of a bid on its author's behalf. -/
def setBidStatus (actor bidId : String) (status : BidStatus) : MarketM Bid := do
  requireAuthor actor bidId
  let forbidden := MarketError.forbiddenTransition .bid bidId (Vocabulary.word status)
  if status.isDecision then throw forbidden
  else if ← bids.setStatusFrom bidId BidStatus.authorMutable status then bids.get bidId
  else throw forbidden

/-- Replaces the content of a bid. -/
def editBid (actor bidId : String) (content : BidContent) : MarketM Bid := do
  requireAuthor actor bidId
  bids.edit bidId content

/-- Takes up an old content of a bid again. -/
def rollbackBid (actor bidId : String) (version : Int) : MarketM Bid := do
  requireAuthor actor bidId
  bids.rollback bidId version

/-- The tender that a bid answers. -/
def tenderOf (bidId : String) : MarketM String := do
  let row ← bids.row bidId
  pure row.origin.tenderId

/-- Gives a published bid the status of a decision and yields its tender, if it was
published. -/
def decideIfPublished (bidId : String) (target : BidStatus) : MarketM (Option String) := do
  let row ← bids.transition bidId [.published] target
  pure (row.map fun row => row.origin.tenderId)

/-- Decides a bid, and closes its tender if it is approved. -/
def applyDecision (bidId : String) (decision : Decision) : MarketM Unit := do
  match ← decideIfPublished bidId decision.bidStatus with
  | none => throw (.bidNotPublished bidId)
  | some tenderId =>
    if decision = .approve then
      if ← tenders.setStatusIfPublished tenderId .closed then pure ()
      else throw (.tenderNotPublished tenderId)

/-- Decides a bid on behalf of the organization that issued its tender. An identifier
is drawn first, to mark the decision in the log. -/
def submitDecision (actor bidId : String) (decision : Decision) : MarketM Bid := do
  let _ ← drawId
  let organizationId ← bidOrganization bidId
  requireResponsible actor organizationId
  let limit := (← get).decisionLimit
  let work : StateM Market (Conclusion Unit) := do
    let result ← (applyDecision bidId decision).run
    pure { ending := .returns result }
  match ← (decisionTransaction limit work : StateM Market (Ending Unit)) with
  | .returns (.error refusal) => throw refusal
  | _ => bids.get bidId

/-- Stores feedback on a bid. -/
def insertFeedback (bidId content authorId receiverId : String) : MarketM Feedback := do
  let id ← drawId
  let createdAt := (← get).now
  let feedback := { id, bidId, content, authorId, receiverId, createdAt }
  let refusal
    | .duplicate => .storageUnavailable
    | .dangling => .referentialIntegrity .bid
  store refusal fun tables => tables.addFeedback feedback
  pure feedback

/-- Leaves feedback on a bid, addressed to its author. -/
def submitFeedback (actor bidId content : String) : MarketM Feedback := do
  let organizationId ← bidOrganization bidId
  requireResponsible actor organizationId
  let authorId ← userId actor
  let author ← bidAuthor bidId
  insertFeedback bidId content authorId author.id

/-- Whether one review stands before another: by the text of its time, then by identifier. -/
def reviewPrecedes (a b : Feedback) : Bool :=
  a.createdAt.storedText < b.createdAt.storedText ||
    a.createdAt.storedText == b.createdAt.storedText && !(b.id < a.id)

/-- The feedback received by a user or by an organization the user is responsible for. -/
def feedbackFor (tables : Tables) (userId : String) : List Feedback :=
  (tables.feedback.filter fun f =>
    f.receiverId == userId || tables.isResponsible f.receiverId userId).mergeSort reviewPrecedes

/-- The page of the feedback that a user received. -/
def reviewsFor (userId : String) (page : Page) : MarketM (List Feedback) :=
  stored fun tables => page.select (feedbackFor tables userId)

/-- The feedback received by the author of a tender, for those who act for the tender. -/
def reviews (requester tenderId author : String) (page : Page) : MarketM (List Feedback) := do
  requireListingMember requester tenderId
  if (← tenderAuthor tenderId) = author then
    let userId ← userId author
    reviewsFor userId page
  else throw (.authorMismatch author tenderId)

end Procurement.Market

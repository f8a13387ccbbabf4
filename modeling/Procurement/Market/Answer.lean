import Procurement.Market.Survey

/-!
# Answers

The values with which requests to a market are answered.
-/

namespace Procurement

/-- What a request that is not refused is answered with. -/
inductive Answer where
  /-- The request was carried out, and there is nothing to say about it. -/
  | done
  | flag (value : Bool)
  | text (value : String)
  | texts (values : List String)
  | optionalText (value : Option String)
  | pairs (values : List (String × String))
  | author (value : Author)
  | tenderStatus (value : TenderStatus)
  | tender (value : Tender)
  | tenders (values : List Tender)
  | tenderVersion (value : ContentVersion TenderContent)
  | tenderHistory (values : List (ContentVersion TenderContent))
  | bidStatus (value : BidStatus)
  | bid (value : Bid)
  | bids (values : List Bid)
  | bidVersion (value : ContentVersion BidContent)
  | bidHistory (values : List (ContentVersion BidContent))
  | feedback (value : Feedback)
  | reviews (values : List Feedback)
  | instant (value : Instant)
  | counts (value : Market.Counts)
  | usage (value : Market.Usage)
  | survey (value : Survey)
  deriving DecidableEq

/-- How answers about one kind of versioned entity are made. -/
structure Answer.Forms (Status Origin Content : Type) where
  status : Status → Answer
  entity : Entity Status Origin Content → Answer
  version : ContentVersion Content → Answer
  history : List (ContentVersion Content) → Answer

/-- Answers about tenders. -/
def Answer.tenderForms : Answer.Forms TenderStatus TenderOrigin TenderContent where
  status := .tenderStatus
  entity := .tender
  version := .tenderVersion
  history := .tenderHistory

/-- Answers about bids. -/
def Answer.bidForms : Answer.Forms BidStatus BidOrigin BidContent where
  status := .bidStatus
  entity := .bid
  version := .bidVersion
  history := .bidHistory

end Procurement

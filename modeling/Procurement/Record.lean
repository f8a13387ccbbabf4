import Procurement.Vocabulary
import Procurement.Instant.Basic

/-!
# What the marketplace keeps

Tenders and bids share one shape: an identifier, a status, the fields fixed at
creation, and content that is replaced as a whole, each replacement having the
next version number. Feedback never changes.
-/

namespace Procurement

/-- What a tender says. -/
structure TenderContent where
  name : String
  description : String
  serviceType : ServiceType
  deriving DecidableEq, Repr

/-- What a bid says. -/
structure BidContent where
  name : String
  description : String
  deriving DecidableEq, Repr

/-- Where a tender comes from: the organization that asks and the user who wrote it. -/
structure TenderOrigin where
  organizationId : String
  creatorId : String
  deriving DecidableEq, Repr

/-- The author of a bid, a user or an organization. -/
structure Author where
  type : AuthorType
  id : String
  deriving DecidableEq, Repr

/-- Where a bid comes from: the tender it answers and its author. -/
structure BidOrigin where
  tenderId : String
  author : Author
  deriving DecidableEq, Repr

/-- A tender or bid with the content that its version number points at. -/
structure Entity (Status Origin Content : Type) where
  id : String
  status : Status
  /-- The fields fixed at creation. -/
  origin : Origin
  version : Int
  createdAt : Instant
  content : Content
  deriving DecidableEq

/-- A request of an organization for bids. -/
abbrev Tender := Entity TenderStatus TenderOrigin TenderContent

/-- An offer made in answer to a tender. -/
abbrev Bid := Entity BidStatus BidOrigin BidContent

/-- One version of the content of a tender or bid. -/
structure ContentVersion (Content : Type) where
  entityId : String
  version : Int
  content : Content
  deriving DecidableEq

/-- A review of a bid, addressed to the bid's author. -/
structure Feedback where
  id : String
  bidId : String
  content : String
  authorId : String
  receiverId : String
  createdAt : Instant
  deriving DecidableEq

/-- The name of a content, by which listings are ordered. -/
class Named (Content : Type) where
  name : Content → String

instance : Named TenderContent := ⟨TenderContent.name⟩

instance : Named BidContent := ⟨BidContent.name⟩

end Procurement

import Procurement.Market.Answer
import Procurement.Market.Bidding
import Procurement.Market.Tendering

/-!
# Operations

The operations that a market offers to its users, as data, and what performing
one of them does. A run performs one operation after the other, each with or
without an identifier offered for what it creates.
-/

namespace Procurement

/-- What users may ask of a market. -/
inductive Operation where
  | createUser (username firstName lastName : String)
  | userId (username : String)
  | userExists (id : String)
  | usernames
  | createOrganization (type : OrganizationType) (name description : String)
  | makeResponsible (organizationId username : String)
  | organizationExists (id : String)
  | createTender (actor organizationId : String) (content : TenderContent)
  | publishedTenders (serviceTypes : List ServiceType) (page : Page)
  | tendersOf (username : String) (page : Page)
  | getTender (id : String)
  | tenderStatus (id : String)
  | setTenderStatus (actor id : String) (status : TenderStatus)
  | editTender (actor id : String) (content : TenderContent)
  | rollbackTender (actor id : String) (version : Int)
  | tenderHistory (id : String)
  | createBid (tenderId : String) (author : Author) (content : BidContent)
  | bidsOf (username : String) (page : Page)
  | bidsOn (actor tenderId : String) (page : Page)
  | getBid (id : String)
  | bidStatus (id : String)
  | setBidStatus (actor id : String) (status : BidStatus)
  | editBid (actor id : String) (content : BidContent)
  | rollbackBid (actor id : String) (version : Int)
  | bidHistory (id : String)
  | submitDecision (actor bidId : String) (decision : Decision)
  | submitFeedback (actor bidId content : String)
  | reviews (requester tenderId author : String) (page : Page)
  deriving DecidableEq

/-- What a request is answered with, a value or a refusal. -/
abbrev Reply := Except MarketError Answer

namespace Operation

/-- Carries out an operation. -/
def perform : Operation → MarketM Answer
  | createUser username first last => .text <$> Market.createUser username first last
  | userId username => .text <$> Market.userId username
  | userExists id => .flag <$> Market.userExists id
  | usernames => .pairs <$> Market.usernames
  | createOrganization type name description =>
    .text <$> Market.createOrganization type name description
  | makeResponsible organizationId username => do
    Market.makeResponsible organizationId username
    pure .done
  | organizationExists id => .flag <$> Market.organizationExists id
  | createTender actor organizationId content =>
    .tender <$> Market.createTender actor organizationId content
  | publishedTenders serviceTypes page => .tenders <$> Market.publishedTenders serviceTypes page
  | tendersOf username page => .tenders <$> Market.tendersOf username page
  | getTender id => .tender <$> tenders.get id
  | tenderStatus id => .tenderStatus <$> tenders.status id
  | setTenderStatus actor id status => .tender <$> Market.setTenderStatus actor id status
  | editTender actor id content => .tender <$> Market.editTender actor id content
  | rollbackTender actor id version => .tender <$> Market.rollbackTender actor id version
  | tenderHistory id => .tenderHistory <$> tenders.history id
  | createBid tenderId author content => .bid <$> Market.createBid tenderId author content
  | bidsOf username page => .bids <$> Market.bidsOf username page
  | bidsOn actor tenderId page => .bids <$> Market.bidsOn actor tenderId page
  | getBid id => .bid <$> bids.get id
  | bidStatus id => .bidStatus <$> bids.status id
  | setBidStatus actor id status => .bid <$> Market.setBidStatus actor id status
  | editBid actor id content => .bid <$> Market.editBid actor id content
  | rollbackBid actor id version => .bid <$> Market.rollbackBid actor id version
  | bidHistory id => .bidHistory <$> bids.history id
  | submitDecision actor bidId decision => .bid <$> Market.submitDecision actor bidId decision
  | submitFeedback actor bidId content => .feedback <$> Market.submitFeedback actor bidId content
  | reviews requester tenderId author page =>
    .reviews <$> Market.reviews requester tenderId author page

end Operation

/-- Questions about who answers for what. -/
inductive RelationQuery where
  | isUserResponsible (username organizationId : String)
  | tenderAuthor (tenderId : String)
  | tenderOrganization (tenderId : String)
  | bidOrganization (bidId : String)
  | belongsToTender (username tenderId : String)
  | isBidAuthor (username bidId : String)
  deriving DecidableEq

/-- Answers a question about who answers for what. -/
def RelationQuery.perform : RelationQuery → MarketM Answer
  | isUserResponsible username organizationId =>
    .flag <$> Market.isUserResponsible username organizationId
  | tenderAuthor tenderId => .text <$> Market.tenderAuthor tenderId
  | tenderOrganization tenderId => .text <$> Market.tenderOrganization tenderId
  | bidOrganization bidId => .text <$> Market.bidOrganization bidId
  | belongsToTender username tenderId => .flag <$> Market.belongsToTender username tenderId
  | isBidAuthor username bidId => .flag <$> Market.isBidAuthor username bidId

/-- Operations on the entities of one kind that check no one's authority. -/
inductive CatalogueOperation (Status Content : Type) where
  | exists (id : String)
  | loadIds
  | get (id : String)
  | status (id : String)
  | setStatus (id : String) (target : Status)
  | setStatusFrom (sources : List Status) (id : String) (target : Status)
  | setStatusIfPublished (id : String) (target : Status)
  | edit (id : String) (content : Content)
  | rollback (id : String) (version : Int)
  | contentVersion (id : String) (version : Int)
  | history (id : String)
  deriving DecidableEq

/-- Carries out an operation on the entities of one kind. -/
def CatalogueOperation.perform {Status Origin Content : Type} [DecidableEq Status]
    (c : Catalogue Status Origin Content) (forms : Answer.Forms Status Origin Content) :
    CatalogueOperation Status Content → MarketM Answer
  | .exists id => .flag <$> c.exists? id
  | loadIds => .texts <$> c.loadIds
  | get id => forms.entity <$> c.get id
  | status id => forms.status <$> c.status id
  | setStatus id target => forms.entity <$> c.setStatus id target
  | setStatusFrom sources id target => .flag <$> c.setStatusFrom id sources target
  | setStatusIfPublished id target => .flag <$> c.setStatusIfPublished id target
  | edit id content => forms.entity <$> c.edit id content
  | rollback id version => forms.entity <$> c.rollback id version
  | contentVersion id version => forms.version <$> c.contentVersion id version
  | history id => forms.history <$> c.history id

/-- Operations on tenders and bids that check no one's authority. They may also be
done in a transaction. -/
inductive StoreOperation where
  | insertTender (organizationId creator : String) (content : TenderContent)
  | publishedTenders (serviceTypes : List ServiceType) (page : Page)
  | tendersOf (username : String) (page : Page)
  | onTenders (operation : CatalogueOperation TenderStatus TenderContent)
  | insertBid (tenderId : String) (author : Author) (content : BidContent)
  | bidsWithTender (tenderId : String) (page : Page)
  | bidsWithAuthor (authorId : String) (page : Page)
  | tenderOf (bidId : String)
  | bidAuthor (bidId : String)
  | decideIfPublished (bidId : String) (target : BidStatus)
  | onBids (operation : CatalogueOperation BidStatus BidContent)
  deriving DecidableEq

/-- Carries out an operation on tenders or bids. -/
def StoreOperation.perform : StoreOperation → MarketM Answer
  | insertTender organizationId creator content =>
    .text <$> Market.insertTender organizationId creator content
  | publishedTenders serviceTypes page => .tenders <$> Market.publishedTenders serviceTypes page
  | tendersOf username page => .tenders <$> Market.tendersOf username page
  | onTenders operation => operation.perform tenders Answer.tenderForms
  | insertBid tenderId author content => .text <$> bids.insert { tenderId, author } content
  | bidsWithTender tenderId page => .bids <$> Market.bidsWithTender tenderId page
  | bidsWithAuthor authorId page => .bids <$> Market.bidsWithAuthor authorId page
  | tenderOf bidId => .text <$> Market.tenderOf bidId
  | bidAuthor bidId => .author <$> Market.bidAuthor bidId
  | decideIfPublished bidId target => .optionalText <$> Market.decideIfPublished bidId target
  | onBids operation => operation.perform bids Answer.bidForms

/-- Operations on stored feedback that check no one's authority. -/
inductive FeedbackOperation where
  | insert (bidId content authorId receiverId : String)
  | reviewsFor (userId : String) (page : Page)
  deriving DecidableEq

/-- Carries out an operation on stored feedback. -/
def FeedbackOperation.perform : FeedbackOperation → MarketM Answer
  | insert bidId content authorId receiverId =>
    .feedback <$> Market.insertFeedback bidId content authorId receiverId
  | reviewsFor userId page => .reviews <$> Market.reviewsFor userId page

end Procurement

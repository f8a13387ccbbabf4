import Procurement.Market.Membership

/-!
# Requests about tenders

Anyone may read tenders. Only users responsible for the organization that issues
a tender may create it or change its status or content.
-/

namespace Procurement.Market

/-- Stores a tender written by the named user and yields its identifier. -/
def insertTender (organizationId creator : String) (content : TenderContent) :
    MarketM String := do
  let creatorId ← userId creator
  tenders.insert { organizationId, creatorId } content

/-- Creates a tender on behalf of an organization. -/
def createTender (actor organizationId : String) (content : TenderContent) : MarketM Tender := do
  requireResponsible actor organizationId
  let id ← insertTender organizationId actor content
  tenders.get id

/-- The published tenders that ask for one of the given services, or for any if none
is given. -/
def publishedTenders (serviceTypes : List ServiceType) (page : Page) : MarketM (List Tender) :=
  tenders.list (fun tender =>
    tender.status == .published &&
      (serviceTypes.isEmpty || serviceTypes.contains tender.content.serviceType)) page

/-- The tenders that the named user wrote. -/
def tendersOf (username : String) (page : Page) : MarketM (List Tender) := do
  let userId ← userId username
  tenders.list (fun tender => tender.origin.creatorId == userId) page

/-- Sets the status of a tender. -/
def setTenderStatus (actor tenderId : String) (status : TenderStatus) : MarketM Tender := do
  requireMember actor tenderId
  tenders.setStatus tenderId status

/-- Replaces the content of a tender. -/
def editTender (actor tenderId : String) (content : TenderContent) : MarketM Tender := do
  requireMember actor tenderId
  tenders.edit tenderId content

/-- Takes up an old content of a tender again. -/
def rollbackTender (actor tenderId : String) (version : Int) : MarketM Tender := do
  requireMember actor tenderId
  tenders.rollback tenderId version

end Procurement.Market

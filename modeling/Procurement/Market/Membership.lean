import Procurement.Market.Catalogue

/-!
# Users, organizations and who answers for what

Users are known by their usernames, through the cache. A user may be responsible
for organizations; whoever is responsible for the organization of a tender acts
for the tender, and whoever is responsible for an organization authors its bids.
-/

namespace Procurement.Market

/-- Stores a user under a new username and yields the user's identifier. -/
def createUser (username firstName lastName : String) : MarketM String := do
  let id ← drawId
  let createdAt := (← get).now
  store (fun _ => .alreadyExists .user username) fun tables =>
    tables.addUser { id, username, firstName, lastName, createdAt }
  register (.user username id)
  pure id

/-- Whether a user is stored under the identifier. -/
def userExists (id : String) : MarketM Bool := stored fun tables => tables.hasUser id

/-- The usernames of all stored users with what they stand for, in order. -/
def usernames : MarketM (List (String × String)) :=
  stored fun tables => tables.usernames.mergeSort fun a b => !(b.1 < a.1)

/-- Stores an organization and yields its identifier. -/
def createOrganization (type : OrganizationType) (name description : String) :
    MarketM String := do
  let id ← drawId
  let createdAt := (← get).now
  store (fun _ => .storageUnavailable) fun tables =>
    tables.addOrganization { id, name, description, type, createdAt }
  pure id

/-- Whether an organization is stored under the identifier. -/
def organizationExists (id : String) : MarketM Bool :=
  stored fun tables => tables.hasOrganization id

/-- Makes a user responsible for an organization. -/
def makeResponsible (organizationId username : String) : MarketM Unit := do
  let userId ← userId username
  let id ← drawId
  let refusal
    | .duplicate => .alreadyExists .organization organizationId
    | .dangling => .referentialIntegrity .organization
  store refusal fun tables => tables.addResponsibility { id, organizationId, userId }

/-- Whether the named user is responsible for the organization. -/
def isUserResponsible (username organizationId : String) : MarketM Bool := do
  let userId ← userId username
  stored fun tables => tables.isResponsible organizationId userId

/-- Refuses a user who is not responsible for the organization. -/
def requireResponsible (username organizationId : String) : MarketM Unit := do
  if ← isUserResponsible username organizationId then pure ()
  else throw (.notResponsible username organizationId)

/-- The username of the user who wrote the tender. -/
def tenderAuthor (tenderId : String) : MarketM String := do
  tenders.ensureExists tenderId
  storedOr (.notFound .tender tenderId) fun tables => do
    let row ← tables.tenders.row? tenderId
    tables.usernameOf? row.origin.creatorId

/-- The organization that issued the tender. -/
def tenderOrganization (tenderId : String) : MarketM String := do
  let row ← tenders.row tenderId
  pure row.origin.organizationId

/-- The organization that issued the tender which the bid answers. -/
def bidOrganization (bidId : String) : MarketM String := do
  bids.ensureExists bidId
  storedOr (.notFound .bid bidId) fun tables => do
    let bid ← tables.bids.row? bidId
    let tender ← tables.tenders.row? bid.origin.tenderId
    pure tender.origin.organizationId

/-- Whether the named user is responsible for the organization that issued the tender. -/
def belongsToTender (username tenderId : String) : MarketM Bool := do
  let organizationId ← tenderOrganization tenderId
  isUserResponsible username organizationId

/-- The author of a bid. -/
def bidAuthor (bidId : String) : MarketM Author := do
  let row ← bids.row bidId
  pure row.origin.author

/-- Whether the named user is the author of the bid, or responsible for the
organization that is. -/
def isBidAuthor (username bidId : String) : MarketM Bool := do
  let author ← bidAuthor bidId
  match author.type with
  | .user => do
    let userId ← userId username
    pure (userId == author.id)
  | .organization => isUserResponsible username author.id

/-- Refuses a user who is not the author of the bid. -/
def requireAuthor (username bidId : String) : MarketM Unit := do
  if ← isBidAuthor username bidId then pure () else throw (.notAuthor username bidId)

/-- Refuses a user who is not responsible for the organization that issued the tender. -/
def requireMember (username tenderId : String) : MarketM Unit := do
  let organizationId ← tenderOrganization tenderId
  requireResponsible username organizationId

/-- As `requireMember`, looking the organization up once more for the refusal. -/
def requireListingMember (username tenderId : String) : MarketM Unit := do
  if ← belongsToTender username tenderId then pure ()
  else
    let organizationId ← tenderOrganization tenderId
    throw (.notResponsible username organizationId)

end Procurement.Market

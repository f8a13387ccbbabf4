import Procurement.Register

/-!
# The tables of a marketplace

What is stored about users, organizations, the users responsible for them,
tenders, bids and feedback. An insertion is refused when a key is taken and,
after that, when something it refers to is not stored; in either case nothing
is written.
-/

namespace Procurement

/-- A person who acts in the marketplace. -/
structure User where
  id : String
  username : String
  firstName : String
  lastName : String
  createdAt : Instant
  deriving DecidableEq

/-- A body that issues tenders and may make bids. -/
structure Organization where
  id : String
  name : String
  description : String
  type : OrganizationType
  createdAt : Instant
  deriving DecidableEq

/-- A user's responsibility for an organization. -/
structure Responsibility where
  id : String
  organizationId : String
  userId : String
  deriving DecidableEq

/-- The rows of all tenders and the versions of their contents. -/
abbrev TenderRegister := Register TenderStatus TenderOrigin TenderContent

/-- The rows of all bids and the versions of their contents. -/
abbrev BidRegister := Register BidStatus BidOrigin BidContent

/-- Everything that is stored, each table in the order of arrival. -/
structure Tables where
  users : List User := []
  organizations : List Organization := []
  responsibilities : List Responsibility := []
  tenders : TenderRegister := {}
  bids : BidRegister := {}
  feedback : List Feedback := []
  deriving DecidableEq

/-- Why an insertion was refused. -/
inductive Violation where
  /-- A key of the new row is taken. -/
  | duplicate
  /-- Something that the new row refers to is not stored. -/
  | dangling
  deriving DecidableEq, Repr

namespace Tables

/-- Whether a user is stored under the identifier. -/
def hasUser (t : Tables) (id : String) : Bool := t.users.any fun user => user.id == id

/-- Whether an organization is stored under the identifier. -/
def hasOrganization (t : Tables) (id : String) : Bool :=
  t.organizations.any fun organization => organization.id == id

/-- Whether the user with the identifier is responsible for the organization. -/
def isResponsible (t : Tables) (organizationId userId : String) : Bool :=
  t.responsibilities.any fun link =>
    link.organizationId == organizationId && link.userId == userId

/-- The usernames with the identifiers they stand for. -/
def usernames (t : Tables) : List (String × String) :=
  t.users.map fun user => (user.username, user.id)

/-- The username of the user with the identifier. -/
def usernameOf? (t : Tables) (userId : String) : Option String :=
  (t.users.find? fun user => user.id == userId).map User.username

/-- Stores a user under a new identifier and username. -/
def addUser (t : Tables) (user : User) : Except Violation Tables :=
  if t.users.any fun u => u.id == user.id || u.username == user.username then .error .duplicate
  else .ok { t with users := t.users ++ [user] }

/-- Stores an organization under a new identifier. -/
def addOrganization (t : Tables) (organization : Organization) : Except Violation Tables :=
  if t.hasOrganization organization.id then .error .duplicate
  else .ok { t with organizations := t.organizations ++ [organization] }

/-- Stores a responsibility that is new both in its identifier and in what it links. -/
def addResponsibility (t : Tables) (link : Responsibility) : Except Violation Tables :=
  if t.responsibilities.any fun l => l.id == link.id then .error .duplicate
  else if t.isResponsible link.organizationId link.userId then .error .duplicate
  else if t.hasOrganization link.organizationId && t.hasUser link.userId then
    .ok { t with responsibilities := t.responsibilities ++ [link] }
  else .error .dangling

/-- Stores feedback under a new identifier, by a stored user on a stored bid. -/
def addFeedback (t : Tables) (feedback : Feedback) : Except Violation Tables :=
  if t.feedback.any fun f => f.id == feedback.id then .error .duplicate
  else if (t.bids.row? feedback.bidId).isSome && t.hasUser feedback.authorId then
    .ok { t with feedback := t.feedback ++ [feedback] }
  else .error .dangling

/-- Whether the organization and the creator of a tender are stored. -/
def supportsTender (t : Tables) (origin : TenderOrigin) : Bool :=
  t.hasOrganization origin.organizationId && t.hasUser origin.creatorId

/-- Whether the tender that a bid answers is stored. -/
def supportsBid (t : Tables) (origin : BidOrigin) : Bool :=
  (t.tenders.row? origin.tenderId).isSome

end Tables

end Procurement

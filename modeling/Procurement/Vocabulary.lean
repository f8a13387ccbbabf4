/-!
# Words of the marketplace

Statuses, types and decisions are closed lists of values, each with one word.
A text names a value only when it is that word exactly; a decision may also be
given as a verb or a participle in any case of the ASCII letters.
-/

namespace Procurement

/-- A closed list of values, each known by one word. -/
class Vocabulary (α : Type) where
  /-- What the words stand for, as messages put it. -/
  subject : String
  /-- Every value, in the order of declaration. -/
  all : List α
  /-- The word of a value. -/
  word : α → String

/-- A text that names no value of a vocabulary. -/
structure UnknownWord where
  /-- What the text should have named. -/
  subject : String
  /-- The text as given. -/
  text : String
  deriving DecidableEq, Repr

/-- The refusal of an unknown word, with the text quoted as given. -/
def UnknownWord.message (e : UnknownWord) : String :=
  "unknown " ++ e.subject ++ " value '" ++ e.text ++ "'"

namespace Vocabulary

variable {α : Type} [Vocabulary α]

/-- The value whose word is exactly the given text. -/
def ofWord? (text : String) : Option α :=
  (all : List α).find? fun value => word value == text

/-- Reads a word, keeping a text that is none of them for the message. -/
def read (text : String) : Except UnknownWord α :=
  match ofWord? text with
  | some value => .ok value
  | none => .error ⟨subject α, text⟩

end Vocabulary

/-- A tender is drafted, then open for bids, then closed. -/
inductive TenderStatus where
  | created
  | published
  | closed
  deriving DecidableEq, Repr

/-- A bid is drafted and published by its author, who may cancel it;
the tender's organization approves or rejects it. -/
inductive BidStatus where
  | created
  | published
  | canceled
  | approved
  | rejected
  deriving DecidableEq, Repr

/-- What a tender asks for. -/
inductive ServiceType where
  | construction
  | delivery
  | manufacture
  deriving DecidableEq, Repr

/-- On whose behalf a bid is made. -/
inductive AuthorType where
  | organization
  | user
  deriving DecidableEq, Repr

/-- The legal form of an organization. -/
inductive OrganizationType where
  | individual
  | limitedLiability
  | jointStock
  deriving DecidableEq, Repr

/-- What the tender's organization decides about a published bid. -/
inductive Decision where
  | approve
  | reject
  deriving DecidableEq, Repr

instance : Vocabulary TenderStatus where
  subject := "tender status"
  all := [.created, .published, .closed]
  word
    | .created => "Created"
    | .published => "Published"
    | .closed => "Closed"

instance : Vocabulary BidStatus where
  subject := "bid status"
  all := [.created, .published, .canceled, .approved, .rejected]
  word
    | .created => "Created"
    | .published => "Published"
    | .canceled => "Canceled"
    | .approved => "Approved"
    | .rejected => "Rejected"

instance : Vocabulary ServiceType where
  subject := "service type"
  all := [.construction, .delivery, .manufacture]
  word
    | .construction => "Construction"
    | .delivery => "Delivery"
    | .manufacture => "Manufacture"

instance : Vocabulary AuthorType where
  subject := "author type"
  all := [.organization, .user]
  word
    | .organization => "Organization"
    | .user => "User"

instance : Vocabulary OrganizationType where
  subject := "organization type"
  all := [.individual, .limitedLiability, .jointStock]
  word
    | .individual => "IE"
    | .limitedLiability => "LLC"
    | .jointStock => "JSC"

instance : Vocabulary Decision where
  subject := "decision"
  all := [.approve, .reject]
  word
    | .approve => "Approve"
    | .reject => "Reject"

/-- The statuses that only a decision can give. -/
def BidStatus.isDecision : BidStatus → Bool
  | .approved | .rejected => true
  | .created | .published | .canceled => false

/-- The statuses from which the author may still move a bid. -/
def BidStatus.authorMutable : List BidStatus := [.created, .published]

/-- The status that a decision gives to the bid. -/
def Decision.bidStatus : Decision → BidStatus
  | .approve => .approved
  | .reject => .rejected

/-- Reads a decision as a verb or a participle, in any case of the ASCII letters. -/
def Decision.read (text : String) : Except UnknownWord Decision :=
  match String.ofList (text.toList.map Char.toLower) with
  | "approve" | "approved" => .ok .approve
  | "reject" | "rejected" => .ok .reject
  | _ => .error ⟨Vocabulary.subject Decision, text⟩

end Procurement

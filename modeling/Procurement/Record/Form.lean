import Procurement.Instant.Text
import Procurement.Json.Form
import Procurement.Record

/-!
# Records as JSON

Tenders and bids show their content among their own fields. Because of that they
are read from objects only, and the members that are not their own are set aside
before the content is sought among them.
-/

namespace Procurement

namespace Record

/-- An instant as a string. -/
def instantJson (t : Instant) : Json := .string t.text

/-- The instant that a string gives. -/
def instant? (value : Json) : Option Instant := do
  let text ← value.string?
  Instant.ofText? text.toList

/-- The members of an object, provided all but the named ones can be set aside. -/
def membersHolding? (own : List String) (value : Json) : Option (List (String × Json)) := do
  let members ← value.members?
  if members.all fun member => own.contains member.1 || member.2.isHoldable then pure members
  else none

/-- The members that show the content of a tender. -/
def tenderContentMembers (content : TenderContent) : List (String × Json) :=
  [("name", .string content.name), ("description", .string content.description),
    ("service_type", JsonForm.toJson content.serviceType)]

/-- The content of a tender from the values of its fields, given how the type of a service
is read. -/
def tenderContent? (serviceType? : Json → Option ServiceType) : List Json → Option TenderContent
  | [name, description, serviceType] => do
    pure ⟨← name.string?, ← description.string?, ← serviceType? serviceType⟩
  | _ => none

/-- The type of a service among members that were set aside, where an empty object is as
good as nothing. -/
def heldServiceType? : Json → Option ServiceType
  | .object [(word, .object [])] => Vocabulary.ofWord? word
  | value => JsonForm.ofJson? value

/-- The names of the fields of a tender's content. -/
def tenderContentFields : List String := ["name", "description", "service_type"]

/-- The members that show the content of a bid. -/
def bidContentMembers (content : BidContent) : List (String × Json) :=
  [("name", .string content.name), ("description", .string content.description)]

/-- The content of a bid from the values of its fields. -/
def bidContent? : List Json → Option BidContent
  | [name, description] => do pure ⟨← name.string?, ← description.string?⟩
  | _ => none

/-- The names of the fields of a bid's content. -/
def bidContentFields : List String := ["name", "description"]

/-- The names of a tender's own fields. -/
def tenderFields : List String :=
  ["id", "status", "organization_id", "creator_id", "version", "created_at"]

/-- The names of a bid's own fields. -/
def bidFields : List String :=
  ["id", "status", "tender_id", "author_type", "author_id", "version", "created_at"]

/-- The members that show a tender. -/
def tenderMembers (tender : Tender) : List (String × Json) :=
  ("id", .string tender.id) :: ("status", JsonForm.toJson tender.status) ::
    ("organization_id", .string tender.origin.organizationId) ::
    ("creator_id", .string tender.origin.creatorId) :: ("version", .integer tender.version) ::
    ("created_at", instantJson tender.createdAt) :: tenderContentMembers tender.content

/-- The members that show a bid. -/
def bidMembers (bid : Bid) : List (String × Json) :=
  ("id", .string bid.id) :: ("status", JsonForm.toJson bid.status) ::
    ("tender_id", .string bid.origin.tenderId) ::
    ("author_type", JsonForm.toJson bid.origin.author.type) ::
    ("author_id", .string bid.origin.author.id) :: ("version", .integer bid.version) ::
    ("created_at", instantJson bid.createdAt) :: bidContentMembers bid.content

/-- A version of a content, with the members that show the content. -/
def versionJson {Content : Type} (members : Content → List (String × Json))
    (version : ContentVersion Content) : Json :=
  .object (("entity_id", .string version.entityId) :: ("version", .integer version.version) ::
    members version.content)

end Record

open Record

instance : JsonForm TenderContent where
  toJson content := .object (tenderContentMembers content)
  ofJson? value := do tenderContent? JsonForm.ofJson? (← value.fields? tenderContentFields)

instance : JsonForm BidContent where
  toJson content := .object (bidContentMembers content)
  ofJson? value := do bidContent? (← value.fields? bidContentFields)

instance : JsonForm Tender where
  toJson tender := .object (tenderMembers tender)
  ofJson? value := do
    let members ← membersHolding? tenderFields value
    let content ←
      tenderContent? heldServiceType? (← Json.fieldsOfObject? tenderContentFields members)
    match ← Json.fieldsOfObject? tenderFields members with
    | [id, status, organizationId, creatorId, version, createdAt] =>
      pure
        { id := ← id.string?
          status := ← JsonForm.ofJson? status
          origin := ⟨← organizationId.string?, ← creatorId.string?⟩
          version := ← version.int64?
          createdAt := ← instant? createdAt
          content }
    | _ => none

instance : JsonForm Bid where
  toJson bid := .object (bidMembers bid)
  ofJson? value := do
    let members ← membersHolding? bidFields value
    let content ← bidContent? (← Json.fieldsOfObject? bidContentFields members)
    match ← Json.fieldsOfObject? bidFields members with
    | [id, status, tenderId, authorType, authorId, version, createdAt] =>
      pure
        { id := ← id.string?
          status := ← JsonForm.ofJson? status
          origin := ⟨← tenderId.string?, ⟨← JsonForm.ofJson? authorType, ← authorId.string?⟩⟩
          version := ← version.int64?
          createdAt := ← instant? createdAt
          content }
    | _ => none

instance : JsonForm Feedback where
  toJson feedback := .object
    [("id", .string feedback.id), ("bid_id", .string feedback.bidId),
      ("content", .string feedback.content), ("author_id", .string feedback.authorId),
      ("receiver_id", .string feedback.receiverId),
      ("created_at", instantJson feedback.createdAt)]
  ofJson? value := do
    let fields ← value.fields?
      ["id", "bid_id", "content", "author_id", "receiver_id", "created_at"]
    match fields with
    | [id, bidId, content, authorId, receiverId, createdAt] =>
      pure
        { id := ← id.string?
          bidId := ← bidId.string?
          content := ← content.string?
          authorId := ← authorId.string?
          receiverId := ← receiverId.string?
          createdAt := ← instant? createdAt }
    | _ => none

end Procurement

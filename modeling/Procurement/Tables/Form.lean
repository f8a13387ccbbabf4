import Procurement.Record.Form
import Procurement.Tables

/-!
# Tables as JSON

All that is stored, as one JSON value.
-/

namespace Procurement

open Record

namespace Tables

/-- The items of an array, each of which must be readable. -/
def listOf? {α : Type} (ofItem? : Json → Option α) (value : Json) : Option (List α) := do
  (← value.items?).mapM ofItem?

/-- A user as JSON. -/
def userJson (user : User) : Json :=
  .array [.string user.id, .string user.username, .string user.firstName,
    .string user.lastName, instantJson user.createdAt]

/-- The user that an array of fields gives. -/
def user? : Json → Option User
  | .array [id, username, firstName, lastName, createdAt] => do
    pure
      { id := ← id.string?
        username := ← username.string?
        firstName := ← firstName.string?
        lastName := ← lastName.string?
        createdAt := ← instant? createdAt }
  | _ => none

/-- An organization as JSON. -/
def organizationJson (organization : Organization) : Json :=
  .array [.string organization.id, .string organization.name,
    .string organization.description, JsonForm.toJson organization.type,
    instantJson organization.createdAt]

/-- The organization that an array of fields gives. -/
def organization? : Json → Option Organization
  | .array [id, name, description, type, createdAt] => do
    pure
      { id := ← id.string?
        name := ← name.string?
        description := ← description.string?
        type := ← JsonForm.ofJson? type
        createdAt := ← instant? createdAt }
  | _ => none

/-- A responsibility as JSON. -/
def responsibilityJson (link : Responsibility) : Json :=
  .array [.string link.id, .string link.organizationId, .string link.userId]

/-- The responsibility that an array of fields gives. -/
def responsibility? : Json → Option Responsibility
  | .array [id, organizationId, userId] => do
    pure ⟨← id.string?, ← organizationId.string?, ← userId.string?⟩
  | _ => none

/-- The origin of a tender as JSON. -/
def tenderOriginJson (origin : TenderOrigin) : Json :=
  .array [.string origin.organizationId, .string origin.creatorId]

/-- The origin of a tender that an array of fields gives. -/
def tenderOrigin? : Json → Option TenderOrigin
  | .array [organizationId, creatorId] => do
    pure ⟨← organizationId.string?, ← creatorId.string?⟩
  | _ => none

/-- The origin of a bid as JSON. -/
def bidOriginJson (origin : BidOrigin) : Json :=
  .array [.string origin.tenderId, JsonForm.toJson origin.author.type,
    .string origin.author.id]

/-- The origin of a bid that an array of fields gives. -/
def bidOrigin? : Json → Option BidOrigin
  | .array [tenderId, type, id] => do
    pure ⟨← tenderId.string?, ⟨← JsonForm.ofJson? type, ← id.string?⟩⟩
  | _ => none

/-- A version number. -/
def version? (value : Json) : Option Nat := value.natBelow? 9223372036854775808

/-- The rows and versions of a register as JSON. -/
def registerJson {Status Origin Content : Type} [JsonForm Status] [JsonForm Content]
    (originJson : Origin → Json) (register : Register Status Origin Content) : Json :=
  .array
    [.array (register.rows.map fun row =>
        .array [.string row.id, JsonForm.toJson row.status, originJson row.origin,
          .integer row.version, instantJson row.createdAt]),
      .array (register.revisions.map fun revision =>
        .array [.string revision.owner, .integer revision.version,
          JsonForm.toJson revision.content])]

/-- The row that an array of fields gives. -/
def row? {Status Origin : Type} [JsonForm Status] (origin? : Json → Option Origin) :
    Json → Option (Row Status Origin)
  | .array [id, status, origin, version, createdAt] => do
    pure
      { id := ← id.string?
        status := ← JsonForm.ofJson? status
        origin := ← origin? origin
        version := ← version? version
        createdAt := ← instant? createdAt }
  | _ => none

/-- The version of a content that an array of fields gives. -/
def revision? {Content : Type} [JsonForm Content] : Json → Option (Revision Content)
  | .array [owner, version, content] => do
    pure ⟨← owner.string?, ← version? version, ← JsonForm.ofJson? content⟩
  | _ => none

/-- The register that arrays of rows and versions give. -/
def register? {Status Origin Content : Type} [JsonForm Status] [JsonForm Content]
    (origin? : Json → Option Origin) : Json → Option (Register Status Origin Content)
  | .array [rows, revisions] => do
    pure ⟨← listOf? (row? origin?) rows, ← listOf? revision? revisions⟩
  | _ => none

end Tables

open Tables

instance : JsonForm Tables where
  toJson t := .array
    [.array (t.users.map userJson), .array (t.organizations.map organizationJson),
      .array (t.responsibilities.map responsibilityJson),
      registerJson tenderOriginJson t.tenders, registerJson bidOriginJson t.bids,
      .array (t.feedback.map JsonForm.toJson)]
  ofJson?
    | .array [users, organizations, responsibilities, tenders, bids, feedback] => do
      pure
        { users := ← listOf? user? users
          organizations := ← listOf? organization? organizations
          responsibilities := ← listOf? responsibility? responsibilities
          tenders := ← register? tenderOrigin? tenders
          bids := ← register? bidOrigin? bids
          feedback := ← listOf? JsonForm.ofJson? feedback }
    | _ => none

end Procurement

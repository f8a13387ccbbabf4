import Procurement.Record
import Procurement.Page

/-!
# Registers of versioned entities

A register holds one row for each tender or bid and, apart from it, every
version its content ever had. The row points at the version that counts. New
content is a new version behind the last one; nothing is taken out, and what a
version says never changes.
-/

namespace Procurement

/-- The row of an entity: everything but its content. -/
structure Row (Status Origin : Type) where
  id : String
  status : Status
  origin : Origin
  /-- The version of the content that counts. -/
  version : Nat
  createdAt : Instant
  deriving DecidableEq

/-- One version of the content of the entity that owns it. -/
structure Revision (Content : Type) where
  owner : String
  version : Nat
  content : Content
  deriving DecidableEq

/-- The rows of all entities of one kind, and all versions of their contents,
both in the order of their arrival. -/
structure Register (Status Origin Content : Type) where
  rows : List (Row Status Origin) := []
  revisions : List (Revision Content) := []
  deriving DecidableEq

namespace Register

variable {Status Origin Content : Type}

/-- The identifiers of all entities. -/
def ids (r : Register Status Origin Content) : List String := r.rows.map Row.id

/-- The row of an entity. -/
def row? (r : Register Status Origin Content) (id : String) : Option (Row Status Origin) :=
  r.rows.find? fun row => row.id == id

/-- The versions of an entity's content, oldest first. -/
def revisionsOf (r : Register Status Origin Content) (id : String) : List (Revision Content) :=
  r.revisions.filter fun revision => revision.owner == id

/-- The number of the newest version of an entity's content. -/
def latest? (r : Register Status Origin Content) (id : String) : Option Nat :=
  ((r.revisionsOf id).map Revision.version).max?

/-- What one version of an entity's content says. -/
def content? (r : Register Status Origin Content) (id : String) (version : Int) :
    Option Content :=
  ((r.revisionsOf id).find? fun revision => (revision.version : Int) == version).map
    Revision.content

/-- A row joined with the content that it points at. -/
def join? (r : Register Status Origin Content) (row : Row Status Origin) :
    Option (Entity Status Origin Content) :=
  (r.content? row.id row.version).map fun content =>
    { id := row.id, status := row.status, origin := row.origin, version := row.version,
      createdAt := row.createdAt, content }

/-- An entity with the content that counts. -/
def find? (r : Register Status Origin Content) (id : String) :
    Option (Entity Status Origin Content) :=
  (r.row? id).bind r.join?

/-- Every version of an entity's content, oldest first. -/
def history (r : Register Status Origin Content) (id : String) : List (ContentVersion Content) :=
  (r.revisionsOf id).map fun revision => ⟨id, revision.version, revision.content⟩

/-- All entities with the contents that count, in the order of their arrival. -/
def entities (r : Register Status Origin Content) : List (Entity Status Origin Content) :=
  r.rows.filterMap r.join?

/-- Whether one entity stands before another in listings: by name, then by identifier. -/
def precedes [Named Content] (a b : Entity Status Origin Content) : Bool :=
  Named.name a.content < Named.name b.content ||
    Named.name a.content == Named.name b.content && !(b.id < a.id)

/-- The entities that a filter admits, in the order of listings. -/
def listing [Named Content] (r : Register Status Origin Content)
    (admits : Entity Status Origin Content → Bool) : List (Entity Status Origin Content) :=
  (r.entities.filter admits).mergeSort precedes

/-- Adds an entity with the first version of its content, unless its identifier is taken. -/
def insert? (r : Register Status Origin Content) (id : String) (status : Status) (origin : Origin)
    (createdAt : Instant) (content : Content) : Option (Register Status Origin Content) :=
  if (r.row? id).isSome then none
  else some
    { rows := r.rows ++ [{ id, status, origin, version := 1, createdAt }]
      revisions := r.revisions ++ [{ owner := id, version := 1, content }] }

/-- Changes the rows of an entity. -/
def mapRow (r : Register Status Origin Content) (id : String)
    (change : Row Status Origin → Row Status Origin) : Register Status Origin Content :=
  { r with rows := r.rows.map fun row => if row.id == id then change row else row }

/-- Sets the status of an entity. -/
def setStatus (r : Register Status Origin Content) (id : String) (status : Status) :
    Register Status Origin Content :=
  r.mapRow id fun row => { row with status }

/-- Adds content behind the newest version and points the row at it; this needs a
version to stand behind. -/
def append? (r : Register Status Origin Content) (id : String) (content : Content) :
    Option (Register Status Origin Content) :=
  (r.latest? id).map fun latest =>
    let revision : Revision Content := { owner := id, version := latest + 1, content }
    let extended : Register Status Origin Content :=
      { r with revisions := r.revisions ++ [revision] }
    extended.mapRow id fun row => { row with version := latest + 1 }

end Register

end Procurement

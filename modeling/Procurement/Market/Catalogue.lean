import Procurement.Market.Basic

/-!
# Tenders and bids alike

Tenders and bids are kept in the same way: each kind has a register and a cache
of the identifiers in it. Every request about one entity first asks the cache,
and an unknown identifier is refused without looking at the register. These
requests check no one's authority.
-/

namespace Procurement

/-- What distinguishes one kind of versioned entity from the other. -/
structure Catalogue (Status Origin Content : Type) where
  /-- What refusals call such an entity. -/
  kind : EntityKind
  /-- What refusals name when something a new entity refers to is not stored. -/
  referenced : EntityKind
  /-- The name of the table that holds the rows. -/
  table : String
  /-- The status of a new entity. -/
  initial : Status
  /-- The status from which an entity is decided or closed. -/
  published : Status
  register : Tables → Register Status Origin Content
  setRegister : Tables → Register Status Origin Content → Tables
  cache : Caches → ExistenceCache
  setCache : Caches → ExistenceCache → Caches
  /-- Whether all that a new entity refers to is stored. -/
  supports : Tables → Origin → Bool
  registration : String → Registration

/-- The tenders of a market. -/
def tenders : Catalogue TenderStatus TenderOrigin TenderContent where
  kind := .tender
  referenced := .organization
  table := "tender"
  initial := .created
  published := .published
  register := Tables.tenders
  setRegister tables register := { tables with tenders := register }
  cache := Caches.tenders
  setCache caches cache := { caches with tenders := cache }
  supports := Tables.supportsTender
  registration := .tender

/-- The bids of a market. -/
def bids : Catalogue BidStatus BidOrigin BidContent where
  kind := .bid
  referenced := .tender
  table := "bid"
  initial := .created
  published := .published
  register := Tables.bids
  setRegister tables register := { tables with bids := register }
  cache := Caches.bids
  setCache caches cache := { caches with bids := cache }
  supports := Tables.supportsBid
  registration := .bid

namespace Catalogue

variable {Status Origin Content : Type} (c : Catalogue Status Origin Content)

/-- Whether the cache knows the identifier. -/
def exists? (id : String) : MarketM Bool :=
  modifyGet fun m =>
    let (found, cache) := (c.cache m.caches).lookup id
    (found, { m with caches := c.setCache m.caches cache })

/-- Refuses an identifier that the cache does not know. -/
def ensureExists (id : String) : MarketM Unit := do
  if ← c.exists? id then pure () else throw (.notFound c.kind id)

/-- The tables with the register changed. -/
def update (change : Register Status Origin Content → Register Status Origin Content) :
    MarketM Unit :=
  modify fun m => { m with tables := c.setRegister m.tables (change (c.register m.tables)) }

/-- The identifiers of all stored entities, in order. -/
def loadIds : MarketM (List String) :=
  Market.stored fun tables => (c.register tables).ids.mergeSort fun a b => !(b < a)

/-- Stores a new entity with the first version of its content and yields its identifier. -/
def insert (origin : Origin) (content : Content) : MarketM String := do
  let id ← Market.drawId
  let createdAt := (← get).now
  let refusal
    | .duplicate => .storageUnavailable
    | .dangling => .referentialIntegrity c.referenced
  Market.store refusal fun tables =>
    match (c.register tables).insert? id c.initial origin createdAt content with
    | none => .error .duplicate
    | some register =>
      if c.supports tables origin then .ok (c.setRegister tables register) else .error .dangling
  Market.register (c.registration id)
  pure id

/-- The entity with the content that counts. -/
def get (id : String) : MarketM (Entity Status Origin Content) := do
  c.ensureExists id
  Market.storedOr (.notFound c.kind id) fun tables => (c.register tables).find? id

/-- The row of an entity. -/
def row (id : String) : MarketM (Row Status Origin) := do
  c.ensureExists id
  Market.storedOr (.notFound c.kind id) fun tables => (c.register tables).row? id

/-- The status of an entity. -/
def status (id : String) : MarketM Status := do
  let row ← c.row id
  pure row.status

/-- The page of the listing of all entities that a filter admits. -/
def list [Named Content] (admits : Entity Status Origin Content → Bool) (page : Page) :
    MarketM (List (Entity Status Origin Content)) :=
  Market.stored fun tables => page.select ((c.register tables).listing admits)

/-- Sets the status of an entity, whatever it was. -/
def setStatus (id : String) (status : Status) : MarketM (Entity Status Origin Content) := do
  c.ensureExists id
  c.update fun register => register.setStatus id status
  c.get id

/-- Sets the status of an entity if it is one of the given statuses, and yields the
entity's row before the change if there was one. -/
def transition [DecidableEq Status] (id : String) (sources : List Status) (target : Status) :
    MarketM (Option (Row Status Origin)) := do
  c.ensureExists id
  let row ← Market.stored fun tables => (c.register tables).row? id
  match row.filter fun row => row.status ∈ sources with
  | none => pure none
  | some row =>
    c.update fun register => register.setStatus id target
    pure (some row)

/-- Sets the status of an entity if it is one of the given statuses, and tells whether it was. -/
def setStatusFrom [DecidableEq Status] (id : String) (sources : List Status) (target : Status) :
    MarketM Bool := do
  let changed ← c.transition id sources target
  pure changed.isSome

/-- Sets the status of a published entity, and tells whether it was published. -/
def setStatusIfPublished [DecidableEq Status] (id : String) (target : Status) : MarketM Bool :=
  c.setStatusFrom id [c.published] target

/-- Adds the content as the next version. -/
def append (id : String) (content : Content) : MarketM (Entity Status Origin Content) := do
  let register ← Market.storedOr .storageUnavailable fun tables =>
    (c.register tables).append? id content
  c.update fun _ => register
  c.get id

/-- Replaces the content of an entity by a next version. -/
def edit (id : String) (content : Content) : MarketM (Entity Status Origin Content) := do
  c.ensureExists id
  c.append id content

/-- Takes the content of an old version up again, as the next version. -/
def rollback (id : String) (version : Int) : MarketM (Entity Status Origin Content) := do
  c.ensureExists id
  let content ← Market.storedOr (.invalidVersion c.kind id version) fun tables =>
    (c.register tables).content? id version
  c.append id content

/-- One version of the content of an entity. -/
def contentVersion (id : String) (version : Int) : MarketM (ContentVersion Content) := do
  c.ensureExists id
  let content ← Market.storedOr (.invalidVersion c.kind id version) fun tables =>
    (c.register tables).content? id version
  pure ⟨id, version, content⟩

/-- Every version of the content of an entity, oldest first. -/
def history (id : String) : MarketM (List (ContentVersion Content)) := do
  c.ensureExists id
  Market.stored fun tables => (c.register tables).history id

end Catalogue

end Procurement

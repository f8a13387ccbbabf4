import Procurement.Cache
import Procurement.Handle
import Procurement.Tables

/-!
# The state of a market

A market acts on its tables and answers from its caches. A cache learns of a new
row when the row is stored for good: at once outside a transaction, and with the
commit inside one. Requests that fail leave their look-ups counted.
-/

namespace Procurement

/-- Where new identifiers come from: the one offered for the current request, and
after it numbered ones. -/
structure IdSupply where
  offered : Option String := none
  /-- How many numbered identifiers were handed out. -/
  generated : Nat := 0
  deriving DecidableEq, Repr

/-- Hands out one identifier. -/
def IdSupply.draw (supply : IdSupply) : String × IdSupply :=
  match supply.offered with
  | some id => (id, { supply with offered := none })
  | none =>
    let n := supply.generated + 1
    ("gen-" ++ String.ofList (Text.digits n), { supply with generated := n })

/-- A stored row that a cache should know. -/
inductive Registration where
  | tender (id : String)
  | bid (id : String)
  | user (username id : String)
  deriving DecidableEq, Repr

/-- The caches with one more row known to them. -/
def Registration.applyTo (registration : Registration) (caches : Caches) : Caches :=
  match registration with
  | tender id => { caches with tenders := caches.tenders.add id }
  | bid id => { caches with bids := caches.bids.add id }
  | user username id => { caches with users := caches.users.add username id }

/-- A market at work. -/
structure Market where
  tables : Tables := {}
  caches : Caches := {}
  /-- The hold on the open transaction, if there is one. -/
  transaction : Option (Handle Registration) := none
  /-- What the clock shows. -/
  now : Instant := Instant.initial
  ids : IdSupply := {}
  /-- How many milliseconds a decision may take; `none` sets no limit. -/
  decisionLimit : Option UInt64 := some 10000
  /-- Work in a transaction takes longer than any limit. -/
  slow : Bool := false
  deriving DecidableEq

/-- A request to a market: it may be refused, and changes the market either way. -/
abbrev MarketM := ExceptT MarketError (StateM Market)

namespace Market

/-- Caches filled from the tables, with nothing counted. -/
def warmCaches (tables : Tables) : Caches where
  tenders := ({} : ExistenceCache).warmUp tables.tenders.ids
  bids := ({} : ExistenceCache).warmUp tables.bids.ids
  users := ({} : LookupCache).warmUp tables.usernames

/-- The market with caches filled anew from its tables. -/
def reassemble (m : Market) : Market := { m with caches := warmCaches m.tables }

/-- The sizes of the caches. -/
structure Counts where
  tenders : Nat
  bids : Nat
  users : Nat
  deriving DecidableEq, Repr

/-- The number of tenders, bids and users that the caches know. -/
def counts (m : Market) : Counts where
  tenders := m.caches.tenders.size
  bids := m.caches.bids.size
  users := m.caches.users.size

/-- How the caches have been used. -/
structure Usage where
  tenders : Counters
  bids : Counters
  users : Counters
  deriving DecidableEq, Repr

/-- The counters of the caches. -/
def usage (m : Market) : Usage where
  tenders := m.caches.tenders.counters
  bids := m.caches.bids.counters
  users := m.caches.users.counters

/-- Hands out an identifier. -/
def drawId : MarketM String :=
  modifyGet fun m =>
    let (id, ids) := m.ids.draw
    (id, { m with ids })

/-- The market with one more row known to its caches, or to be known with the commit
of the open transaction. -/
def registered (m : Market) (registration : Registration) : Market :=
  match m.transaction with
  | none => { m with caches := registration.applyTo m.caches }
  | some handle => { m with transaction := some (handle.defer registration) }

/-- Lets the cache that knows such rows know a new one. -/
def register (registration : Registration) : MarketM Unit :=
  modify fun m => m.registered registration

/-- Looks up what a username stands for. -/
def lookupUser (username : String) : MarketM (Option String) :=
  modifyGet fun m =>
    let (id, users) := m.caches.users.lookup username
    (id, { m with caches := { m.caches with users } })

/-- The identifier of the user with the given name, who must be known. -/
def userId (username : String) : MarketM String := do
  match ← lookupUser username with
  | some id => pure id
  | none => throw (.notFound .user username)

/-- Reads the tables. -/
def stored {α : Type} (query : Tables → α) : MarketM α := do
  let m ← get
  pure (query m.tables)

/-- Reads something from the tables, refusing with the given error if it is not there. -/
def storedOr {α : Type} (refusal : MarketError) (query : Tables → Option α) : MarketM α := do
  match query (← get).tables with
  | some value => pure value
  | none => throw refusal

/-- Writes what an insertion yields, or refuses with the error for its violation. -/
def store (refusal : Violation → MarketError) (insertion : Tables → Except Violation Tables) :
    MarketM Unit := do
  let m ← get
  match insertion m.tables with
  | .ok tables => set { m with tables }
  | .error violation => throw (refusal violation)

end Market

end Procurement

import Procurement.Market.Membership

/-!
# Surveys

A survey shows everything that a market keeps about its tenders, bids and users,
in the order of their identifiers and names. It reads through the caches like
any request, so it is counted there.
-/

namespace Procurement

/-- An entity with every version of its content. -/
structure Dossier (Status Origin Content : Type) where
  entity : Entity Status Origin Content
  history : List (ContentVersion Content)
  deriving DecidableEq

/-- The entity with the given identifier and its history. -/
def Catalogue.dossier {Status Origin Content : Type} (c : Catalogue Status Origin Content)
    (id : String) : MarketM (Dossier Status Origin Content) := do
  let entity ← c.get id
  let history ← c.history id
  pure { entity, history }

/-- All tenders, bids and users of a market. -/
structure Survey where
  tenders : List (Dossier TenderStatus TenderOrigin TenderContent)
  bids : List (Dossier BidStatus BidOrigin BidContent)
  users : List (String × String)
  counts : Market.Counts
  deriving DecidableEq

namespace Market

/-- Shows all tenders, bids and users. -/
def survey : MarketM Survey := do
  let tenders ← (← tenders.loadIds).mapM tenders.dossier
  let bids ← (← bids.loadIds).mapM bids.dossier
  let users ← usernames
  let counts := (← get).counts
  pure { tenders, bids, users, counts }

end Market

end Procurement

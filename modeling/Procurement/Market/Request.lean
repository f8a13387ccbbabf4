import Procurement.Market.Operation

/-!
# Requests

Whatever may be asked of a market: its operations, the questions and unchecked
operations behind them, and questions about its caches. Each request comes with
or without an identifier for what it creates.
-/

namespace Procurement

/-- What may be asked of a market. -/
inductive Request where
  | operation (op : Operation)
  | relation (query : RelationQuery)
  | store (op : StoreOperation)
  | feedback (op : FeedbackOperation)
  | counts
  | usage
  | survey
  /-- Lets a cache know a row, whether it is stored or not. -/
  | learn (registration : Registration)
  deriving DecidableEq

/-- Carries out a request. -/
def Request.perform : Request → MarketM Answer
  | .operation op => op.perform
  | .relation query => query.perform
  | .store op => op.perform
  | .feedback op => op.perform
  | .counts => do pure (.counts (← get).counts)
  | .usage => do pure (.usage (← get).usage)
  | .survey => .survey <$> Market.survey
  | .learn registration => do
    Market.register registration
    pure (.counts (← get).counts)

namespace Market

/-- The market with an identifier offered for what the next request creates, and
none left over from the request before. -/
def offer (id : Option String) (m : Market) : Market :=
  { m with ids := { m.ids with offered := id } }

/-- Carries out work with an identifier offered for what it creates. -/
def run {α : Type} (work : MarketM α) (id : Option String) (m : Market) :
    Except MarketError α × Market :=
  work.run (m.offer id)

end Market

/-- What may happen to a market and its database. -/
inductive Step where
  | setClock (now : Instant)
  /-- From now on work in a transaction takes longer than any limit, or no longer does. -/
  | setPace (slow : Bool)
  | migrate
  | assemble
  | request (id : Option String) (request : Request)
  deriving DecidableEq

namespace Market

/-- The market after one step, and the answer to it. Its tables exist, so that there is
nothing left to migrate. -/
def step (m : Market) : Step → Reply × Market
  | .setClock now => (.ok (.instant now), { m with now })
  | .setPace slow => (.ok .done, { m with slow })
  | .migrate => (.ok .done, m)
  | .assemble => (.ok (.counts m.reassemble.counts), m.reassemble)
  | .request id request => m.run request.perform id

/-- The market after steps, and the answers to them. -/
def steps (m : Market) : List Step → List Reply × Market
  | [] => ([], m)
  | step :: rest =>
    let (reply, next) := m.step step
    let (replies, last) := next.steps rest
    (reply :: replies, last)

end Market

end Procurement

import Procurement.Market.Request

/-!
# Sessions

A session works on one database. The database may start without tables; then
they have to be made first, and a market assembled on them, before there is
anyone to make requests to. The clock can be set at any time.
-/

namespace Procurement

/-- How far the work on a database has come. -/
inductive Stage where
  /-- There are no tables. -/
  | bare
  /-- There are tables, but no market on them. -/
  | migrated
  /-- There is a market. -/
  | assembled
  deriving DecidableEq, Repr

/-- A database, and the market on it once there is one. -/
structure Session where
  stage : Stage := .assembled
  /-- The market, or what it will start from. -/
  market : Market := {}
  deriving DecidableEq

namespace Session

/-- The market of a session that has one. -/
def market? (s : Session) : Option Market :=
  match s.stage with
  | .assembled => some s.market
  | _ => none

/-- The tables of a session's database, if it has any. -/
def tables? (s : Session) : Option Tables :=
  match s.stage with
  | .bare => none
  | _ => some s.market.tables

/-- A session on tables that are stored already, with a new market on them; the given
session if there are none. -/
def onTables (s : Session) : Option Tables → Session
  | some tables => { stage := .assembled, market := { s.market with tables }.reassemble }
  | none => s

/-- The session with tables in its database. -/
def migrate (s : Session) : Session :=
  match s.stage with
  | .bare => { s with stage := .migrated }
  | _ => s

/-- The session with a new market on the tables. -/
def assemble (s : Session) : Reply × Session :=
  match s.stage with
  | .bare => (.error .storageUnavailable, s)
  | _ =>
    let market := s.market.reassemble
    (.ok (.counts market.counts), { stage := .assembled, market })

/-- The session after one step, and the answer to it; no answer to a request for which
there is no market. -/
def step (s : Session) : Step → Option Reply × Session
  | .setClock now => (some (.ok (.instant now)), { s with market := { s.market with now } })
  | .setPace slow => (some (.ok .done), { s with market := { s.market with slow } })
  | .migrate => (some (.ok .done), s.migrate)
  | .assemble =>
    let (reply, next) := s.assemble
    (some reply, next)
  | .request id request =>
    match s.stage with
    | .assembled =>
      let (reply, market) := s.market.step (.request id request)
      (some reply, { s with market })
    | _ => (none, s)

/-- In a session with a market, steps are steps of the market. -/
theorem step_assembled (m : Market) (step : Step) :
    Session.step ⟨.assembled, m⟩ step =
      (some (m.step step).1, ⟨.assembled, (m.step step).2⟩) := by
  cases step <;> rfl

end Session

end Procurement

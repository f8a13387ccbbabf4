/-!
# Settings

What a marketplace can be told about its database, its log, its listings and its
decisions. Times are in milliseconds.
-/

namespace Procurement

/-- Where the data is kept and how it is reached. -/
structure DatabaseSettings where
  url : String := "sqlite://tender-market.db"
  maxConnections : UInt32 := 1
  /-- Missing tables are made when the database is opened. -/
  autoMigrate : Bool := true
  /-- How long to wait for a database that is in use. -/
  busyTimeout : UInt64 := 5000
  deriving DecidableEq, Repr

/-- What is logged, and how. -/
structure LogSettings where
  level : String := "info"
  json : Bool := true
  deriving DecidableEq, Repr

/-- How listings are cut into pages. -/
structure PageSettings where
  /-- The limit of a page for which none is asked; zero is no limit. -/
  defaultLimit : Int64 := 0
  deriving DecidableEq

/-- How decisions are made. -/
structure DecisionSettings where
  /-- How long a decision may take; `none` sets no limit. -/
  timeout : Option UInt64 := some 10000
  deriving DecidableEq, Repr

/-- All settings of a marketplace. -/
structure Settings where
  database : DatabaseSettings := {}
  log : LogSettings := {}
  pages : PageSettings := {}
  decisions : DecisionSettings := {}
  deriving DecidableEq

end Procurement

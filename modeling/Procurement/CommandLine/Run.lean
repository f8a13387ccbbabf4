import Procurement.CommandLine.Arguments
import Procurement.CommandLine.EnvironmentFile
import Procurement.CommandLine.LogFilter
import Procurement.Database.Directory
import Procurement.Market.Bidding
import Procurement.Market.Tendering
import Procurement.Record.Form
import Procurement.Settings.File

/-!
# Runs

A run of the program carries out one command: it finds its settings, opens the
database, and works with a market on it. The outcome is a JSON value or a
sentence that says what failed.
-/

namespace Procurement

open Procurement.Text

/-- How a run ends. -/
inductive Outcome where
  /-- An explanation was shown. -/
  | explained
  /-- The arguments were not understood. -/
  | misused
  | printed (value : Json)
  | failed (message : String)
  /-- The run was broken off. -/
  | aborted

/-- Whether a refusal is only found when a change is tried. -/
def MarketError.comesWithChange : MarketError → Bool
  | invalidVersion .. | bidNotPublished .. | tenderNotPublished .. => true
  | _ => false

namespace Command

/-- Carries out a command that needs a market. -/
def perform (settings : Settings) : Command → MarketM Json
  | migrate => pure .null
  | stats => do
    let counts := (← get).counts
    pure (.object [("tenders", .integer counts.tenders), ("bids", .integer counts.bids),
      ("users", .integer counts.users)])
  | decide actor bid decision => JsonForm.toJson <$> Market.submitDecision actor bid decision
  | rollback .tender id version actor => JsonForm.toJson <$> Market.rollbackTender actor id version
  | rollback .bid id version actor => JsonForm.toJson <$> Market.rollbackBid actor id version
  | history .tender id => do
    let versions ← tenders.history id
    pure (.array (versions.map (Record.versionJson Record.tenderContentMembers)))
  | history .bid id => do
    let versions ← bids.history id
    pure (.array (versions.map (Record.versionJson Record.bidContentMembers)))
  | reviews requester tender author offset limit => do
    let page := Page.ofRequest offset (limit.getD settings.pages.defaultLimit.toInt)
    let reviews ← Market.reviews requester tender author page
    pure (.array (reviews.map JsonForm.toJson))

/-- Works on an open database. Nothing can be changed in one that is only read, nor a change
be tried. -/
def run (command : Command) (settings : Settings) (db : Database) :
    Except MarketError Json × Database :=
  match command, db.kept.tables with
  | migrate, _ =>
    match db.migrate? with
    | some db => (.ok (.object [("migrated", .bool true)]), db)
    | none => (.error .storageUnavailable, db)
  | _, none => (.error .storageUnavailable, db)
  | command, some tables =>
    let market : Market := { tables, decisionLimit := settings.decisions.timeout }
    let (result, after) := (command.perform settings).run market.reassemble
    let refused := match result with
      | .error refusal => refusal.comesWithChange
      | .ok _ => after.tables ≠ tables
    if db.readOnly && refused then (.error .storageUnavailable, db)
    else (result, { db with kept.tables := some after.tables })

end Command

namespace Invocation

/-- The environment that an invocation goes by: the outer one and, unless a settings file
is named, what the directory's environment file adds to it. There is none if the file has
a value that no variable can have. -/
def environment? (invocation : Invocation) (files : Files) (outer : Environment) :
    Option Environment :=
  match invocation.config, files.text? [".env"] with
  | none, some text => outer.withFile? text
  | _, _ => outer

/-- The settings that an invocation goes by, or how the run ends without them. A settings
file that is named stands alone. -/
def settings (invocation : Invocation) (files : Files) (environment : Environment) :
    Except Outcome Settings := do
  let (found, failure) := match invocation.config with
    | some name =>
      (Settings.ofFile files name, "Failed to load configuration from " ++ name)
    | none => (Settings.load files environment, "Failed to load configuration")
  match found, invocation.database with
  | .ok settings, some url => pure { settings with database := { settings.database with url } }
  | .ok settings, none => pure settings
  | .error .unreadable, _ => throw (.failed failure)
  | .error .misplaced, _ => throw .aborted

/-- How a run ends with a faulty log filter. -/
def faultOutcome (fault : FilterFault) : Outcome :=
  match fault.message? with
  | some message => .failed message
  | none => .aborted

/-- Whether the log can be set up; a filter in the environment comes before that of the
settings if it is sound. -/
def checkLog (settings : Settings) (environment : Environment) : Except Outcome Unit :=
  let configured := (checkFilter settings.log.level).mapError faultOutcome
  match environment.lookup "RUST_LOG" with
  | some filter =>
    match checkFilter filter with
    | .ok _ => .ok ()
    | .error .split => .error .aborted
    | .error _ => configured
  | none => configured

/-- The variable that says how many threads there are. -/
def threadVariable : String := "TOKIO_WORKER_THREADS"

/-- The greatest number of threads that there may be. -/
def mostThreads : Int := 10000

/-- Whether the variable for the number of threads, if it is set, has a number that will do. -/
def checkThreads (environment : Environment) : Except Outcome Unit :=
  match environment.lookup threadVariable with
  | some text =>
    match text.toList.head?, readInteger? text.toList with
    | some '-', _ | _, none => throw .aborted
    | _, some n => if 0 < n ∧ n ≤ mostThreads then pure () else throw .aborted
  | none => pure ()

/-- The settings for an invocation, or how the run ends before it gets to its command. -/
def prepare (invocation : Invocation) (files : Files) (outer : Environment) :
    Except Outcome Settings := do
  match invocation.environment? files outer with
  | some environment =>
    let settings ← invocation.settings files environment
    checkLog settings environment
    checkThreads environment
    pure settings
  | none => throw .aborted

end Invocation

/-- Runs the program in a directory and an environment with the given arguments. -/
def Directory.run (d : Directory) (outer : Environment) (arguments : List String) :
    Outcome × Directory :=
  match Invocation.ofArguments arguments with
  | .error .help => (.explained, d)
  | .error .misuse => (.misused, d)
  | .ok invocation =>
    match invocation.prepare d.allFiles outer with
    | .error outcome => (outcome, d)
    | .ok settings =>
      match d.openDatabase settings.database with
      | (none, d) => (.failed "Failed to open database", d)
      | (some db, d) =>
        match invocation.command.run settings db with
        | (.ok value, db) => (.printed value, d.keep db)
        | (.error refusal, db) => (.failed refusal.message, d.keep db)

/-- The code with which a run ends. -/
def Outcome.code : Outcome → Nat
  | explained | printed _ => 0
  | failed _ => 1
  | misused => 2
  | aborted => 101

end Procurement

/-
# Configuration

The settings of the service, with their usual values and the checks that every configuration passes.

Key definitions: `Config`, `ConfigFault`, `Config.validate`.
-/
import ExperimentKpi.Experiment.Basic
import ExperimentKpi.Text.Blank
import ExperimentKpi.Token.Duration

namespace ExperimentKpi

/-- The configuration of the service. -/
structure Config where
  host : String := "0.0.0.0"
  port : Nat := 8080
  databaseUrl : String := "sqlite://tmp/phoenix_kpi.db"
  tokenSecret : String := "dev-secret-key-change-in-production"
  tokenLifetime : String := "24h"
  logLevel : String := "info,phoenix_kpi=debug"
  logFile : Option String := some "logs/phoenix_kpi.log"
  warehouse : Warehouse := {}
deriving DecidableEq, Repr

/-- Why a configuration is refused. -/
inductive ConfigFault where
  | zeroPort
  | emptyDatabaseUrl
  | badLifetime (text : String)
  | emptyName (key : String)
deriving DecidableEq, Repr

/-- The wording of a refusal. -/
def ConfigFault.message : ConfigFault → String
  | zeroPort => "Server port cannot be 0"
  | emptyDatabaseUrl => "Database URL cannot be empty"
  | badLifetime text => s!"auth.jwt_expires_in is not a valid duration: {text}"
  | emptyName key => s!"{key} cannot be empty"

namespace Config

/-- The names of the warehouse with their keys. -/
def warehouseNames (w : Warehouse) : List (String × String) :=
  [("hive.db_name", w.database), ("hive.secondary_db_name", w.secondaryDatabase),
    ("hive.reaction_table", w.reactionTable), ("hive.report_table", w.reportTable)]

/-- Whether a text consists of blanks. -/
def isVacantName (s : String) : Bool :=
  s.toList.all Text.isBlank

/-- The first fault of a configuration, if it has one. -/
def validate (c : Config) : Except ConfigFault Unit :=
  if c.port = 0 then .error .zeroPort
  else if c.databaseUrl.isEmpty then .error .emptyDatabaseUrl
  else if (durationSeconds? c.tokenLifetime).isNone then .error (.badLifetime c.tokenLifetime)
  else
    match (warehouseNames c.warehouse).find? fun (_, name) => isVacantName name with
    | some (key, _) => .error (.emptyName key)
    | none => .ok ()

end Config

end ExperimentKpi

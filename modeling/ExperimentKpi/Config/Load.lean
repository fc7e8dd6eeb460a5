/-
# Loading the configuration

The configuration is the usual one, changed by a file, then by variables of the environment, then by
the command line. The file is the one that the command line names, else the first of two usual ones
that exists. A `.env` file stands in for variables that are not set.

Key definitions: `Surroundings`, `LoadOutcome`, `Config.ofToml?`, `Config.load`.
-/
import ExperimentKpi.Config.Arguments
import ExperimentKpi.Config.Basic
import ExperimentKpi.Config.DotEnv
import ExperimentKpi.Config.Toml

namespace ExperimentKpi

/-- What a configuration is loaded from: the command line, the environment and files by path. -/
structure Surroundings where
  arguments : List String
  environment : DotEnv.Variables
  files : List (String × String)

/-- What came of loading a configuration. -/
inductive LoadOutcome where
  | loaded (c : Config)
  | refused (fault : ConfigFault)
  /-- The file is no TOML document of a configuration. -/
  | badFile
  /-- The file cannot be read. -/
  | noFile
  /-- The command line is refused. -/
  | badArguments
  /-- Help or the version was shown. -/
  | shown

namespace Config

/-- The entries of a section: of a table, or of an array in the order of the section's keys. A
section may be missing, and a date is one without entries. -/
def section? (keys : List String) (entries : Toml.Entries) (name : String) : Option Toml.Entries :=
  match entries.lookup name with
  | none => some []
  | some .dateTime => some []
  | some (.table _ inner) => some inner
  | some (.array items) => some (keys.zip items)
  | some (.tables items) => some (keys.zip (items.map (.table .header)))
  | some _ => none

/-- A text of a section, or its usual value. -/
def textOr? (es : Toml.Entries) (key usual : String) : Option String :=
  match es.lookup key with
  | none => some usual
  | some (.text s) => some s
  | some _ => none

/-- A port of a section, or its usual value. -/
def portOr? (es : Toml.Entries) (key : String) (usual : Nat) : Option Nat :=
  match es.lookup key with
  | none => some usual
  | some (.integer z) => if 0 ≤ z ∧ z < 65536 then some z.toNat else none
  | some _ => none

/-- The configuration that a document gives. Keys without a meaning are ignored. -/
def ofToml? (entries : Toml.Entries) : Option Config := do
  let usual : Config := {}
  let server ← section? ["host", "port"] entries "server"
  let database ← section? ["url"] entries "database"
  let auth ← section? ["jwt_secret", "jwt_expires_in"] entries "auth"
  let logging ← section? ["level", "file"] entries "logging"
  let hive ← section? ["db_name", "secondary_db_name", "reaction_table", "report_table"] entries
    "hive"
  return {
    host := ← textOr? server "host" usual.host
    port := ← portOr? server "port" usual.port
    databaseUrl := ← textOr? database "url" usual.databaseUrl
    tokenSecret := ← textOr? auth "jwt_secret" usual.tokenSecret
    tokenLifetime := ← textOr? auth "jwt_expires_in" usual.tokenLifetime
    logLevel := ← textOr? logging "level" usual.logLevel
    logFile := ← (textOr? logging "file" (usual.logFile.getD "")).map some
    warehouse := {
      database := ← textOr? hive "db_name" usual.warehouse.database
      secondaryDatabase := ← textOr? hive "secondary_db_name" usual.warehouse.secondaryDatabase
      reactionTable := ← textOr? hive "reaction_table" usual.warehouse.reactionTable
      reportTable := ← textOr? hive "report_table" usual.warehouse.reportTable } }

/-- The configuration with the values of variables; a port that is none is ignored. -/
def withVariables (c : Config) (vars : DotEnv.Variables) : Config :=
  let text (key usual : String) : String := (vars.lookup key).getD usual
  { c with
    host := text "APP_SERVER_HOST" c.host
    port := ((vars.lookup "APP_SERVER_PORT").bind fun s =>
      Text.unsigned? 65536 s.toList).getD c.port
    databaseUrl := text "APP_DATABASE_URL" c.databaseUrl
    tokenSecret := text "APP_JWT_SECRET" c.tokenSecret
    tokenLifetime := text "APP_JWT_EXPIRES_IN" c.tokenLifetime
    logLevel := text "APP_LOG_LEVEL" c.logLevel
    warehouse := {
      database := text "APP_HIVE_DB_NAME" c.warehouse.database
      secondaryDatabase := text "APP_HIVE_SECONDARY_DB_NAME" c.warehouse.secondaryDatabase
      reactionTable := text "APP_HIVE_REACTION_TABLE" c.warehouse.reactionTable
      reportTable := text "APP_HIVE_REPORT_TABLE" c.warehouse.reportTable } }

/-- The configuration with the values of the command line. -/
def withArguments (c : Config) (a : Arguments) : Config :=
  { c with
    host := a.serverHost.getD c.host
    port := a.serverPort.getD c.port
    databaseUrl := a.databaseUrl.getD c.databaseUrl
    tokenSecret := a.tokenSecret.getD c.tokenSecret
    tokenLifetime := a.tokenLifetime.getD c.tokenLifetime
    logLevel := a.logLevel.getD c.logLevel
    warehouse := { c.warehouse with
      database := a.database.getD c.warehouse.database
      secondaryDatabase := a.secondaryDatabase.getD c.warehouse.secondaryDatabase } }

/-- A relative path in its plain form, without steps that stay in place. -/
def plainPath (path : String) : String :=
  let parts := Text.splitAt (· == '/') path.toList
  String.intercalate "/" ((parts.filter (· != ['.'])).map String.ofList)

/-- The text of a file. -/
def file? (s : Surroundings) (path : String) : Option String :=
  s.files.lookup (plainPath path)

/-- The file that a configuration is read from: its text, or none where it does not exist; nothing
if no file is named and none of the usual ones exists. -/
def source (s : Surroundings) (a : Arguments) : Option (Option String) :=
  match a.config with
  | some path => some (file? s path)
  | none =>
    match file? s "conf/config.toml", file? s "config.toml" with
    | some text, _ => some (some text)
    | none, some text => some (some text)
    | none, none => none

/-- The configuration after the file, and before variables and the command line. -/
def ofSource (source : Option (Option String)) : Except LoadOutcome Config :=
  match source with
  | none => .ok {}
  | some none => .error .noFile
  | some (some text) =>
    match (Toml.parse? text).bind ofToml? with
    | some c => .ok c
    | none => .error .badFile

/-- The configuration that some surroundings give. -/
def load (s : Surroundings) : LoadOutcome :=
  let vars := match s.files.lookup ".env" with
    | some text => DotEnv.load s.environment text
    | none => s.environment
  match Arguments.read s.arguments with
  | .shown => .shown
  | .refused => .badArguments
  | .options a =>
    match ofSource (source s a) with
    | .error outcome => outcome
    | .ok c =>
      let c := (c.withVariables vars).withArguments a
      match c.validate with
      | .ok () => .loaded c
      | .error fault => .refused fault

end Config

end ExperimentKpi

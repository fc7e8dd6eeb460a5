/-
# Command line

The options of the service: each takes one value, behind an equals sign or as the next word, and
stands at most once. A word that starts with a dash is no value, except the dash alone. Asking for
help or the version ends the reading; nothing but options is accepted.

Key definitions: `Arguments`, `Arguments.Outcome`, `Arguments.read`.
-/
import ExperimentKpi.Text.Blank
import ExperimentKpi.Text.Integer

namespace ExperimentKpi

/-- The values of the options that were given. -/
structure Arguments where
  config : Option String := none
  serverHost : Option String := none
  serverPort : Option Nat := none
  databaseUrl : Option String := none
  tokenSecret : Option String := none
  tokenLifetime : Option String := none
  logLevel : Option String := none
  database : Option String := none
  secondaryDatabase : Option String := none
deriving DecidableEq, Repr

namespace Arguments

/-- What a command line asks for. -/
inductive Outcome where
  | options (a : Arguments)
  /-- Help or the version is shown. -/
  | shown
  /-- The command line is refused. -/
  | refused
deriving DecidableEq, Repr

/-- A value for an option that has none yet. -/
def fill {α : Type} (old : Option α) (value : α) : Option (Option α) :=
  match old with
  | none => some (some value)
  | some _ => none

/-- A port number. -/
def port? (s : String) : Option Nat :=
  match Text.int64? s.toList with
  | some z => if 0 ≤ z ∧ z < 65536 then some z.toNat else none
  | none => none

/-- The options with one more value; none if there is no such option, it has a value already, or the
value does not fit it. -/
def set? (a : Arguments) (name value : String) : Option Arguments :=
  match name with
  | "config" => (fill a.config value).map fun v => { a with config := v }
  | "server-host" => (fill a.serverHost value).map fun v => { a with serverHost := v }
  | "server-port" =>
    (port? value).bind fun n => (fill a.serverPort n).map fun v => { a with serverPort := v }
  | "database-url" => (fill a.databaseUrl value).map fun v => { a with databaseUrl := v }
  | "jwt-secret" => (fill a.tokenSecret value).map fun v => { a with tokenSecret := v }
  | "jwt-expires-in" => (fill a.tokenLifetime value).map fun v => { a with tokenLifetime := v }
  | "log-level" => (fill a.logLevel value).map fun v => { a with logLevel := v }
  | "hive-db-name" => (fill a.database value).map fun v => { a with database := v }
  | "hive-secondary-db-name" =>
    (fill a.secondaryDatabase value).map fun v => { a with secondaryDatabase := v }
  | _ => none

/-- A word of the command line. -/
inductive Word where
  | ending
  | long (name : String) (value : Option String)
  | short (flags : List Char)
  | plain

/-- The kind of a word. -/
def Word.of (s : List Char) : Word :=
  match s with
  | ['-', '-'] => ending
  | '-' :: '-' :: r =>
    match Text.cutAt? (· == '=') r with
    | some (name, value) => long (String.ofList name) (some (String.ofList value))
    | none => long (String.ofList r) none
  | '-' :: c :: r => short (c :: r)
  | _ => plain

/-- Reads words after the options `a`. -/
def readFrom (a : Arguments) : List String → Outcome
  | [] => .options a
  | word :: r =>
    match Word.of word.toList with
    | .ending => if r.isEmpty then .options a else .refused
    | .plain => .refused
    | .short flags => if flags.head? == some 'h' ∨ flags.head? == some 'V' then .shown else .refused
    | .long name none =>
      if name = "help" ∨ name = "version" then .shown
      else
        match r with
        | [] => .refused
        | value :: r' =>
          match Word.of value.toList, a.set? name value with
          | .plain, some b => readFrom b r'
          | _, _ => .refused
    | .long name (some value) =>
      match a.set? name value with
      | some b => readFrom b r
      | none => .refused

/-- What a command line asks for. -/
def read (words : List String) : Outcome :=
  readFrom {} words

end Arguments

end ExperimentKpi

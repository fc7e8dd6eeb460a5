/-
# Failures

Everything that can keep an operation of this library from its result, as one type of causes. A
cause has a kind, which fixes the status of a response, and a wording. What went wrong inside the
database is never told to a client: that kind has one generic public message.

Key definitions: `ErrorKind`, `Failure`, `Failure.kind`, `Failure.messages`, `ErrorKind.status`,
`ErrorKind.publicMessage`.
-/
import ExperimentKpi.Template.Error

namespace ExperimentKpi

/-- The kinds of failures that a client can tell apart. -/
inductive ErrorKind where
  | validation
  | multipleValidation
  | unsupportedFormat
  | unauthorized
  | notFound
  | forbidden
  | invalidData
  | internal
  | database
deriving DecidableEq, Repr

namespace ErrorKind

/-- The status of a response for a kind of failure. -/
def status : ErrorKind → Nat
  | validation => 400
  | multipleValidation => 400
  | unsupportedFormat => 400
  | unauthorized => 401
  | notFound => 404
  | forbidden => 409
  | invalidData => 500
  | internal => 500
  | database => 500

/-- The message that a client sees. -/
def publicMessage (kind : ErrorKind) (messages : List String) : String :=
  match kind with
  | database => "Unexpected error happened, please contact system admin."
  | _ => String.intercalate "; " messages

end ErrorKind

/-- Why a template gave no text. -/
inductive TemplateError where
  | parse (e : Template.ParseError)
  | render (e : Template.RenderError)
deriving DecidableEq, Repr

/-- The wording of a template's failure. -/
def TemplateError.message : TemplateError → String
  | parse e => e.message
  | render e => e.message

/-- A cause of failure. -/
inductive Failure where
  /-- The id in a path is no integer of 64 bits. -/
  | badId (raw : String)
  /-- The body is no JSON document. -/
  | malformedBody
  /-- The body is null or empty. -/
  | emptyBody
  /-- The settings break the schema, once per message. -/
  | schema (messages : List String)
  /-- The settings fit the schema and are still no consistent settings. -/
  | wrongFormat
  /-- A custom query is no text. -/
  | queryNotText
  /-- A path names no kind of query. -/
  | unsupportedQuery (format : String)
  /-- A request has no credentials. -/
  | missingAuthorization
  /-- The credentials are not of the one accepted form. -/
  | badAuthorization
  /-- The token does not verify. -/
  | badToken
  /-- The token names no live user. -/
  | unknownUser
  /-- The user may not do this. -/
  | denied (username action resource : String)
  /-- There is no such live experiment. -/
  | noExperiment (experiment : Int)
  /-- There is no such live project. -/
  | noProject (project : Int)
  /-- The project belongs to no organization. -/
  | projectWithoutOrganization (project : Int)
  /-- The project's organization has no settings. -/
  | noOrganizationSettings (organization project : Int)
  /-- The experiment has no KPI. -/
  | noKpi (experiment : Int)
  /-- The experiment has a KPI already. -/
  | kpiExists (experiment : Int)
  /-- Variations of an experiment nest too deep. -/
  | nestedTooDeep (experiment : Int) (limit : Nat)
  /-- A variation is nested in itself. -/
  | nestedInItself (variation experiment : Int)
  /-- A condition nests a variation that does not exist. -/
  | missingNested (condition variation : Int)
  /-- No condition has this name. -/
  | unknownPattern (name : String)
  /-- Several conditions have this name. -/
  | ambiguousPattern (name : String) (conditions : List Int)
  /-- A condition belongs to a variation that does not exist. -/
  | strayCondition (condition variation : Int)
  /-- An r2d2 condition stands beside others or in a click-through conversion. -/
  | mixedR2d2 (definition : String)
  /-- A template of the organization fails. -/
  | template (e : TemplateError)
  /-- A stored document is no JSON. -/
  | malformedDocument
  /-- The database cannot be read or written. -/
  | database
deriving DecidableEq, Repr

namespace Failure

/-- The kind of a cause. -/
def kind : Failure → ErrorKind
  | badId .. | malformedBody | emptyBody | wrongFormat | queryNotText | ambiguousPattern .. =>
    .validation
  | schema .. => .multipleValidation
  | unsupportedQuery .. => .unsupportedFormat
  | missingAuthorization | badAuthorization | badToken | unknownUser => .unauthorized
  | noExperiment .. | noProject .. | projectWithoutOrganization .. | noOrganizationSettings ..
  | noKpi .. | unknownPattern .. => .notFound
  | denied .. | kpiExists .. | mixedR2d2 .. => .forbidden
  | nestedTooDeep .. | nestedInItself .. | missingNested .. | strayCondition .. | template ..
  | malformedDocument => .invalidData
  | database => .database

/-- The messages of a cause; all but broken schemas have one. What a JSON reader has to say about a
malformed text is left out. -/
def messages : Failure → List String
  | badId raw => [s!"{raw} is invalid format, ID is always an integer."]
  | malformedBody => ["Malformed JSON body:"]
  | emptyBody => ["JSON body may not be empty."]
  | schema messages => messages
  | wrongFormat => ["Wrong KPI Setting Format sent."]
  | queryNotText => ["Query text must be valid UTF-8."]
  | unsupportedQuery format => [s!"The format {format} is not supported."]
  | missingAuthorization => ["Missing authorization header"]
  | badAuthorization => ["Invalid authorization header format"]
  | badToken => ["Invalid or expired token"]
  | unknownUser => ["User does not exist"]
  | denied username action resource =>
    [s!"User {username} does not have permission {action} on {resource}."]
  | noExperiment experiment => [s!"The experiment with given ID {experiment} does not exist."]
  | noProject project => [s!"The project with given ID {project} does not exist."]
  | projectWithoutOrganization project =>
    [s!"Organization settings for project ID {project} do not exist, the project has no organization."]
  | noOrganizationSettings organization project =>
    [s!"Organization settings for organization ID {organization} of project ID {project} do not exist."]
  | noKpi experiment => [s!"KPI for the experiment ID {experiment} does not exist"]
  | kpiExists experiment =>
    [s!"The kpi for experiment with experiment ID {experiment} already exists"]
  | nestedTooDeep experiment limit =>
    [s!"Variation tree of experiment {experiment} is nested deeper than {limit} levels"]
  | nestedInItself variation experiment =>
    [s!"Variation {variation} of experiment {experiment} is nested inside itself"]
  | missingNested condition variation =>
    [s!"Condition {condition} points to missing variation {variation}"]
  | unknownPattern name => [s!"Condition with pattern name {name} does not exist"]
  | ambiguousPattern name conditions =>
    let ids := String.intercalate ", " (conditions.map toString)
    [s!"Pattern name {name} is ambiguous, it matches conditions {ids}"]
  | strayCondition condition variation =>
    [s!"Condition {condition} belongs to missing variation {variation}"]
  | mixedR2d2 definition =>
    [s!"KPI definition {definition} uses an r2d2 condition, which must be its only condition and cannot be a clickThroughConversion"]
  | template e => [s!"Query template error: {e.message}"]
  | malformedDocument => ["Malformed JSON document:"]
  | database => ["Database error"]

/-- The message of a cause that a client sees. -/
def publicMessage (f : Failure) : String :=
  f.kind.publicMessage f.messages

/-- The status of the response to a cause. -/
def status (f : Failure) : Nat :=
  f.kind.status

end Failure

end ExperimentKpi

/-
# The life of a KPI

The operations on the KPIs of experiments: created once per experiment, replaced, deleted without a
trace being lost, shown, given custom queries, and compiled anew. Each operation reads what it needs
and then either shows something or gives one command.

Key definitions: `Answer`, `Decision`, `loadContext`, `canonical`, `createKpi`, `updateKpi`,
`showKpi`, `deleteKpi`, `customizeQuery`, `regenerateReaction`, `listKpis`.
-/
import ExperimentKpi.Service.Inquiry
import ExperimentKpi.Settings.PatternId
import ExperimentKpi.Settings.Validate
import ExperimentKpi.Store.Command

namespace ExperimentKpi

/-- A KPI as it is shown. -/
structure KpiDetail where
  basedOn : Json
  definitions : Json
  experiment : Int
  kpi : Int
  reaction : Option String
  report : Option String
  reactionIsCustom : Bool
  reportIsCustom : Bool

/-- What a successful operation answers. -/
inductive Answer where
  | created (kpi : Int)
  | updated (experiment kpi : Int)
  | deleted (kpi : Int)
  | detail (d : KpiDetail)
  | customized (kind : QueryKind)
  | page (p : Pagination) (entries : List KpiSummary)

/-- What an operation comes to once it has read the store. -/
inductive Decision where
  | show (a : Answer)
  | write (c : Command)

/-- The answer to a command, given the KPI that it was about. -/
def Command.answer (c : Command) (kpi : Int) : Answer :=
  match c with
  | create .. => .created kpi
  | replace _ experiment _ _ _ => .updated experiment kpi
  | remove .. => .deleted kpi
  | customize _ _ kind _ => .customized kind
  | regenerate _ experiment _ => .updated experiment kpi

/-- An operation on KPIs. -/
abbrev Operation := Inquiry Decision

/-- What the operations depend on besides the store. -/
structure Environment where
  grants : Grants
  warehouse : Warehouse

/-- Everything about an experiment that its queries depend on. -/
def loadContext (experiment : Int) : Inquiry ExperimentContext := do
  let e ← .query fun s => s.experiment experiment
  let p ← .query fun s => s.project e.project
  let organization ← .check <| match p.organization with
    | some id => .ok id
    | none => .error (.projectWithoutOrganization p.id)
  let settings ← .query fun s => s.settingsOf organization p.id
  let variations ← .query fun s => .ok (s.variationsOf experiment)
  let conditions ← .query fun s => .ok (s.conditionsOf experiment)
  let models ← .query fun s => .ok (s.modelsOf experiment)
  return ⟨e, p, settings, Design.ofRows variations conditions, models⟩

/-- The resource that permissions on KPIs are about. -/
def kpiResource : String := "kpi"

/-- A body with pattern ids as the text that is stored, and the settings that it spells. -/
def canonical (context : ExperimentContext) (body : Json) : Except Failure (String × Settings) :=
  match assignPatternIds context.design context.models body with
  | (_, .error e) => .error e
  | (document, .ok _) =>
    match Settings.ofJson? document with
    | some settings => .ok (document.compact, settings)
    | none => .error .wrongFormat

/-- The name of the KPI of an experiment. -/
def kpiName (project : Project) (experiment : Int) : String :=
  s!"{project.name}_{experiment}_kpi"

/-- Give an experiment its KPI. -/
def createKpi (env : Environment) (user : User) (experiment : Int) (body : Json) : Operation := do
  let context ← loadContext experiment
  let _ ← .check (Settings.validate body)
  match ← .query fun s => s.kpiOf experiment with
  | some _ => .check (.error (.kpiExists experiment))
  | none =>
    let (text, settings) ← .check (canonical context body)
    let queries ← .check (compileQueries context settings env.warehouse)
    return .write (.create experiment context.experiment.project (kpiName context.project experiment)
      user.id text queries)

/-- Replace the settings of an experiment's KPI; a deleted one comes back. -/
def updateKpi (env : Environment) (user : User) (experiment : Int) (body : Json) : Operation := do
  let context ← loadContext experiment
  .check (env.grants.require user context.project.organization kpiResource "edit")
  let _ ← .check (Settings.validate body)
  match ← .query fun s => s.kpiOf experiment with
  | none => .check (.error (.noKpi experiment))
  | some kpi =>
    let (text, settings) ← .check (canonical context body)
    let queries ← .check (compileQueries context settings env.warehouse)
    return .write (.replace kpi.id experiment user.id text queries)

/-- What is shown of a KPI: the parts of its settings as they are stored, and its queries. -/
def KpiRow.detail (k : KpiRow) : Except Failure KpiDetail :=
  match Json.parse? k.settings with
  | none => .error .malformedDocument
  | some settings =>
    .ok {
      basedOn := (settings.member? "based_on").getD .null
      definitions := (settings.member? "kpi_definitions").getD .null
      experiment := k.experiment
      kpi := k.id
      reaction := k.reaction
      report := k.report
      reactionIsCustom := k.reactionIsCustom
      reportIsCustom := k.reportIsCustom }

/-- Show the KPI of an experiment. -/
def showKpi (experiment : Int) : Operation := do
  let _ ← .query fun s => s.experiment experiment
  let kpi ← .query fun s => s.liveKpiOf experiment
  let detail ← .check kpi.detail
  return .show (.detail detail)

/-- Delete the KPI of an experiment. -/
def deleteKpi (user : User) (experiment : Int) : Operation := do
  let _ ← .query fun s => s.experiment experiment
  let kpi ← .query fun s => s.liveKpiOf experiment
  return .write (.remove kpi.id user.id)

/-- Put a custom query in the place of a compiled one. -/
def customizeQuery (env : Environment) (user : User) (experiment : Int) (kind : QueryKind)
    (query : String) : Operation := do
  let e ← .query fun s => s.experiment experiment
  let p ← .query fun s => s.project e.project
  .check (env.grants.require user p.organization kpiResource "editQuery")
  let kpi ← .query fun s => s.liveKpiOf experiment
  return .write (.customize kpi.id user.id kind query)

/-- Compile the reaction query anew from the stored settings. -/
def regenerateReaction (env : Environment) (experiment : Int) : Operation := do
  let context ← loadContext experiment
  let kpi ← .query fun s => s.liveKpiOf experiment
  let settings ← .check (Settings.revalidate kpi.settings)
  let reaction ← .check (compileReaction context settings env.warehouse)
  return .write (.regenerate kpi.id experiment reaction)

/-- The place of a project's list of KPIs. -/
def kpiListPath (project : Int) : String :=
  s!"/api/v1/projects/{project}/kpis"

/-- List the KPIs of a project page by page. -/
def listKpis (project : Int) (q : PageQuery) : Operation := do
  let _ ← .query fun s => s.project project
  let total ← .query fun s => .ok (s.kpiCount project)
  let entries ← .query fun s => s.kpiPage project q
  return .show (.page (Pagination.of (kpiListPath project) q.number q.size total) entries)

/-- What a decision does to the store. -/
def Decision.settle (s : Store) : Decision → Except Failure (Store × Answer)
  | .show a => .ok (s, a)
  | .write c => (c.apply s).map fun (s', kpi) => (s', c.answer kpi)

/-- The store and the result after an operation that nothing interrupts. A failure leaves the store
as it was. -/
def Operation.run (op : Operation) (s : Store) : Store × Except Failure Answer :=
  match Inquiry.run s op with
  | .error e => (s, .error e)
  | .ok decision =>
    match decision.settle s with
    | .error e => (s, .error e)
    | .ok (s', answer) => (s', .ok answer)

end ExperimentKpi

/-
# Routes

The paths that the service answers to, and which operation a method asks for there. Segments are kept
as they were sent: whether an id is one is found out later. A segment for an id may be empty, the last
segment of a path may not.

Key definitions: `Route`, `Route.ofSegments?`, `Endpoint`, `Route.endpoint?`.
-/
import ExperimentKpi.Api.Request

namespace ExperimentKpi

/-- A path of the service. -/
inductive Route where
  /-- Whether the service runs. -/
  | health
  /-- Whether the database answers. -/
  | readiness
  /-- The KPI of an experiment. -/
  | experimentKpi (experiment : List Char)
  /-- A query of an experiment's KPI. -/
  | kpiQuery (experiment kind : List Char)
  /-- The compiled reaction query of an experiment. -/
  | reactionQuery (experiment : List Char)
  /-- The KPIs of a project. -/
  | projectKpis (project : List Char)
deriving DecidableEq, Repr

/-- The route that the segments of a path make up. -/
def Route.ofSegments? (segments : List (List Char)) : Option Route :=
  match segments.map String.ofList, segments with
  | ["", "health"], _ => some health
  | ["", "ready"], _ => some readiness
  | ["", "api", "v2", "experiments", _, "kpis"], [_, _, _, _, experiment, _] =>
    some (experimentKpi experiment)
  | ["", "api", "v2", "experiments", _, "kpis", _], [_, _, _, _, experiment, _, kind] =>
    if kind.isEmpty then none else some (kpiQuery experiment kind)
  | ["", "api", "v2", "experiments", _, "reaction_query"], [_, _, _, _, experiment, _] =>
    some (reactionQuery experiment)
  | ["", "api", "v1", "projects", _, "kpis"], [_, _, _, _, project, _] =>
    some (projectKpis project)
  | _, _ => none

/-- The operations, with the segments of the path that they read. -/
inductive Endpoint where
  | create (experiment : List Char)
  | update (experiment : List Char)
  | view (experiment : List Char)
  | remove (experiment : List Char)
  | customize (experiment kind : List Char)
  | regenerate (experiment : List Char)
  | list (project : List Char)
deriving DecidableEq, Repr

/-- The operation that a method asks for at a route; a `HEAD` asks for what a `GET` does. -/
def Route.endpoint? (route : Route) (method : Method) : Option Endpoint :=
  match route, method with
  | experimentKpi e, .post => some (.create e)
  | experimentKpi e, .put => some (.update e)
  | experimentKpi e, .get => some (.view e)
  | experimentKpi e, .head => some (.view e)
  | experimentKpi e, .delete => some (.remove e)
  | kpiQuery e kind, .put => some (.customize e kind)
  | reactionQuery e, .post => some (.regenerate e)
  | projectKpis p, .get => some (.list p)
  | projectKpis p, .head => some (.list p)
  | _, _ => none

end ExperimentKpi

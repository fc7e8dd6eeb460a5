/-
# Compiling queries

The templates of the organization, rendered with the parameters of an experiment's settings, in a row
and sanitized as one text.

Key definitions: `renderTemplate`, `compileReaction`, `compileReport`, `compileQueries`.
-/
import ExperimentKpi.Query.Parameters
import ExperimentKpi.Query.Sanitize
import ExperimentKpi.Template.Render

namespace ExperimentKpi

/-- The text of a template for a context. -/
def renderTemplate (source : String) (context : Json) : Except TemplateError String :=
  match Template.parse source with
  | .error e => .error (.parse e)
  | .ok t => (t.render context).mapError .render

/-- The context in which templates see their parameters. -/
def templateContext (parameters : Json) : Json :=
  .obj [("params", parameters)]

/-- The text of one fragment. -/
def renderPart (source : String) (parameters : Json) : Except Failure (List Char) :=
  match renderTemplate source (templateContext parameters) with
  | .ok text => .ok text.toList
  | .error e => .error (.template e)

/-- The text of fragments in a row. -/
def renderFragments (organization : OrganizationSettings) (fragments : List ReactionFragment) :
    Except Failure (List Char) :=
  collect (fun f => renderPart (f.template.source organization) f.parameters.toJson) fragments

/-- The reaction query of settings. -/
def compileReaction (context : ExperimentContext) (settings : Settings) (warehouse : Warehouse) :
    Except Failure String := do
  let fragments ← reactionFragments context settings warehouse
  let text ← renderFragments context.organization fragments
  return String.ofList (Query.sanitize text)

/-- The report query of settings. -/
def compileReport (context : ExperimentContext) (settings : Settings) (warehouse : Warehouse) :
    Except Failure String := do
  let parameters ← reportParameters context settings warehouse
  let text ← renderPart context.organization.report parameters.toJson
  return String.ofList (Query.sanitize text)

/-- The two queries of a KPI. -/
structure Queries where
  reaction : String
  report : String
deriving DecidableEq, Repr

/-- Both queries; of two failures the reaction query's counts. -/
def compileQueries (context : ExperimentContext) (settings : Settings) (warehouse : Warehouse) :
    Except Failure Queries := do
  let reaction ← compileReaction context settings warehouse
  let report ← compileReport context settings warehouse
  return ⟨reaction, report⟩

end ExperimentKpi

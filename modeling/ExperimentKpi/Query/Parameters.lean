/-
# Query parameters

What the templates are rendered with. The reaction query has one fragment per definition, each with
the template that the definition's conditions call for; a definition with an r2d2 condition must have
no other and be no click-through conversion. The report query has one set of parameters.

Key definitions: `ReactionTemplate`, `ConditionSet`, `clickThroughSets`, `ReactionParameters`,
`ReactionFragment`, `ReportParameters`, `reactionFragments`, `reportParameters`.
-/
import ExperimentKpi.Experiment.Basic
import ExperimentKpi.Settings.Basic

namespace ExperimentKpi

/-- The templates for fragments of the reaction query. -/
inductive ReactionTemplate where
  | general
  | r2d2
  | clickThrough
deriving DecidableEq, Repr

namespace ReactionTemplate

/-- The text of a template of an organization. -/
def source (s : OrganizationSettings) : ReactionTemplate → String
  | general => s.reaction
  | r2d2 => s.reactionR2d2
  | clickThrough => s.reactionClickThrough

/-- The name of a template. -/
def label : ReactionTemplate → String
  | general => "reaction"
  | r2d2 => "reaction_r2d2"
  | clickThrough => "reaction_ctc"

end ReactionTemplate

/-- A named set of condition groups of a click-through conversion. -/
structure ConditionSet where
  kpi : String
  conditions : List ConditionGroup

/-- A set as templates see it. -/
def ConditionSet.toJson (s : ConditionSet) : Json :=
  .obj [("kpi", .str s.kpi), ("conditions", .arr (s.conditions.map ConditionGroup.toJson))]

/-- One set per click, in order, and then one with all conversions. -/
def clickThroughSets (groups : List ConditionGroup) : List ConditionSet :=
  let clicks := groups.filter fun g => !g.type.isConversion
  let conversions := groups.filter fun g => g.type.isConversion
  clicks.zipIdx.map (fun (g, i) => ⟨s!"click_{i}", [g]⟩) ++ [⟨"conversion", conversions⟩]

/-- The conditions of a definition as its template takes them. -/
inductive FragmentConditions where
  | plain (groups : List ConditionGroup)
  | sets (sets : List ConditionSet)

/-- Conditions as templates see them. -/
def FragmentConditions.toJson : FragmentConditions → Json
  | .plain groups => .arr (groups.map ConditionGroup.toJson)
  | .sets groups => .arr (groups.map ConditionSet.toJson)

/-- The parameters of a fragment of the reaction query. -/
structure ReactionParameters where
  database : String
  table : String
  kpi : String
  conditions : FragmentConditions
  experiment : Int
  patterns : List String
  start : String
  finish : String
  isFirst : Bool

/-- A fragment of the reaction query: a template and its parameters. -/
structure ReactionFragment where
  template : ReactionTemplate
  parameters : ReactionParameters

/-- The parameters of the report query. -/
structure ReportParameters where
  database : String
  table : String
  kpis : List String
  experiment : Int
  patterns : List String
  count : Nat

/-- Parameters as templates see them. -/
def ReactionParameters.toJson (p : ReactionParameters) : Json :=
  .obj [("ghp_hive_dbname", .str p.database), ("reaction_table", .str p.table),
    ("kpi_name", .str p.kpi), ("kpi_conditions", p.conditions.toJson),
    ("experiment_id", .int p.experiment), ("phxbanditpatterns", .texts p.patterns),
    ("start_datetime", .str p.start), ("end_datetime", .str p.finish),
    ("settings", .bool p.isFirst)]

/-- Parameters as templates see them. -/
def ReportParameters.toJson (p : ReportParameters) : Json :=
  .obj [("ghp_hive_dbname", .str p.database), ("report_table", .str p.table),
    ("kpi_names", .texts p.kpis), ("experiment_id", .int p.experiment),
    ("phxbanditpatterns", .texts p.patterns), ("kpi_count", .int p.count)]

/-- The template that a definition calls for. -/
def Definition.template (d : Definition) : Except Failure ReactionTemplate :=
  if d.hasR2d2 then
    if d.conditions.length > 1 ∨ d.isClickThroughConversion then .error (.mixedR2d2 d.name)
    else .ok .r2d2
  else if d.isClickThroughConversion then .ok .clickThrough
  else .ok .general

/-- The fragment of one definition. -/
def reactionFragment (context : ExperimentContext) (warehouse : Warehouse)
    (patterns : List String) (isFirst : Bool) (d : Definition) : Except Failure ReactionFragment :=
  d.template.map fun template =>
    { template
      parameters :=
        { database := warehouse.databaseFor context.organization
          table := warehouse.reactionTable
          kpi := d.name
          conditions := match template with
            | .clickThrough => .sets (clickThroughSets d.conditions)
            | _ => .plain d.conditions
          experiment := context.experiment.id
          patterns
          start := context.experiment.start.text
          finish := context.experiment.finish.text
          isFirst } }

/-- The fragments of definitions, the first of them marked if `isFirst`. -/
def fragmentsOf (context : ExperimentContext) (warehouse : Warehouse) (patterns : List String) :
    Bool → List Definition → Except Failure (List ReactionFragment)
  | _, [] => .ok []
  | isFirst, d :: r => do
    let fragment ← reactionFragment context warehouse patterns isFirst d
    let fragments ← fragmentsOf context warehouse patterns false r
    return fragment :: fragments

/-- The fragments of the reaction query. -/
def reactionFragments (context : ExperimentContext) (settings : Settings) (warehouse : Warehouse) :
    Except Failure (List ReactionFragment) := do
  let patterns ← context.design.identifiers
  fragmentsOf context warehouse patterns true settings.definitions

/-- The parameters of the report query. -/
def reportParameters (context : ExperimentContext) (settings : Settings) (warehouse : Warehouse) :
    Except Failure ReportParameters := do
  let patterns ← context.design.identifiers
  return {
    database := warehouse.databaseFor context.organization
    table := warehouse.reportTable
    kpis := settings.names
    experiment := context.experiment.id
    patterns
    count := settings.definitions.length }

end ExperimentKpi

/-
# Experiments

What a query depends on besides the settings: the experiment, its project, the templates of the
organization, the variation design and the models that run.

Key definitions: `Experiment`, `Project`, `OrganizationSettings`, `Warehouse`,
`ExperimentContext`.
-/
import ExperimentKpi.DateTime
import ExperimentKpi.Design.Pattern

namespace ExperimentKpi

/-- An experiment. -/
structure Experiment where
  id : Int
  project : Int
  name : String
  deviceType : String
  start : DateTime
  finish : DateTime
  kpi : Option Int
  deleted : Bool
deriving DecidableEq, Repr

/-- A project. -/
structure Project where
  id : Int
  organization : Option Int
  name : String
  deleted : Bool
deriving DecidableEq, Repr

/-- The query templates of an organization. -/
structure OrganizationSettings where
  organization : Int
  templateType : String
  reaction : String
  reactionR2d2 : String
  reactionClickThrough : String
  report : String
deriving DecidableEq, Repr

/-- Whether the organization uses the first of the warehouse's databases. -/
def OrganizationSettings.isRegular (s : OrganizationSettings) : Bool :=
  s.templateType == "REGULAR"

/-- The names of the warehouse that go into queries. -/
structure Warehouse where
  database : String := "regpitari_reports"
  secondaryDatabase : String := "secpitari_reports"
  reactionTable : String := "reaction_table"
  reportTable : String := "report_table"
deriving DecidableEq, Repr

/-- The database that an organization's queries use. -/
def Warehouse.databaseFor (w : Warehouse) (s : OrganizationSettings) : String :=
  if s.isRegular then w.database else w.secondaryDatabase

/-- Everything about one experiment that its queries depend on. -/
structure ExperimentContext where
  experiment : Experiment
  project : Project
  organization : OrganizationSettings
  design : Design
  models : List String
deriving DecidableEq, Repr

end ExperimentKpi

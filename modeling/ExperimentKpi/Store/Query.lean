/-
# Queries on the store

What the service reads, one definition for each read. A row whose times cannot be read fails the whole
read.

Key definitions: `Store.experiment`, `Store.project`, `Store.settingsOf`, `Store.variationsOf`,
`Store.conditionsOf`, `Store.modelsOf`, `Store.kpiOf`, `Store.liveKpiOf`, `Store.user`,
`Store.kpiCount`, `Store.kpiPage`.
-/
import ExperimentKpi.Failure
import ExperimentKpi.Paging
import ExperimentKpi.Store.Basic

namespace ExperimentKpi

/-- An experiment row with its times read. -/
def ExperimentRow.read (r : ExperimentRow) : Except Failure Experiment :=
  match DateTime.ofStored? r.start, DateTime.ofStored? r.finish with
  | some start, some finish =>
    .ok ⟨r.id, r.project, r.name, r.deviceType, start, finish, r.kpi, r.deleted⟩
  | _, _ => .error .database

/-- One entry of a list of KPIs. -/
structure KpiSummary where
  kpi : Int
  name : String
  updatedBy : Option Int
  outdated : Bool
deriving DecidableEq, Repr

namespace Store

/-- The live experiment with an id. -/
def experiment (s : Store) (id : Int) : Except Failure Experiment :=
  match s.experiments.find? fun r => r.id == id && !r.deleted with
  | some r => r.read
  | none => .error (.noExperiment id)

/-- The live project with an id. -/
def project (s : Store) (id : Int) : Except Failure Project :=
  match s.projects.find? fun p => p.id == id && !p.deleted with
  | some p => .ok p
  | none => .error (.noProject id)

/-- The settings of an organization, read for one of its projects. -/
def settingsOf (s : Store) (organization project : Int) : Except Failure OrganizationSettings :=
  match s.organizationSettings.find? fun r => r.settings.organization == organization with
  | some r => .ok r.settings
  | none => .error (.noOrganizationSettings organization project)

/-- The variations of an experiment. -/
def variationsOf (s : Store) (experiment : Int) : List Variation :=
  s.variations.filter fun v => v.experiment == experiment

/-- The conditions of the variations of an experiment. -/
def conditionsOf (s : Store) (experiment : Int) : List Condition :=
  s.conditions.filter fun c =>
    s.variations.any fun v => v.id == c.variation && v.experiment == experiment

/-- The names of the live models of an experiment, in the order of their ids. -/
def modelsOf (s : Store) (experiment : Int) : List String :=
  let live := s.models.filter fun m => m.experiment == experiment && !m.deleted
  (live.mergeSort fun m n => decide (m.id ≤ n.id)).map (·.name)

/-- The KPI of an experiment, deleted or not. -/
def kpiOf (s : Store) (experiment : Int) : Except Failure (Option KpiRow) :=
  match s.kpis.find? fun k => k.experiment == experiment with
  | none => .ok none
  | some k =>
    if k.createTime.isReadable ∧ k.updateTime.isReadable then .ok (some k) else .error .database

/-- The KPI of an experiment, unless it is deleted. -/
def liveKpiOf (s : Store) (experiment : Int) : Except Failure KpiRow :=
  match s.kpiOf experiment with
  | .error e => .error e
  | .ok none => .error (.noKpi experiment)
  | .ok (some k) => if k.deleted then .error (.noKpi experiment) else .ok k

/-- The live user with an id. -/
def user (s : Store) (id : Int) : Except Failure User :=
  match s.users.find? fun u => u.id == id && !u.deleted with
  | some u => .ok ⟨u.id, u.username, u.isAdmin⟩
  | none => .error .unknownUser

/-- The live KPIs of a project, in the order of their ids. -/
def liveKpisOf (s : Store) (project : Int) : List KpiRow :=
  (s.kpis.filter fun k => k.project == project && !k.deleted).mergeSort fun k l =>
    decide (k.id ≤ l.id)

/-- The number of live KPIs of a project. -/
def kpiCount (s : Store) (project : Int) : Nat :=
  s.kpis.countP fun k => k.project == project && !k.deleted

/-- A page of the live KPIs of a project. -/
def kpiPage (s : Store) (project : Int) (q : PageQuery) : Except Failure (List KpiSummary) :=
  let rows := ((s.liveKpisOf project).drop q.offset.toNat).take q.size.toNat
  if rows.all fun k => k.updateTime.isReadable then
    .ok (rows.map fun k => ⟨k.id, k.name, k.updatedBy, k.deleted⟩)
  else .error .database

end Store

end ExperimentKpi

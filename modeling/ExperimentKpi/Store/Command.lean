/-
# Commands on the store

The five ways in which requests change the store, each one atomic: it happens as a whole or, where the
experiment already has a KPI, not at all.

Key definitions: `Command`, `KpiRow.replaced`, `KpiRow.removed`, `KpiRow.customized`,
`KpiRow.regenerated`, `Command.apply`.
-/
import ExperimentKpi.Query.Compile
import ExperimentKpi.Query.Kind
import ExperimentKpi.Store.Basic

namespace ExperimentKpi

/-- A change of the store. -/
inductive Command where
  /-- A KPI for an experiment that has none. -/
  | create (experiment project : Int) (name : String) (user : Int) (settings : String)
      (queries : Queries)
  /-- New settings and queries for a KPI; it is live again, and custom queries are gone. -/
  | replace (kpi experiment user : Int) (settings : String) (queries : Queries)
  /-- A KPI deleted; its row stays. -/
  | remove (kpi user : Int)
  /-- A custom query in the place of a compiled one. -/
  | customize (kpi user : Int) (kind : QueryKind) (query : String)
  /-- A newly compiled reaction query. -/
  | regenerate (kpi experiment : Int) (reaction : String)
deriving DecidableEq, Repr

namespace KpiRow

/-- The row with new settings and queries. -/
def replaced (k : KpiRow) (user : Int) (settings : String) (queries : Queries) : KpiRow :=
  { k with
    settings
    reaction := some queries.reaction
    report := some queries.report
    reactionIsCustom := false
    reportIsCustom := false
    deleted := false
    updatedBy := some user
    updateTime := .clock }

/-- The row of a deleted KPI. -/
def removed (k : KpiRow) (user : Int) : KpiRow :=
  { k with deleted := true, updatedBy := some user, updateTime := .clock }

/-- The row with a custom query. -/
def customized (k : KpiRow) (user : Int) (kind : QueryKind) (query : String) : KpiRow :=
  match kind with
  | .reaction =>
    { k with
      reaction := some query, reactionIsCustom := true, updatedBy := some user
      updateTime := .clock }
  | .report =>
    { k with
      report := some query, reportIsCustom := true, updatedBy := some user
      updateTime := .clock }

/-- The row with a newly compiled reaction query; whether the query counts as a custom one stays. -/
def regenerated (k : KpiRow) (reaction : String) : KpiRow :=
  { k with reaction := some reaction, updateTime := .clock }

end KpiRow

namespace Store

/-- The store with the row of one KPI changed. -/
def changeKpi (s : Store) (id : Int) (f : KpiRow → KpiRow) : Store :=
  { s with kpis := s.kpis.map fun k => if k.id = id then f k else k }

/-- The store with an experiment linked to its KPI. -/
def linkKpi (s : Store) (experiment kpi : Int) : Store :=
  { s with
    experiments := s.experiments.map fun e =>
      if e.id = experiment then { e with kpi := some kpi } else e }

end Store

/-- The store after a command, and the id of the KPI that it was about. -/
def Command.apply (c : Command) (s : Store) : Except Failure (Store × Int) :=
  match c with
  | create experiment project name user settings queries =>
    if s.kpis.any fun k => k.experiment == experiment then .error (.kpiExists experiment)
    else
      let id := nextId (s.kpis.map (·.id))
      let row : KpiRow :=
        { id, project, experiment, name
          createdBy := some user
          updatedBy := some user
          createTime := .clock
          updateTime := .clock
          deleted := false
          settings
          reaction := some queries.reaction
          reactionIsCustom := false
          report := some queries.report
          reportIsCustom := false }
      .ok ({ s with kpis := s.kpis ++ [row] }.linkKpi experiment id, id)
  | replace kpi experiment user settings queries =>
    .ok ((s.changeKpi kpi fun k => k.replaced user settings queries).linkKpi experiment kpi, kpi)
  | remove kpi user => .ok (s.changeKpi kpi fun k => k.removed user, kpi)
  | customize kpi user kind query =>
    .ok (s.changeKpi kpi fun k => k.customized user kind query, kpi)
  | regenerate kpi _ reaction => .ok (s.changeKpi kpi fun k => k.regenerated reaction, kpi)

end ExperimentKpi

/-
# What operations on KPIs can do

An operation that reads one store throughout either shows something or ends in one command. `Effect`
lists the commands, one case for each operation that writes, with everything that the operation found
out before: the context it loaded, the row it found, the checks that passed. What commands do to the
store is then a matter of cases on `Effect`, and no operation needs to be opened again. The operations
on the KPI of one experiment are those of an action (`KpiAction`).

Key definitions: `Effect`, `KpiAction`, `KpiAction.operation`.
Key theorems: `loadContext_run_iff`, `Effect.of_createKpi`, `Effect.of_updateKpi`,
`Effect.of_deleteKpi`, `Effect.of_customizeQuery`, `Effect.of_regenerateReaction`,
`showKpi_run_ne_write`, `listKpis_run_ne_write`, `Effect.of_action`.
-/
import ExperimentKpi.Proofs.Sequence
import ExperimentKpi.Service.Kpi

namespace ExperimentKpi

/-- The context of an experiment, read from one store. -/
theorem loadContext_run_iff {s : Store} {experiment : Int} {context : ExperimentContext} :
    (loadContext experiment).run s = .ok context ↔
      s.experiment experiment = .ok context.experiment ∧
      s.project context.experiment.project = .ok context.project ∧
      (∃ organization, context.project.organization = some organization ∧
        s.settingsOf organization context.project.id = .ok context.organization) ∧
      context.design = Design.ofRows (s.variationsOf experiment) (s.conditionsOf experiment) ∧
      context.models = s.modelsOf experiment := by
  obtain ⟨e, p, organization, design, models⟩ := context
  simp only [loadContext, Inquiry.run_bind, Inquiry.run_query, Inquiry.run_check, Inquiry.run_pure,
    bind_ok_iff, Except.ok.injEq, exists_eq_left', ExperimentContext.mk.injEq]
  constructor
  · rintro ⟨e', he, p', hp, id, hid, o, ho, rfl, rfl, rfl, rfl, rfl⟩
    refine ⟨he, hp, ⟨id, ?_, ho⟩, rfl, rfl⟩
    cases hq : p'.organization with
    | none => simp [hq] at hid
    | some n => simpa [hq] using hid
  · rintro ⟨he, hp, ⟨id, hid, ho⟩, rfl, rfl⟩
    exact ⟨e, he, p, hp, id, by rw [hid], organization, ho, rfl, rfl, rfl, rfl, rfl⟩

/-- A command with which an operation on the KPI of `experiment` ends, together with what the
operation found in the store. `body` is the document that comes with the request. -/
inductive Effect (env : Environment) (s : Store) (user : User) (experiment : Int)
    (body : Except Failure Json) : Command → Prop where
  | create {document : Json} {context : ExperimentContext} {accepted : Settings} {text : String}
      {settings : Settings} {queries : Queries}
      (given : body = .ok document)
      (loaded : (loadContext experiment).run s = .ok context)
      (valid : Settings.validate document = .ok accepted)
      (absent : s.kpiOf experiment = .ok none)
      (canonical : canonical context document = .ok (text, settings))
      (compiled : compileQueries context settings env.warehouse = .ok queries) :
      Effect env s user experiment body
        (.create experiment context.experiment.project (kpiName context.project experiment) user.id
          text queries)
  | replace {document : Json} {context : ExperimentContext} {accepted : Settings} {text : String}
      {settings : Settings} {queries : Queries} {kpi : KpiRow}
      (given : body = .ok document)
      (loaded : (loadContext experiment).run s = .ok context)
      (granted : env.grants.require user context.project.organization kpiResource "edit" = .ok ())
      (valid : Settings.validate document = .ok accepted)
      (found : s.kpiOf experiment = .ok (some kpi))
      (canonical : canonical context document = .ok (text, settings))
      (compiled : compileQueries context settings env.warehouse = .ok queries) :
      Effect env s user experiment body (.replace kpi.id experiment user.id text queries)
  | remove {e : Experiment} {kpi : KpiRow}
      (live : s.experiment experiment = .ok e)
      (found : s.liveKpiOf experiment = .ok kpi) :
      Effect env s user experiment body (.remove kpi.id user.id)
  | customize {e : Experiment} {p : Project} {kpi : KpiRow} {kind : QueryKind} {query : String}
      (live : s.experiment experiment = .ok e)
      (project : s.project e.project = .ok p)
      (granted : env.grants.require user p.organization kpiResource "editQuery" = .ok ())
      (found : s.liveKpiOf experiment = .ok kpi) :
      Effect env s user experiment body (.customize kpi.id user.id kind query)
  | regenerate {context : ExperimentContext} {kpi : KpiRow} {settings : Settings}
      {reaction : String}
      (loaded : (loadContext experiment).run s = .ok context)
      (found : s.liveKpiOf experiment = .ok kpi)
      (valid : Settings.revalidate kpi.settings = .ok settings)
      (compiled : compileReaction context settings env.warehouse = .ok reaction) :
      Effect env s user experiment body (.regenerate kpi.id experiment reaction)

section

variable {env : Environment} {s : Store} {user : User} {experiment : Int} {document : Json}
  {body : Except Failure Json} {c : Command}

theorem Effect.of_createKpi
    (h : Inquiry.run s (createKpi env user experiment document) = .ok (.write c)) :
    Effect env s user experiment (.ok document) c := by
  simp only [createKpi, Inquiry.run_bind, Inquiry.run_query, Inquiry.run_check, bind_ok_iff] at h
  obtain ⟨context, hload, accepted, hvalid, found, hfound, h⟩ := h
  cases found with
  | some kpi => simp at h
  | none =>
    simp only [Inquiry.run_bind, Inquiry.run_check, Inquiry.run_pure, bind_ok_iff] at h
    obtain ⟨⟨text, settings⟩, hcanonical, queries, hcompiled, h⟩ := h
    cases h
    exact .create rfl hload hvalid hfound hcanonical hcompiled

theorem Effect.of_updateKpi
    (h : Inquiry.run s (updateKpi env user experiment document) = .ok (.write c)) :
    Effect env s user experiment (.ok document) c := by
  simp only [updateKpi, Inquiry.run_bind, Inquiry.run_query, Inquiry.run_check, bind_ok_iff] at h
  obtain ⟨context, hload, ⟨⟩, hgranted, accepted, hvalid, found, hfound, h⟩ := h
  cases found with
  | none => simp at h
  | some kpi =>
    simp only [Inquiry.run_bind, Inquiry.run_check, Inquiry.run_pure, bind_ok_iff] at h
    obtain ⟨⟨text, settings⟩, hcanonical, queries, hcompiled, h⟩ := h
    cases h
    exact .replace rfl hload hgranted hvalid hfound hcanonical hcompiled

theorem Effect.of_deleteKpi (h : Inquiry.run s (deleteKpi user experiment) = .ok (.write c)) :
    Effect env s user experiment body c := by
  simp only [deleteKpi, Inquiry.run_bind, Inquiry.run_query, Inquiry.run_pure, bind_ok_iff] at h
  obtain ⟨e, he, kpi, hkpi, h⟩ := h
  cases h
  exact .remove he hkpi

theorem Effect.of_customizeQuery {kind : QueryKind} {query : String}
    (h : Inquiry.run s (customizeQuery env user experiment kind query) = .ok (.write c)) :
    Effect env s user experiment body c := by
  simp only [customizeQuery, Inquiry.run_bind, Inquiry.run_query, Inquiry.run_check,
    Inquiry.run_pure, bind_ok_iff] at h
  obtain ⟨e, he, p, hp, ⟨⟩, hgranted, kpi, hkpi, h⟩ := h
  cases h
  exact .customize he hp hgranted hkpi

theorem Effect.of_regenerateReaction
    (h : Inquiry.run s (regenerateReaction env experiment) = .ok (.write c)) :
    Effect env s user experiment body c := by
  simp only [regenerateReaction, Inquiry.run_bind, Inquiry.run_query, Inquiry.run_check,
    Inquiry.run_pure, bind_ok_iff] at h
  obtain ⟨context, hload, kpi, hkpi, settings, hvalid, reaction, hcompiled, h⟩ := h
  cases h
  exact .regenerate hload hkpi hvalid hcompiled

/-- Showing a KPI writes nothing. -/
theorem showKpi_run_ne_write : Inquiry.run s (showKpi experiment) ≠ .ok (.write c) := by
  intro h
  simp only [showKpi, Inquiry.run_bind, Inquiry.run_query, Inquiry.run_check, Inquiry.run_pure,
    bind_ok_iff] at h
  obtain ⟨_, _, _, _, _, _, h⟩ := h
  cases h

/-- Listing KPIs writes nothing. -/
theorem listKpis_run_ne_write {project : Int} {q : PageQuery} :
    Inquiry.run s (listKpis project q) ≠ .ok (.write c) := by
  intro h
  simp only [listKpis, Inquiry.run_bind, Inquiry.run_query, Inquiry.run_pure, bind_ok_iff] at h
  obtain ⟨_, _, _, _, _, _, h⟩ := h
  cases h

end

/-- An operation that fails changes nothing. -/
theorem Operation.eq_of_run_error {op : Operation} {s s' : Store} {failure : Failure}
    (h : op.run s = (s', .error failure)) : s' = s := by
  unfold Operation.run at h
  split at h
  · exact (congrArg Prod.fst h).symm
  · split at h
    · exact (congrArg Prod.fst h).symm
    · cases h

/-! ### Actions -/

/-- What requests ask for on the KPI of an experiment. -/
inductive KpiAction where
  | create (document : Json)
  | update (document : Json)
  | view
  | remove
  | customize (kind : QueryKind) (query : String)
  | regenerate

/-- The document that is sent with an action. -/
def KpiAction.document? : KpiAction → Option Json
  | create document | update document => some document
  | view | remove | customize .. | regenerate => none

/-- The operation that does an action. -/
def KpiAction.operation (env : Environment) (user : User) (experiment : Int) :
    KpiAction → Operation
  | create document => createKpi env user experiment document
  | update document => updateKpi env user experiment document
  | view => showKpi experiment
  | remove => deleteKpi user experiment
  | customize kind query => customizeQuery env user experiment kind query
  | regenerate => regenerateReaction env experiment

/-- An action that writes has the effect of a command. -/
theorem Effect.of_action {env : Environment} {s : Store} {user : User} {experiment : Int}
    {body : Except Failure Json} {c : Command} {action : KpiAction}
    (hbody : ∀ document, action.document? = some document → body = .ok document)
    (h : Inquiry.run s (action.operation env user experiment) = .ok (.write c)) :
    Effect env s user experiment body c := by
  cases action with
  | create document => exact hbody document rfl ▸ of_createKpi h
  | update document => exact hbody document rfl ▸ of_updateKpi h
  | view => exact absurd h showKpi_run_ne_write
  | remove => exact of_deleteKpi h
  | customize => exact of_customizeQuery h
  | regenerate => exact of_regenerateReaction h

end ExperimentKpi

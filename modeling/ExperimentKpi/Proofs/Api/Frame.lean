/-
# Requests change one KPI at most

A request that is not answered with a success changes nothing at all, and neither does a `GET` or a
`HEAD`. A request that is answered with a success changes no table but two: in the table of KPIs the
row of the experiment that the request addresses is put in or changed, and that experiment's link may
be set. This follows from the outcome of a request (`App.handle_outcome`) and what a command changes
(`Effect.changesOnly`).

Key theorems: `App.handle_frame`.
-/
import ExperimentKpi.Proofs.Api.Outcome
import ExperimentKpi.Proofs.Store.Kpis
import ExperimentKpi.Proofs.Token.Issued

namespace ExperimentKpi

/-- **A request changes at most the KPI of the experiment that it addresses**, and that only with a
success. The ids of KPIs are a key of their table. -/
theorem App.handle_frame (app : App) (now : Int) (r : Request)
    (hk : (app.store.kpis.map (·.id)).Nodup) :
    (¬ (app.handle now r).2.IsSuccess → (app.handle now r).1 = app) ∧
      ((app.handle now r).2.IsSuccess →
        (app.handle now r).1 = { app with store := (app.handle now r).1.store } ∧
        match r.experiment? with
        | some experiment => app.store.ChangesOnly experiment (app.handle now r).1.store
        | none => (app.handle now r).1.store = app.store) ∧
      (r.method = .get ∨ r.method = .head → (app.handle now r).1 = app) := by
  have h : Outcome app now r (app.handle now r).1 (app.handle now r).2 := App.handle_outcome
  generalize app.handle now r = result at h ⊢
  obtain ⟨app', response⟩ := result
  cases h with
  | kept =>
    refine ⟨fun _ => rfl, fun _ => ⟨rfl, ?_⟩, fun _ => rfl⟩
    cases r.experiment? with
    | none => rfl
    | some experiment => exact .refl experiment _
  | wrote _ _ addressed method effect applied =>
    refine ⟨fun hs => absurd (Answer.isSuccess_response _) hs, fun _ => ⟨rfl, ?_⟩, fun hm => ?_⟩
    · rw [addressed]
      exact effect.changesOnly hk applied
    · rcases hm with hm | hm
      · exact absurd hm method.1
      · exact absurd hm method.2

/-! ### An administrator who deletes one of two KPIs -/

/-- A KPI without queries. -/
def KpiRow.bare (id experiment : Int) : KpiRow where
  id := id
  project := 1
  experiment := experiment
  name := "shop_kpi"
  createdBy := none
  updatedBy := none
  createTime := .clock
  updateTime := .clock
  deleted := false
  settings := ""
  reaction := none
  reactionIsCustom := false
  report := none
  reportIsCustom := false

/-- An application with two experiments that have their KPIs, and one user, who may do everything. -/
def App.withTwoKpis : App :=
  start
    { Store.initial with
      experiments :=
        [⟨1, 1, "banner", "pc", "2024-01-01T00:00:00Z", "2024-02-01T00:00:00Z", some 2, false⟩,
          ⟨2, 1, "menu", "pc", "2024-01-01T00:00:00Z", "2024-02-01T00:00:00Z", some 1, false⟩]
      kpis := [.bare 1 2, .bare 2 1]
      users := [⟨1, "ada", none, none, true, false⟩] }
    {} ⟨"secret", 3600⟩

/-- The request that deletes the KPI of the first experiment. -/
def App.deletion : Request :=
  ⟨.delete, "/api/v2/experiments/1/kpis", some ("Bearer " ++ withTwoKpis.key.issue 0 1 "ada"), []⟩

theorem App.asks_deletion :
    withTwoKpis.Asks 0 deletion ⟨1, "ada", true⟩ (deleteKpi ⟨1, "ada", true⟩ 1) := by
  have htoken : tokenUser withTwoKpis.key 0 deletion.authorization = .ok 1 :=
    tokenUser_issue (by decide) (by decide) (by decide) (by decide)
  have hsegment : readSegment ['1'] = .ok "1" := rfl
  have hid : readId "1" = .ok 1 := rfl
  refine ⟨by decide, ?_, .experimentKpi ['1'], .remove ['1'], rfl, rfl, ?_⟩
  · simp only [authenticate, htoken]
    rfl
  · exact Endpoint.operation_remove hsegment hid

theorem App.handle_frame_deletion :
    (withTwoKpis.store.kpis.map (·.id)).Nodup ∧ (withTwoKpis.handle 0 deletion).2.IsSuccess ∧
      withTwoKpis.store.ChangesOnly 1 (withTwoKpis.handle 0 deletion).1.store := by
  have hk : (withTwoKpis.store.kpis.map (·.id)).Nodup := by decide
  have hsuccess : (withTwoKpis.handle 0 deletion).2.IsSuccess := by
    rw [asks_deletion.handle_eq rfl]
    decide
  have haddressed : deletion.experiment? = some 1 := rfl
  have h := ((handle_frame withTwoKpis 0 deletion hk).2.1 hsuccess).2
  rw [haddressed] at h
  exact ⟨hk, hsuccess, h⟩

end ExperimentKpi

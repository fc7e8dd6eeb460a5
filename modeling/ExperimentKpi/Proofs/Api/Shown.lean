/-
# What was sent is shown

A KPI is shown with the settings that the last request that sent some was answered with success for,
whatever other requests come in between (`App.run_shows`). The text of the settings stays in the row of
the experiment's KPI while requests about other experiments come, requests that fail, requests that
only read, and requests for custom or newly compiled queries (`App.Spares`, `App.handle_hasSettings`).

Key definitions: `App.Spares`.
Key theorems: `Store.HasSettings.showKpi_run`, `App.handle_hasSettings`, `App.run_shows`.
-/
import ExperimentKpi.Proofs.Api.Consistency
import ExperimentKpi.Proofs.Service.Shown

namespace ExperimentKpi

/-- **A KPI is shown with the settings that are stored for it.** -/
theorem Store.HasSettings.showKpi_run {s : Store} {experiment : Int} {text : String} {stored sent : Json}
    {design : Design} {models : List String} (h : s.HasSettings experiment text)
    (hparse : Json.parse? text = some stored) (hshows : stored.Shows design models sent) :
    ∃ detail, Inquiry.run s (showKpi experiment) = .ok (.show (.detail detail)) ∧
      detail.experiment = experiment ∧ detail.toJson.Shows design models sent := by
  obtain ⟨e, he⟩ := h.isLive
  obtain ⟨k, hk, hsettings⟩ := h.liveKpiOf
  obtain ⟨basedOn, hsentBasis, hbasis⟩ := hshows.basedOn
  obtain ⟨ds, ds', hsent, hdefinitions, hall⟩ := hshows.definitions
  obtain ⟨detail, hdetail, hdetailBasis, hdetailDefinitions, hexperiment⟩ :
      ∃ detail, k.detail = .ok detail ∧ detail.basedOn = basedOn ∧ detail.definitions = .arr ds' ∧
        detail.experiment = k.experiment := by
    simp only [KpiRow.detail, hsettings, hparse, hbasis, hdefinitions, Option.getD_some]
    exact ⟨_, rfl, rfl, rfl, rfl⟩
  have hrun : Inquiry.run s (showKpi experiment) = .ok (.show (.detail detail)) := by
    simp only [showKpi, Inquiry.run_bind, Inquiry.run_query, Inquiry.run_check, Inquiry.run_pure]
    rw [bind_of_ok he, bind_of_ok hk, bind_of_ok hdetail]
  refine ⟨detail, hrun, hexperiment.trans (Store.mem_of_liveKpiOf hk).2,
    ⟨basedOn, hsentBasis, ?_⟩, ds, ds', hsent, ?_, hall⟩
  · rw [← hdetailBasis]
    rfl
  · rw [← hdetailDefinitions]
    rfl

/-- The document of a body repeats no key. -/
theorem wellFormed_of_readJsonBody {body : List UInt8} {document : Json}
    (h : readJsonBody body = .ok document) : document.WellFormed := by
  unfold readJsonBody at h
  split at h
  · cases h
    trivial
  · split at h
    · rename_i v hv
      cases h
      obtain ⟨s, -, hparse⟩ := Option.bind_eq_some_iff.mp hv
      exact Json.wellFormed_of_parse? hparse
    · cases h

namespace App

/-- A request spares the settings of an experiment's KPI: it is about another experiment or none, it is
not answered with a success, it only reads, or it gives or compiles a query. -/
inductive Spares (app : App) (experiment : Int) (now : Int) (r : Request) : Prop where
  | elsewhere (other : r.experiment? ≠ some experiment)
  | failed (failed : ¬ (app.handle now r).2.IsSuccess)
  | read (method : r.method = .get ∨ r.method = .head)
  | asked {user : User} {action : KpiAction} (spares : action.sparesSettings = true)
      (asks : app.Asks now r user (action.operation app.environment user experiment))

variable {app : App} {now : Int} {r : Request} {user : User} {experiment : Int} {text : String}

/-- **A request that spares the settings leaves them.** -/
theorem handle_hasSettings (h : app.store.HasSettings experiment text)
    (hspares : app.Spares experiment now r) :
    (app.handle now r).1.store.HasSettings experiment text := by
  cases hspares with
  | failed hfailed =>
    rw [handle_of_not_isSuccess hfailed]
    exact h
  | asked hspares hasks =>
    rw [hasks.handle_eq (isOpen_of_authenticate hasks.authenticated)]
    exact h.of_run hspares rfl
  | elsewhere hother =>
    have ho : Outcome app now r (app.handle now r).1 (app.handle now r).2 := handle_outcome
    generalize app.handle now r = result at ho ⊢
    obtain ⟨app', response⟩ := result
    cases ho with
    | kept => exact h
    | wrote _ _ addressed _ effect applied =>
      refine h.of_changesOnly (effect.changesOnly h.keyed.ids applied) fun hsame => hother ?_
      rw [addressed, hsame]
  | read hmethod =>
    have ho : Outcome app now r (app.handle now r).1 (app.handle now r).2 := handle_outcome
    generalize app.handle now r = result at ho ⊢
    obtain ⟨app', response⟩ := result
    cases ho with
    | kept => exact h
    | wrote _ _ _ method => exact absurd hmethod (not_or.mpr method)

theorem run_cons (app : App) (now : Int) (r : Request) (later : List (Int × Request)) :
    app.run ((now, r) :: later) = (app.handle now r).1.run later := rfl

/-- Requests that spare the settings leave them. -/
theorem run_hasSettings (h : app.store.HasSettings experiment text) (requests : List (Int × Request))
    (hspares : ∀ before now r after, requests = before ++ (now, r) :: after →
      (app.run before).Spares experiment now r) :
    (app.run requests).store.HasSettings experiment text := by
  induction requests generalizing app with
  | nil => exact h
  | cons p requests ih =>
    obtain ⟨now, r⟩ := p
    refine ih (handle_hasSettings h (hspares [] now r requests rfl)) fun before now' r' after hsplit => ?_
    exact hspares ((now, r) :: before) now' r' after (by rw [hsplit, List.cons_append])

/-- **What was sent is shown.** After a request that sends settings succeeds, and whatever requests
that spare them come then, a request for the KPI is answered with the settings that were sent: the
same basis, and the same definitions in the same order with all that stands in them, but for the
pattern ids of definitions that name a pattern, where the experiment had a live model that maps
definitions to patterns. The floats of the body are assumed to be read back from their text. -/
theorem run_shows (app : App) (now : Int) (r : Request) (user : User) (experiment : Int)
    (action : KpiAction) (document : Json) (later : List (Int × Request)) (hkeyed : app.store.Keyed)
    (hbody : readJsonBody r.body = .ok document) (hfloats : r.FloatsReadBack)
    (hsends : action.document? = some document)
    (hasks : app.Asks now r user (action.operation app.environment user experiment))
    (hsuccess : (app.handle now r).2.IsSuccess)
    (hspares : ∀ before now' r' after, later = before ++ (now', r') :: after →
      (app.run ((now, r) :: before)).Spares experiment now' r') :
    ∃ context, (loadContext experiment).run app.store = .ok context ∧
      ∀ now' r' user', (app.run ((now, r) :: later)).Asks now' r' user' (showKpi experiment) →
        ∃ shown : Json, shown.Shows context.design context.models document ∧
          shown.member? "experimentId" = some (.int experiment) ∧
          (app.run ((now, r) :: later)).handle now' r' =
            (app.run ((now, r) :: later), ⟨200, .document shown⟩) := by
  have hhandle := hasks.handle_eq (isOpen_of_authenticate hasks.authenticated)
  rw [hhandle] at hsuccess
  generalize hrun : (action.operation app.environment user experiment).run app.store = result
    at hhandle hsuccess
  obtain ⟨s, outcome⟩ := result
  cases outcome with
  | error failure => exact absurd hsuccess (Failure.not_isSuccess_response failure)
  | ok answer =>
    obtain ⟨context, accepted, settings, text, hload, hvalid, hcanonical, hhas⟩ :=
      KpiAction.hasSettings_of_run hkeyed hsends hrun
    obtain ⟨hnest, hnum⟩ := hfloats.isReadBack document hbody
    obtain ⟨stored, hparse, hshows⟩ := exists_parse?_canonical hvalid
      (wellFormed_of_readJsonBody hbody) hnest hnum hcanonical
    refine ⟨context, hload, fun now' r' user' hreads => ?_⟩
    have hfirst : (app.handle now r).1.store.HasSettings experiment text := by
      rw [hhandle]
      exact hhas
    have hlast := run_hasSettings hfirst later hspares
    obtain ⟨detail, hdetail, hexperiment, hshown⟩ := hlast.showKpi_run hparse hshows
    refine ⟨detail.toJson, hshown, ?_, ?_⟩
    · rw [← hexperiment]
      rfl
    · rw [hreads.handle_eq (isOpen_of_authenticate hreads.authenticated)]
      have hshow : Operation.run (showKpi experiment) (app.run ((now, r) :: later)).store =
          ((app.run ((now, r) :: later)).store, .ok (.detail detail)) :=
        Operation.run_of_show hdetail
      rw [hshow]
      rfl

/-! ### An administrator who looks at a new KPI -/

/-- A probe, which has nothing to do with KPIs. -/
def sampleProbe : Request :=
  ⟨.get, "/health", none, []⟩

/-- The request that shows the experiment's KPI. -/
def sampleViewing : Request :=
  ⟨.get, "/api/v2/experiments/1/kpis", some ("Bearer " ++ sample.key.issue 0 1 "ada"), []⟩

theorem handle_sampleRequest : ∃ s, s.user 1 = .ok ⟨1, "ada", true⟩ ∧
    (sample.handle 0 sampleRequest).1 = { sample with store := s } := by
  have hids : (sample.store.kpis.map (·.id)).Nodup := List.nodup_nil
  obtain ⟨s, halike, hs⟩ := exists_handle_store hids 0 sampleRequest
  exact ⟨s, congrFun halike.user 1, hs⟩

theorem isSuccess_sampleRequest : (sample.handle 0 sampleRequest).2.IsSuccess := by
  obtain ⟨s, answer, hrun⟩ := exists_run_sampleRequest
  rw [asks_sampleRequest.handle_eq rfl, hrun]
  exact Answer.isSuccess_response answer

theorem handle_sampleProbe (app : App) (now : Int) : (app.handle now sampleProbe).1 = app := rfl

theorem asks_sampleViewing : (sample.run [(0, sampleRequest), (5, sampleProbe)]).Asks 7 sampleViewing
    ⟨1, "ada", true⟩ (showKpi 1) := by
  obtain ⟨s, huser, hs⟩ := handle_sampleRequest
  rw [run_cons, hs, run_singleton, handle_sampleProbe]
  have htoken : tokenUser sample.key 7 sampleViewing.authorization = .ok 1 :=
    tokenUser_issue (by decide) (by decide) (by decide) (by decide)
  refine ⟨by decide, ?_, .experimentKpi ['1'], .view ['1'], rfl, rfl, rfl⟩
  simp only [authenticate, htoken]
  exact huser

/-- The sample's settings are shown as they were sent. -/
theorem run_shows_sample :
    sample.store.Keyed ∧ readJsonBody sampleRequest.body = .ok sampleSettings ∧
      sampleRequest.FloatsReadBack ∧ (sample.handle 0 sampleRequest).2.IsSuccess ∧
      ∃ context, ∃ shown : Json, (loadContext 1).run sample.store = .ok context ∧
        shown.Shows context.design context.models sampleSettings ∧
        (sample.run [(0, sampleRequest), (5, sampleProbe)]).handle 7 sampleViewing =
          (sample.run [(0, sampleRequest), (5, sampleProbe)], ⟨200, .document shown⟩) := by
  have hfloats : sampleRequest.FloatsReadBack := by
    intro document hdocument x hx
    rw [readJsonBody_sampleRequest] at hdocument
    cases hdocument
    exact (numbers_sampleSettings hx).2
  have hkeyed : sample.store.Keyed := (isConsistent_of_empty rfl).keyed
  have hprobe : ∀ before now' r' after, [((5 : Int), sampleProbe)] = before ++ (now', r') :: after →
      (sample.run ((0, sampleRequest) :: before)).Spares 1 now' r' := by
    intro before now' r' after hsplit
    have hmem : (now', r') ∈ [((5 : Int), sampleProbe)] := by simp [hsplit]
    cases List.mem_singleton.mp hmem
    exact .read (.inl rfl)
  obtain ⟨context, hload, hshows⟩ := run_shows sample 0 sampleRequest ⟨1, "ada", true⟩ 1
    (.create sampleSettings) sampleSettings [(5, sampleProbe)] hkeyed readJsonBody_sampleRequest
    hfloats rfl asks_sampleRequest isSuccess_sampleRequest hprobe
  obtain ⟨shown, hshown, -, hhandle⟩ := hshows 7 sampleViewing ⟨1, "ada", true⟩ asks_sampleViewing
  exact ⟨hkeyed, readJsonBody_sampleRequest, hfloats, isSuccess_sampleRequest, context, shown, hload,
    hshown, hhandle⟩

end App

end ExperimentKpi

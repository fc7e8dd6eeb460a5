/-
# All KPIs stay current

From an empty table of KPIs no run of requests, whoever sends them and whether they succeed or fail,
leads to a KPI whose stored queries are others than its stored settings compile to. What one request
preserves is an invariant of the application (`App.IsConsistent`): the keys of the table of KPIs, and
that all of its rows are current. A request either changes nothing or has the effect of one command
(`App.handle_outcome`), and commands preserve both parts (`Effect.keyed`, `Effect.isCurrent`).

Key definitions: `App.run`, `App.IsConsistent`, `Request.FloatsReadBack`.
Key theorems: `App.handle_isConsistent`, `App.run_isConsistent`, `App.run_isCurrent`.
-/
import ExperimentKpi.Proofs.Api.Outcome
import ExperimentKpi.Proofs.Service.Current
import ExperimentKpi.Proofs.Token.Issued

namespace ExperimentKpi

/-- The floats in the document that a request's body spells are read back from their text. -/
def Request.FloatsReadBack (r : Request) : Prop :=
  ∀ document, readJsonBody r.body = .ok document →
    ∀ x, .float x ∈ document.numbers → (Number.float x).ReadsBack

theorem Request.FloatsReadBack.isReadBack {r : Request} (h : r.FloatsReadBack) :
    IsReadBack (readJsonBody r.body) := by
  intro document hdocument
  have hfloats := h document hdocument
  unfold readJsonBody at hdocument
  split at hdocument
  · cases hdocument
    exact ⟨Nat.zero_le _, fun n hn => absurd hn List.not_mem_nil⟩
  · split at hdocument
    · rename_i v hv
      cases hdocument
      obtain ⟨s, -, hparse⟩ := Option.bind_eq_some_iff.mp hv
      exact ⟨Json.nesting_of_parse? hparse, Json.readsBack_of_parse? hparse hfloats⟩
    · cases hdocument

/-- A body that is the compact text of an object is read as what the text is read as. -/
theorem readJsonBody_compact {ms : Members} {document : Json}
    (h : Json.parse? (Json.obj ms).compact = some document) :
    readJsonBody (Text.utf8 (Json.obj ms).compact) = .ok document := by
  have hblank : (Text.utf8 (Json.obj ms).compact).all isAsciiBlank = false := by
    obtain ⟨s, hs⟩ : ∃ s, (Json.obj ms).print = '{' :: s := by
      cases ms <;> exact ⟨_, rfl⟩
    have hbrace : (String.utf8EncodeChar '{').all isAsciiBlank = false := by decide
    rw [Json.compact, hs, Text.utf8_ofList_cons, List.all_append, hbrace, Bool.false_and]
  rw [readJsonBody, if_neg (by rw [hblank]; exact Bool.false_ne_true), Text.ofUtf8?_utf8,
    Option.bind_some, h]

namespace App

/-- The application after requests, each of which comes at its time. -/
def run (app : App) (requests : List (Int × Request)) : App :=
  requests.foldl (fun app (now, r) => (app.handle now r).1) app

/-- The table of KPIs keeps its keys, and all KPIs are current. -/
structure IsConsistent (app : App) : Prop where
  keyed : app.store.Keyed
  current : ∀ k ∈ app.store.kpis, k.IsCurrent app.store app.warehouse

theorem isConsistent_of_empty {app : App} (h : app.store.kpis = []) : app.IsConsistent := by
  refine ⟨⟨?_, ?_⟩, ?_⟩ <;> simp [h]

/-- A request keeps the application consistent, and its warehouse. -/
theorem handle_isConsistent {app : App} (now : Int) {r : Request} (hr : r.FloatsReadBack)
    (h : app.IsConsistent) :
    (app.handle now r).1.IsConsistent ∧ (app.handle now r).1.warehouse = app.warehouse := by
  have ho : Outcome app now r (app.handle now r).1 (app.handle now r).2 := handle_outcome
  generalize app.handle now r = result at ho ⊢
  obtain ⟨app', response⟩ := result
  cases ho with
  | kept => exact ⟨h, rfl⟩
  | wrote _ _ _ _ effect applied =>
    refine ⟨⟨effect.keyed h.keyed applied, ?_⟩, rfl⟩
    exact effect.isCurrent hr.isReadBack h.keyed.ids applied h.current

/-- A request changes nothing but the store, and there nothing but KPIs and the links to them. -/
theorem exists_handle_store {app : App} (hk : (app.store.kpis.map (·.id)).Nodup) (now : Int)
    (r : Request) : ∃ s, app.store.Alike s ∧ (app.handle now r).1 = { app with store := s } := by
  have ho : Outcome app now r (app.handle now r).1 (app.handle now r).2 := handle_outcome
  generalize app.handle now r = result at ho ⊢
  obtain ⟨app', response⟩ := result
  cases ho with
  | kept => exact ⟨_, .refl _, rfl⟩
  | wrote _ _ _ _ effect applied => exact ⟨_, (effect.changesOnly hk applied).alike, rfl⟩

/-- Requests keep the application consistent, and its warehouse. -/
theorem run_isConsistent {app : App} {requests : List (Int × Request)}
    (hr : ∀ p ∈ requests, p.2.FloatsReadBack) (h : app.IsConsistent) :
    (app.run requests).IsConsistent ∧ (app.run requests).warehouse = app.warehouse := by
  induction requests generalizing app with
  | nil => exact ⟨h, rfl⟩
  | cons p requests ih =>
    obtain ⟨now, r⟩ := p
    obtain ⟨hstep, hwarehouse⟩ := handle_isConsistent now (hr _ List.mem_cons_self) h
    rw [run, List.foldl_cons, ← hwarehouse]
    exact ih (fun p hp => hr p (List.mem_cons_of_mem _ hp)) hstep

/-- **From an empty table of KPIs, requests lead to current KPIs alone**: the stored settings of each
row are accepted, and each of its queries that is not a custom one is what the settings compile to for
its experiment. Printing a float and reading it back may lose its last digits; the floats of the
requests' documents are assumed not to. -/
theorem run_isCurrent (app : App) (requests : List (Int × Request)) (hempty : app.store.kpis = [])
    (hfloats : ∀ p ∈ requests, p.2.FloatsReadBack) :
    ∀ k ∈ (app.run requests).store.kpis, k.IsCurrent (app.run requests).store app.warehouse := by
  obtain ⟨h, hwarehouse⟩ := run_isConsistent hfloats (isConsistent_of_empty hempty)
  rw [← hwarehouse]
  exact h.current

/-! ### An administrator who gives an experiment its KPI -/

/-- An application with one experiment and one user, who may do everything. -/
def sample : App :=
  start
    { Store.initial with
      organizations := [⟨1, "acme", "Acme", false⟩]
      organizationSettings :=
        [⟨1, ⟨1, "REGULAR", "SELECT 1", "SELECT 2", "SELECT 3", "SELECT 4"⟩⟩]
      projects := [⟨1, some 1, "shop", false⟩]
      experiments :=
        [⟨1, 1, "banner", "pc", "2024-01-01T00:00:00Z", "2024-02-01T00:00:00Z", none, false⟩]
      users := [⟨1, "ada", none, some 1, true, false⟩] }
    {} ⟨"secret", 3600⟩

/-- Settings with one definition, which has a member of its own. -/
def sampleSettings : Json :=
  .obj [("based_on", .str "overall"),
    ("kpi_definitions", .arr [.obj [("kpi_definition_name", .str "orders"),
      ("main_kpi", .bool true), ("weight", .num (.float (.zero false)))]])]

theorem numbers_sampleSettings {n : Number} (h : n ∈ sampleSettings.numbers) :
    n = .float (.zero false) ∧ n.ReadsBack := by
  have hn : n = .float (.zero false) := by
    simpa [sampleSettings, Json.numbers, Json.membersNumbers, Json.itemsNumbers] using h
  have htext : (Number.float (.zero false)).text = ['0', '.', '0'] := by decide +kernel
  have hliteral : Json.literal? false ['0', '.', '0'] = some (⟨false, ['0'], some ['0'], none⟩, []) :=
    rfl
  have hvalue : (⟨false, ['0'], some ['0'], none⟩ : Number.Literal).value? =
      some (.float (.zero false)) := by decide +kernel
  refine ⟨hn, ?_⟩
  rw [hn, Number.ReadsBack, htext, Json.Token.next?_of_isDigit (by decide), hliteral,
    Option.map_some]
  simp only [hvalue]

/-- The request that gives the experiment its KPI. -/
def sampleRequest : Request :=
  ⟨.post, "/api/v2/experiments/1/kpis", some ("Bearer " ++ sample.key.issue 0 1 "ada"),
    Text.utf8 sampleSettings.compact⟩

theorem readJsonBody_sampleRequest : readJsonBody sampleRequest.body = .ok sampleSettings := by
  refine readJsonBody_compact (Json.parse?_compact ?_ (by decide) fun n hn =>
    (numbers_sampleSettings hn).2)
  simp [Json.WellFormed, Json.MembersWellFormed, Json.ItemsWellFormed]

theorem run_singleton (app : App) (now : Int) (r : Request) :
    app.run [(now, r)] = (app.handle now r).1 := rfl

theorem asks_sampleRequest : sample.Asks 0 sampleRequest ⟨1, "ada", true⟩
    (createKpi sample.environment ⟨1, "ada", true⟩ 1 sampleSettings) := by
  have htoken : tokenUser sample.key 0 sampleRequest.authorization = .ok 1 :=
    tokenUser_issue (by decide) (by decide) (by decide) (by decide)
  have hlength : sampleSettings.print.length ≤ 200 := by decide +kernel
  have hsize : sampleRequest.body.length ≤ maxBodySize :=
    (Text.length_utf8_le _).trans ((Nat.mul_le_mul_left 4 hlength).trans (by decide))
  have hid : readId "1" = .ok 1 := rfl
  have hsegment : readSegment ['1'] = .ok "1" := rfl
  refine ⟨by decide, ?_, .experimentKpi ['1'], .create ['1'], rfl, rfl, ?_⟩
  · simp only [authenticate, htoken]
    rfl
  · exact Endpoint.operation_create hsegment hsize hid readJsonBody_sampleRequest

theorem kpis_sampleRequest : ((createKpi sample.environment ⟨1, "ada", true⟩ 1 sampleSettings).run
    sample.store).1.kpis.map (·.id) = [1] := by
  decide +kernel

/-- The operation that the request asks for succeeds: there would be no row else. -/
theorem exists_run_sampleRequest : ∃ s answer,
    (createKpi sample.environment ⟨1, "ada", true⟩ 1 sampleSettings).run sample.store =
      (s, .ok answer) := by
  have hkpis := kpis_sampleRequest
  cases hrun : (createKpi sample.environment ⟨1, "ada", true⟩ 1 sampleSettings).run sample.store with
  | mk s outcome =>
    cases outcome with
    | ok answer => exact ⟨s, answer, rfl⟩
    | error failure =>
      rw [hrun] at hkpis
      rw [Operation.eq_of_run_error hrun] at hkpis
      cases hkpis

theorem run_isCurrent_sample :
    sample.store.kpis = [] ∧ (∀ p ∈ [((0 : Int), sampleRequest)], p.2.FloatsReadBack) ∧
      (sample.run [(0, sampleRequest)]).store.kpis.map (·.id) = [1] ∧
      ∀ k ∈ (sample.run [(0, sampleRequest)]).store.kpis,
        k.IsCurrent (sample.run [(0, sampleRequest)]).store sample.warehouse := by
  have hfloats : ∀ p ∈ [((0 : Int), sampleRequest)], p.2.FloatsReadBack := by
    intro p hp document hdocument x hx
    rw [List.mem_singleton.mp hp, readJsonBody_sampleRequest] at hdocument
    cases hdocument
    exact (numbers_sampleSettings hx).2
  have hkpis := kpis_sampleRequest
  refine ⟨rfl, hfloats, ?_, run_isCurrent sample _ rfl hfloats⟩
  generalize hrun : (createKpi sample.environment ⟨1, "ada", true⟩ 1 sampleSettings).run
    sample.store = outcome at hkpis
  obtain ⟨s, result⟩ := outcome
  rw [run_singleton, asks_sampleRequest.handle_eq rfl, hrun]
  exact hkpis

end App

end ExperimentKpi

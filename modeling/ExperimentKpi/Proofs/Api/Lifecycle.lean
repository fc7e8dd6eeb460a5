/-
# Requests drive the life of a KPI

From an empty table of KPIs, whatever requests come and whoever sends them, the KPI of an experiment
is a machine of three phases (`App.run_followsLifecycle`). A request for an action that nothing but
the phase can refuse is answered as the machine says, every request takes a step of the machine or
leaves the phase, and the list of the project shows the KPI exactly while it is live. What requests
preserve is an invariant (`App.Serves`): the experiment's context stays but for its link, the keys of
the table of KPIs stay, and the settings of its rows are stored for documents that were sent.

One thing alone keeps a permitted user with settings that compiled from a step: a float may be stored
as the text of its neighbour (`App.not_regenerated_drifting`).

Key definitions: `App.FollowsLifecycle`, `App.Serves`.
Key theorems: `App.Serves.handle`, `App.Serves.run`, `App.Serves.followsLifecycle`,
`App.run_followsLifecycle`.
-/
import ExperimentKpi.Proofs.Api.Consistency
import ExperimentKpi.Proofs.Service.Lifecycle

namespace ExperimentKpi

/-! ### Lists -/

/-- The entry of a KPI in the list of its project. -/
def KpiRow.summary (k : KpiRow) : KpiSummary :=
  ⟨k.id, k.name, k.updatedBy, k.deleted⟩

/-- A page of the list of a project's KPIs. -/
def Store.pageOf (s : Store) (project : Int) (q : PageQuery) : Answer :=
  .page (Pagination.of (kpiListPath project) q.number q.size (s.kpiCount project))
    ((((s.liveKpisOf project).drop q.offset.toNat).take q.size.toNat).map KpiRow.summary)

namespace Store

variable {s : Store} {project experiment kpi : Int} {k : KpiRow}

theorem listKpis_run {q : PageQuery} {p : Project} (hp : s.project project = .ok p)
    (hread : ∀ k ∈ s.liveKpisOf project, k.updateTime.isReadable = true) :
    Inquiry.run s (listKpis project q) = .ok (.show (s.pageOf project q)) := by
  have hpage : s.kpiPage project q = .ok
      ((((s.liveKpisOf project).drop q.offset.toNat).take q.size.toNat).map KpiRow.summary) := by
    unfold kpiPage
    exact if_pos (List.all_eq_true.mpr fun k hk =>
      hread k (List.mem_of_mem_drop (List.mem_of_mem_take hk)))
  simp only [listKpis, Inquiry.run_bind, Inquiry.run_query, Inquiry.run_pure]
  rw [bind_of_ok hp, bind_of_ok rfl, bind_of_ok hpage]
  rfl

end Store

/-! ### Refusals and documents -/

/-- The response that refuses an action for the phase of the experiment's KPI. -/
def KpiAction.refused (experiment : Int) : KpiAction → Response
  | create _ => ⟨409, .document (.obj [("code", .int 409), ("message",
      .str s!"The kpi for experiment with experiment ID {experiment} already exists")])⟩
  | _ => ⟨404, .document (.obj [("code", .int 404), ("message",
      .str s!"KPI for the experiment ID {experiment} does not exist")])⟩

theorem KpiAction.response_refusal (action : KpiAction) (experiment : Int) :
    (action.refusal experiment).response = action.refused experiment := by
  cases action <;> rfl

/-- A document that is read from a body can be sent. -/
theorem isReceivable_of_readJsonBody {body : List UInt8} {document : Json}
    (h : readJsonBody body = .ok document) : document.IsReceivable := by
  unfold readJsonBody at h
  split at h
  · cases h
    exact ⟨Nat.zero_le _, fun n hn => absurd hn List.not_mem_nil⟩
  · split at h
    · rename_i v hv
      cases h
      obtain ⟨s, -, hparse⟩ := Option.bind_eq_some_iff.mp hv
      exact ⟨Json.nesting_of_parse? hparse, Json.fits_of_parse? hparse⟩
    · cases h

namespace App

variable {app : App} {now : Int} {r : Request} {user : User}

/-- A request for the list of a live project's KPIs gets the page that it asks for. -/
theorem Asks.handle_eq_pageOf {project : Int} {p : Project} {q : PageQuery}
    (h : app.Asks now r user (listKpis project q)) (hp : app.store.project project = .ok p)
    (hread : ∀ k ∈ app.store.liveKpisOf project, k.updateTime.isReadable = true) :
    app.handle now r = (app, (app.store.pageOf project q).response) := by
  rw [h.handle_eq (isOpen_of_authenticate h.authenticated),
    Operation.run_of_show (Store.listKpis_run hp hread)]
  rfl

/-! ### The machine that requests drive -/

/-- The KPI of an experiment behaves as the machine, whatever request comes next. -/
structure FollowsLifecycle (app : App) (experiment : Int) (context : ExperimentContext) : Prop where
  /-- An action that nothing but the phase can refuse succeeds if the machine has a step for it. -/
  succeeds : ∀ now r user action phase,
    app.Asks now r user (KpiAction.operation app.environment user experiment action) →
    action.IsReady app.environment user context (app.store.kpiRow? experiment) →
    (app.store.phase experiment).after app.store.freshKpi action = some phase →
      (app.handle now r).2.IsSuccess
  /-- If the machine has no step for the action, the request changes nothing and is refused. -/
  refuses : ∀ now r user action,
    app.Asks now r user (KpiAction.operation app.environment user experiment action) →
    action.IsReady app.environment user context (app.store.kpiRow? experiment) →
    (app.store.phase experiment).after app.store.freshKpi action = none →
      app.handle now r = (app, action.refused experiment)
  /-- An action that succeeds, whatever else could have refused it, takes its step. -/
  steps : ∀ now r user action,
    app.Asks now r user (KpiAction.operation app.environment user experiment action) →
    (app.handle now r).2.IsSuccess →
      (app.store.phase experiment).after app.store.freshKpi action =
        some ((app.handle now r).1.store.phase experiment)
  /-- The reaction query of a live KPI is compiled anew exactly if the settings that are stored, as
  they are read, compile. -/
  regenerates : ∀ now r user kpi,
    app.Asks now r user (regenerateReaction app.environment experiment) →
    app.store.phase experiment = .live kpi →
      ((app.handle now r).2.IsSuccess ↔ KpiAction.regenerate.IsReady app.environment user context
        (app.store.kpiRow? experiment))
  /-- Every request leaves the phase or takes the step of the action that it asks for. -/
  moves : ∀ now r,
    (app.handle now r).1.store.phase experiment = app.store.phase experiment ∨
      ∃ user action,
        app.Asks now r user (KpiAction.operation app.environment user experiment action) ∧
        (app.store.phase experiment).after app.store.freshKpi action =
          some ((app.handle now r).1.store.phase experiment)
  /-- A live KPI stays live and keeps its id unless a `DELETE` for its experiment deletes it. -/
  deletes : ∀ now r kpi, app.store.phase experiment = .live kpi →
    (app.handle now r).1.store.phase experiment = .live kpi ∨
      (app.handle now r).1.store.phase experiment = .deleted kpi ∧ r.method = .delete ∧
        r.experiment? = some experiment
  /-- A request without success changes nothing. -/
  keeps : ∀ now r, ¬ (app.handle now r).2.IsSuccess → (app.handle now r).1 = app
  /-- A page of the project's list shows its part of the live KPIs. -/
  pages : ∀ now r user page,
    app.Asks now r user (listKpis context.experiment.project page) →
      app.handle now r = (app, (app.store.pageOf context.experiment.project page).response)
  /-- The list has the experiment's KPI exactly if it is live. -/
  lists : ∀ kpi,
    (∃ k ∈ app.store.liveKpisOf context.experiment.project, k.experiment = experiment ∧
      k.id = kpi) ↔ app.store.phase experiment = .live kpi
  /-- Ids tell KPIs apart. -/
  ids : (app.store.kpis.map (·.id)).Nodup

/-- What requests preserve: the database is open, the experiment's context is `context` but for its
link, rows are told apart by their ids and by their experiments, and the settings of each row are
stored for a document with a property. -/
structure Serves (app : App) (experiment : Int) (context : ExperimentContext) (P : Json → Prop) :
    Prop where
  isOpen : app.isOpen = true
  loaded : ∃ kpi, (loadContext experiment).run app.store = .ok (context.withLink kpi)
  keyed : app.store.Keyed
  stored : ∀ k ∈ app.store.kpis, k.IsStored app.store app.warehouse P

namespace Serves

variable {experiment : Int} {context : ExperimentContext} {P : Json → Prop} {action : KpiAction}

theorem of_empty (hopen : app.isOpen = true) (hempty : app.store.kpis = [])
    (hload : (loadContext experiment).run app.store = .ok context) :
    app.Serves experiment context P where
  isOpen := hopen
  loaded := ⟨context.experiment.kpi, hload⟩
  keyed := (isConsistent_of_empty hempty).keyed
  stored := by simp [hempty]

/-- A request keeps what requests preserve. -/
theorem handle (h : app.Serves experiment context P) (now : Int)
    (hbody : ∀ document, readJsonBody r.body = .ok document → P document) :
    (app.handle now r).1.Serves experiment context P ∧
      (app.handle now r).1.environment = app.environment := by
  have ho : Outcome app now r (app.handle now r).1 (app.handle now r).2 := handle_outcome
  generalize app.handle now r = result at ho ⊢
  obtain ⟨app', response⟩ := result
  cases ho with
  | kept => exact ⟨h, rfl⟩
  | wrote _ _ _ _ effect applied =>
    obtain ⟨kpi, hload⟩ := h.loaded
    obtain ⟨kpi', hload'⟩ := (effect.changesOnly h.keyed.ids applied).loadContext hload
    exact ⟨⟨h.isOpen, ⟨kpi', hload'⟩, effect.keyed h.keyed applied,
      effect.isStored hbody h.keyed.ids applied h.stored⟩, rfl⟩

/-- Requests keep what each of them preserves. -/
theorem run {requests : List (Int × Request)} (h : app.Serves experiment context P)
    (hbody : ∀ p ∈ requests, ∀ document, readJsonBody p.2.body = .ok document → P document) :
    (app.run requests).Serves experiment context P ∧
      (app.run requests).environment = app.environment := by
  induction requests generalizing app with
  | nil => exact ⟨h, rfl⟩
  | cons p requests ih =>
    obtain ⟨now, r⟩ := p
    obtain ⟨hstep, henvironment⟩ := h.handle now (hbody _ List.mem_cons_self)
    rw [App.run, List.foldl_cons, ← henvironment]
    exact ih hstep fun p hp => hbody p (List.mem_cons_of_mem _ hp)

/-! #### The fields of the machine -/

theorem isReadable (h : app.Serves experiment context P) : app.store.IsReadable :=
  fun k hk => (h.stored k hk).isReadable

/-- A row of the experiment is stored for a document in the experiment's context. -/
theorem isStoredFor (h : app.Serves experiment context P) {k : KpiRow}
    (hk : app.store.kpiRow? experiment = some k) :
    ∃ kpi document, P document ∧ k.IsStoredFor (context.withLink kpi) app.warehouse document := by
  obtain ⟨context', document, hload', hP, hfor⟩ := h.stored k (Store.mem_of_kpiRow? hk)
  obtain ⟨kpi, hload⟩ := h.loaded
  rw [Store.experiment_of_kpiRow? hk, hload] at hload'
  cases hload'
  exact ⟨kpi, document, hP, hfor⟩

theorem succeeds (h : app.Serves experiment context P)
    (hP : ∀ document, P document → document.IsReceivable) {phase : KpiPhase}
    (hasks : app.Asks now r user (action.operation app.environment user experiment))
    (hready : action.IsReady app.environment user context (app.store.kpiRow? experiment))
    (hafter : (app.store.phase experiment).after app.store.freshKpi action = some phase) :
    (app.handle now r).2.IsSuccess := by
  obtain ⟨kpi, hload⟩ := h.loaded
  obtain ⟨s, answer, hrun⟩ := KpiAction.exists_run_of_after hP hload h.stored
    (KpiAction.isReady_withLink.mpr hready) hafter
  rw [hasks.handle_eq h.isOpen, hrun]
  exact Answer.isSuccess_response answer

theorem refuses (h : app.Serves experiment context P)
    (hasks : app.Asks now r user (action.operation app.environment user experiment))
    (hready : action.IsReady app.environment user context (app.store.kpiRow? experiment))
    (hafter : (app.store.phase experiment).after app.store.freshKpi action = none) :
    app.handle now r = (app, action.refused experiment) := by
  obtain ⟨kpi, hload⟩ := h.loaded
  have hrun := KpiAction.run_of_after_eq_none h.isReadable hload
    (KpiAction.isReady_withLink.mpr hready) hafter
  rw [hasks.handle_eq h.isOpen, hrun, ← KpiAction.response_refusal]
  rfl

theorem steps (h : app.Serves experiment context P)
    (hasks : app.Asks now r user (action.operation app.environment user experiment))
    (hsuccess : (app.handle now r).2.IsSuccess) :
    (app.store.phase experiment).after app.store.freshKpi action =
      some ((app.handle now r).1.store.phase experiment) := by
  rw [hasks.handle_eq h.isOpen] at hsuccess ⊢
  generalize hrun : (action.operation app.environment user experiment).run app.store = result
    at hsuccess
  obtain ⟨s, outcome⟩ := result
  cases outcome with
  | error failure => exact absurd hsuccess (Failure.not_isSuccess_response failure)
  | ok answer => exact KpiAction.after_of_run hrun

theorem regenerates (h : app.Serves experiment context P)
    (hP : ∀ document, P document → document.IsReceivable) {kpi : Int}
    (hasks : app.Asks now r user (regenerateReaction app.environment experiment))
    (hlive : app.store.phase experiment = .live kpi) :
    (app.handle now r).2.IsSuccess ↔
      KpiAction.regenerate.IsReady app.environment user context
        (app.store.kpiRow? experiment) := by
  constructor
  · intro hsuccess
    obtain ⟨link, hload⟩ := h.loaded
    rw [hasks.handle_eq h.isOpen] at hsuccess
    generalize hrun : (regenerateReaction app.environment experiment).run app.store = result
      at hsuccess
    obtain ⟨s, outcome⟩ := result
    cases outcome with
    | error failure => exact absurd hsuccess (Failure.not_isSuccess_response failure)
    | ok answer =>
      have hready : KpiAction.regenerate.IsReady app.environment user (context.withLink link)
          (app.store.kpiRow? experiment) := KpiAction.isReady_regenerate_of_run hload hrun
      exact KpiAction.isReady_withLink.mp hready
  · intro hready
    have hafter : (app.store.phase experiment).after app.store.freshKpi .regenerate =
        some (.live kpi) := by
      rw [hlive]
      rfl
    have haction : app.Asks now r user
        (KpiAction.regenerate.operation app.environment user experiment) := hasks
    exact h.succeeds hP haction hready hafter

/-- Every request leaves the phase or takes the step of the action that it asks for. -/
theorem moves (h : app.Serves experiment context P) (now : Int) (r : Request) :
    (app.handle now r).1.store.phase experiment = app.store.phase experiment ∨
      ∃ user action, r.experiment? = some experiment ∧
        app.Asks now r user (KpiAction.operation app.environment user experiment action) ∧
        (action = .remove → r.method = .delete) ∧
        (app.store.phase experiment).after app.store.freshKpi action =
          some ((app.handle now r).1.store.phase experiment) := by
  by_cases hsuccess : (app.handle now r).2.IsSuccess
  · rcases handle_cases app now r with hkept | ⟨user, other, action, haddressed, hasks, hremove⟩
    · exact .inl (by rw [hkept])
    · by_cases hother : experiment = other
      · subst hother
        exact .inr ⟨user, action, haddressed, hasks, hremove, h.steps hasks hsuccess⟩
      · -- The request is about another experiment.
        have ho : Outcome app now r (app.handle now r).1 (app.handle now r).2 := handle_outcome
        generalize app.handle now r = result at ho ⊢
        obtain ⟨app', response⟩ := result
        cases ho with
        | kept => exact .inl rfl
        | wrote _ _ addressed _ effect applied =>
          rw [haddressed] at addressed
          cases addressed
          have hrow := (effect.changesOnly h.keyed.ids applied).kpiRow?_eq hother
          exact .inl (congrArg KpiPhase.ofRow? hrow)
  · exact .inl (by rw [handle_of_not_isSuccess hsuccess])

/-- A live KPI stays live and keeps its id unless a `DELETE` for its experiment deletes it. -/
theorem deletes (h : app.Serves experiment context P) (now : Int) (r : Request) {kpi : Int}
    (hlive : app.store.phase experiment = .live kpi) :
    (app.handle now r).1.store.phase experiment = .live kpi ∨
      (app.handle now r).1.store.phase experiment = .deleted kpi ∧ r.method = .delete ∧
        r.experiment? = some experiment := by
  rcases h.moves now r with hsame | ⟨user, action, haddressed, hasks, hremove, hafter⟩
  · exact .inl (hsame.trans hlive)
  · rw [hlive] at hafter
    cases action with
    | create => cases hafter
    | remove => exact .inr ⟨(Option.some.inj hafter).symm, hremove rfl, haddressed⟩
    | update | view | customize | regenerate => exact .inl (Option.some.inj hafter).symm

theorem pages (h : app.Serves experiment context P) {page : PageQuery}
    (hasks : app.Asks now r user (listKpis context.experiment.project page)) :
    app.handle now r = (app, (app.store.pageOf context.experiment.project page).response) := by
  obtain ⟨kpi, hload⟩ := h.loaded
  have hproject : app.store.project context.experiment.project = .ok context.project :=
    (loadContext_run_iff.mp hload).2.1
  exact hasks.handle_eq_pageOf hproject fun k hk =>
    (h.isReadable k (Store.mem_liveKpisOf_iff.mp hk).1).2

theorem lists (h : app.Serves experiment context P) (kpi : Int) :
    (∃ k ∈ app.store.liveKpisOf context.experiment.project, k.experiment = experiment ∧
      k.id = kpi) ↔ app.store.phase experiment = .live kpi := by
  rw [Store.phase_eq_live_iff]
  constructor
  · rintro ⟨k, hk, rfl, hid⟩
    obtain ⟨hm, -, hd⟩ := Store.mem_liveKpisOf_iff.mp hk
    exact ⟨k, Store.kpiRow?_of_mem h.keyed hm, hd, hid⟩
  · rintro ⟨k, hk, hd, hid⟩
    obtain ⟨link, document, -, hfor⟩ := h.isStoredFor hk
    have hproject : k.project = context.experiment.project := hfor.project
    exact ⟨k, Store.mem_liveKpisOf_iff.mpr ⟨Store.mem_of_kpiRow? hk, hproject, hd⟩,
      Store.experiment_of_kpiRow? hk, hid⟩

/-- **What requests preserve makes the KPI behave as the machine.** -/
theorem followsLifecycle (h : app.Serves experiment context P)
    (hP : ∀ document, P document → document.IsReceivable) :
    app.FollowsLifecycle experiment context where
  succeeds _ _ _ _ _ hasks hready hafter := h.succeeds hP hasks hready hafter
  refuses _ _ _ _ hasks hready hafter := h.refuses hasks hready hafter
  steps _ _ _ _ hasks hsuccess := h.steps hasks hsuccess
  regenerates _ _ _ _ hasks hlive := h.regenerates hP hasks hlive
  moves now r := by
    rcases h.moves now r with hsame | ⟨user, action, -, hasks, -, hafter⟩
    · exact .inl hsame
    · exact .inr ⟨user, action, hasks, hafter⟩
  deletes now r _ hlive := h.deletes now r hlive
  keeps _ _ hfailed := handle_of_not_isSuccess hfailed
  pages _ _ _ _ hasks := h.pages hasks
  lists := h.lists
  ids := h.keyed.ids

/-- If reading back changes no number, the experiment's reaction query compiles anew. -/
theorem recompiles (h : app.Serves experiment context P)
    (hP : ∀ document, P document →
      document.nesting ≤ Json.nestingLimit ∧ ∀ n ∈ document.numbers, n.ReadsBack)
    {k : KpiRow} (hk : app.store.kpiRow? experiment = some k) :
    k.Recompiles context app.warehouse := by
  obtain ⟨kpi, document, hdocument, hfor⟩ := h.isStoredFor hk
  obtain ⟨hnest, hnum⟩ := hP document hdocument
  exact KpiRow.recompiles_withLink.mp (hfor.recompiles hnest hnum)

end Serves

/-- Some request has a document as its body. -/
def HasSent (requests : List (Int × Request)) (document : Json) : Prop :=
  ∃ p ∈ requests, readJsonBody p.2.body = .ok document

theorem isReceivable_of_hasSent {requests : List (Int × Request)} {document : Json}
    (h : HasSent requests document) : document.IsReceivable := by
  obtain ⟨p, -, hdocument⟩ := h
  exact isReceivable_of_readJsonBody hdocument

/-- From an empty table of KPIs, rows are stored for documents that requests sent. -/
theorem serves_run {experiment : Int} {context : ExperimentContext} (requests : List (Int × Request))
    (hopen : app.isOpen = true) (hempty : app.store.kpis = [])
    (hload : (loadContext experiment).run app.store = .ok context) :
    (app.run requests).Serves experiment context (HasSent requests) ∧
      (app.run requests).environment = app.environment :=
  (Serves.of_empty hopen hempty hload).run fun p hp _ hdocument => ⟨p, hp, hdocument⟩

theorem warehouse_eq {app app' : App} (h : app'.environment = app.environment) :
    app'.warehouse = app.warehouse :=
  congrArg Environment.warehouse h

/-- **The KPI of an experiment is a machine of three phases.** From an empty table of KPIs, the KPI of
an experiment that can be loaded is absent at first and behaves as the machine after every run of
requests. What can keep a permitted user with valid settings that compile from the machine's steps
is one thing: settings are stored as a text, and a float that this text spells may be read as a
neighbour of the one that was sent, so that the settings compile no more when a reaction query is asked
for anew. This never happens where the floats of the requests' documents are read back. -/
theorem run_followsLifecycle (app : App) (requests : List (Int × Request)) (experiment : Int)
    (context : ExperimentContext) (hopen : app.isOpen = true) (hempty : app.store.kpis = [])
    (hload : (loadContext experiment).run app.store = .ok context) :
    app.store.phase experiment = .absent ∧
      (app.run requests).FollowsLifecycle experiment context ∧
      (app.run requests).environment = app.environment ∧
      ((∀ p ∈ requests, p.2.FloatsReadBack) →
        ∀ k, (app.run requests).store.kpiRow? experiment = some k →
          k.Recompiles context app.warehouse) := by
  obtain ⟨hserves, henvironment⟩ := serves_run requests hopen hempty hload
  refine ⟨?_, hserves.followsLifecycle fun _ => isReceivable_of_hasSent, henvironment, ?_⟩
  · exact Store.phase_eq_absent_iff.mpr (by rw [Store.kpiRow?, hempty]; rfl)
  · intro hfloats k hk
    rw [← warehouse_eq henvironment]
    refine hserves.recompiles ?_ hk
    rintro document ⟨p, hp, hdocument⟩
    exact (hfloats p hp).isReadBack document hdocument

/-! ### An administrator who gives an experiment its KPI -/

theorem phase_sampleRequest :
    ((createKpi sample.environment ⟨1, "ada", true⟩ 1 sampleSettings).run sample.store).1.phase 1 =
      .live 1 := by
  obtain ⟨s, answer, hrun⟩ := exists_run_sampleRequest
  have haction : ((KpiAction.create sampleSettings).operation sample.environment ⟨1, "ada", true⟩ 1).run
      sample.store = (s, .ok answer) := hrun
  have hafter := KpiAction.after_of_run haction
  have hlive : (sample.store.phase 1).after sample.store.freshKpi (.create sampleSettings) =
      some (.live 1) := rfl
  rw [hrun]
  exact (Option.some.inj (hlive.symm.trans hafter)).symm

theorem run_followsLifecycle_sample :
    ∃ context, sample.isOpen = true ∧ sample.store.kpis = [] ∧
      (loadContext 1).run sample.store = .ok context ∧
      (sample.run [(0, sampleRequest)]).FollowsLifecycle 1 context ∧
      ∃ k, (sample.run [(0, sampleRequest)]).store.kpiRow? 1 = some k ∧ k.deleted = false ∧
        k.Recompiles context sample.warehouse := by
  have hload : ((loadContext 1).run sample.store).isOk = true := by decide +kernel
  cases hcontext : (loadContext 1).run sample.store with
  | error failure => simp [hcontext, Except.isOk, Except.toBool] at hload
  | ok context =>
    have hfloats : ∀ p ∈ [((0 : Int), sampleRequest)], p.2.FloatsReadBack := by
      intro p hp document hdocument x hx
      rw [List.mem_singleton.mp hp, readJsonBody_sampleRequest] at hdocument
      cases hdocument
      exact (numbers_sampleSettings hx).2
    obtain ⟨-, hfollows, -, hrecompiles⟩ :=
      run_followsLifecycle sample [(0, sampleRequest)] 1 context rfl rfl hcontext
    have hphase : (sample.run [(0, sampleRequest)]).store.phase 1 = .live 1 := by
      rw [run_singleton, asks_sampleRequest.handle_eq rfl]
      exact phase_sampleRequest
    obtain ⟨k, hk, hlive, -⟩ := Store.phase_eq_live_iff.mp hphase
    exact ⟨context, rfl, rfl, rfl, hfollows, k, hk, hlive, hrecompiles hfloats k hk⟩

/-! ### A float that is stored as the text of its neighbour -/

/-- A template that fails if the numbers `a` and `b` of a condition are equal: it prints the condition
then, which has no text. -/
def driftingTemplate : String :=
  "\x7b% for c in params.kpi_conditions %\x7d\x7b% if c.a == c.b %\x7d\x7b\x7b c \x7d\x7d\x7b% endif %\x7d\x7b% endfor %\x7d"

/-- An application like `sample` with this template. -/
def drifting : App :=
  start
    { sample.store with
      organizationSettings :=
        [⟨1, ⟨1, "REGULAR", driftingTemplate, "SELECT 2", "SELECT 3", "SELECT 4"⟩⟩] }
    {} ⟨"secret", 3600⟩

/-- What is loaded of its experiment. -/
def driftingContext : ExperimentContext where
  experiment :=
    ⟨1, 1, "banner", "pc", ⟨2024, 1, 1, 0, 0, 0⟩, ⟨2024, 2, 1, 0, 0, 0⟩, none, false⟩
  project := ⟨1, some 1, "shop", false⟩
  organization := ⟨1, "REGULAR", driftingTemplate, "SELECT 2", "SELECT 3", "SELECT 4"⟩
  design := .ofRows [] []
  models := []

/-- The float of the text `1e-28`. -/
def sentFloat : Binary64 := ⟨false, 8920298079412249, 928, by decide⟩

/-- The float of the text `1.0000000000000001e-28`, as which `1e-28` is read. -/
def storedFloat : Binary64 := ⟨false, 8920298079412250, 928, by decide⟩

/-- The float of the text `9.999999999999999e-29`, as which `1.0000000000000001e-28` is read. -/
def reloadedFloat : Binary64 := ⟨false, 8920298079412248, 928, by decide⟩

/-- Settings whose one condition has two numbers. -/
def driftingSettings (a b : Binary64) : Json :=
  .obj [("based_on", .str "overall"),
    ("kpi_definitions", .arr [.obj [("kpi_definition_name", .str "orders"),
      ("main_kpi", .bool true),
      ("kpi_conditions", .arr [.obj [("condition_type", .str "url"), ("a", .num (.float a)),
        ("b", .num (.float b))]])]])]

/-- What these settings read as. -/
def driftingReading (a b : Binary64) : Settings :=
  ⟨.overall, [⟨"orders", true, none, none, none,
    [⟨.url, [], [("a", .num (.float a)), ("b", .num (.float b))]⟩], []⟩]⟩

/-- The request that gives the experiment its KPI. -/
def driftingCreation : Request :=
  ⟨.post, "/api/v2/experiments/1/kpis", some ("Bearer " ++ drifting.key.issue 0 1 "ada"),
    Text.utf8 (driftingSettings sentFloat reloadedFloat).compact⟩

/-- The request that compiles the reaction query anew. -/
def driftingRegeneration : Request :=
  ⟨.post, "/api/v2/experiments/1/reaction_query",
    some ("Bearer " ++ drifting.key.issue 0 1 "ada"), []⟩

/-- How the three floats are read back. -/
theorem reread_driftingFloats : (Number.float sentFloat).reread = .float storedFloat ∧
    (Number.float storedFloat).reread = .float reloadedFloat ∧
      (Number.float reloadedFloat).reread = .float reloadedFloat := by
  decide +kernel

theorem modelsOf_of_models_eq_nil {s : Store} (h : s.models = []) (experiment : Int) :
    s.modelsOf experiment = [] := by
  simp [Store.modelsOf, h]

theorem loadContext_drifting : (loadContext 1).run drifting.store = .ok driftingContext :=
  loadContext_run_iff.mpr ⟨rfl, rfl, ⟨1, rfl, rfl⟩, rfl, (modelsOf_of_models_eq_nil rfl 1).symm⟩

theorem canonical_driftingSettings :
    canonical driftingContext (driftingSettings storedFloat reloadedFloat) =
      .ok ((driftingSettings storedFloat reloadedFloat).compact,
        driftingReading storedFloat reloadedFloat) :=
  canonical_ok_iff.mpr ⟨_, _, rfl, rfl, rfl⟩

theorem accepts_driftingSettings : ∃ text,
    driftingContext.Accepts drifting.warehouse (driftingSettings storedFloat reloadedFloat) text := by
  have hvalid : Settings.validate (driftingSettings storedFloat reloadedFloat) =
      .ok (driftingReading storedFloat reloadedFloat) :=
    Settings.validate_ok_iff.mpr ⟨rfl, rfl, rfl, by decide⟩
  have hcompiled : (compileQueries driftingContext (driftingReading storedFloat reloadedFloat)
      drifting.warehouse).isOk = true := by
    decide +kernel
  cases hqueries : compileQueries driftingContext (driftingReading storedFloat reloadedFloat)
      drifting.warehouse with
  | error failure => simp [hqueries, Except.isOk, Except.toBool] at hcompiled
  | ok queries => exact ⟨_, _, _, queries, hvalid, canonical_driftingSettings, hqueries⟩

theorem mapNumbers_driftingReading :
    (driftingReading storedFloat reloadedFloat).mapNumbers Number.reread =
      driftingReading reloadedFloat reloadedFloat := by
  obtain ⟨-, hstored, hreloaded⟩ := reread_driftingFloats
  simp only [driftingReading, Settings.mapNumbers, List.map, Definition.mapNumbers,
    ConditionGroup.mapNumbers, Json.itemsMapNumbers, Json.membersMapNumbers, Json.mapNumbers,
    hstored, hreloaded]

theorem compileReaction_driftingReading (query : String) :
    compileReaction driftingContext (driftingReading reloadedFloat reloadedFloat)
      drifting.warehouse ≠ .ok query := by
  have hfails : (compileReaction driftingContext (driftingReading reloadedFloat reloadedFloat)
      drifting.warehouse).isOk = false := by
    decide +kernel
  intro h
  simp [h, Except.isOk, Except.toBool] at hfails

theorem body_driftingCreation : driftingCreation.body =
    Text.utf8 (driftingSettings sentFloat reloadedFloat).compact := by
  rw [driftingCreation]

theorem readJsonBody_driftingCreation :
    readJsonBody driftingCreation.body = .ok (driftingSettings storedFloat reloadedFloat) := by
  have hread : (driftingSettings sentFloat reloadedFloat).mapNumbers Number.reread =
      driftingSettings storedFloat reloadedFloat := by
    obtain ⟨hsent, -, hreloaded⟩ := reread_driftingFloats
    simp only [driftingSettings, Json.mapNumbers, Json.membersMapNumbers, Json.itemsMapNumbers,
      hsent, hreloaded]
  have hnest : (driftingSettings sentFloat reloadedFloat).nesting ≤ Json.nestingLimit := by
    decide
  rw [body_driftingCreation, ← hread]
  refine readJsonBody_compact (Json.parse?_compact_of_fits ?_ hnest ?_)
  · simp [Json.WellFormed, Json.MembersWellFormed, Json.ItemsWellFormed]
  · simp [Json.numbers, Json.membersNumbers, Json.itemsNumbers, Number.Fits]

theorem asks_driftingCreation : drifting.Asks 0 driftingCreation ⟨1, "ada", true⟩
    (KpiAction.operation drifting.environment ⟨1, "ada", true⟩ 1
      (.create (driftingSettings storedFloat reloadedFloat))) := by
  have htoken : tokenUser drifting.key 0 driftingCreation.authorization = .ok 1 :=
    tokenUser_issue (by decide) (by decide) (by decide) (by decide)
  have hlength : (driftingSettings sentFloat reloadedFloat).print.length ≤ 200 := by decide +kernel
  have hsize : driftingCreation.body.length ≤ maxBodySize := by
    have hfour : 4 * 200 ≤ maxBodySize := by decide
    rw [body_driftingCreation, Json.compact]
    exact (Text.length_utf8_le _).trans ((Nat.mul_le_mul_left 4 hlength).trans hfour)
  have hsegment : readSegment ['1'] = .ok "1" := rfl
  refine ⟨by decide, ?_, .experimentKpi ['1'], .create ['1'], rfl, rfl, ?_⟩
  · simp only [authenticate, htoken]
    rfl
  · exact Endpoint.operation_create hsegment hsize rfl readJsonBody_driftingCreation

/-- The application once the KPI is created. -/
theorem handle_driftingCreation : ∃ s, s.user 1 = .ok ⟨1, "ada", true⟩ ∧
    (drifting.handle 0 driftingCreation).1 = { drifting with store := s } := by
  have hids : (drifting.store.kpis.map (·.id)).Nodup := List.nodup_nil
  obtain ⟨s, halike, hs⟩ := exists_handle_store hids 0 driftingCreation
  exact ⟨s, congrFun halike.user 1, hs⟩

theorem asks_driftingRegeneration :
    (drifting.handle 0 driftingCreation).1.Asks 0 driftingRegeneration ⟨1, "ada", true⟩
      (regenerateReaction drifting.environment 1) := by
  obtain ⟨s, huser, hs⟩ := handle_driftingCreation
  rw [hs]
  have htoken : tokenUser drifting.key 0 driftingRegeneration.authorization = .ok 1 :=
    tokenUser_issue (by decide) (by decide) (by decide) (by decide)
  refine ⟨by decide, ?_, .reactionQuery ['1'], .regenerate ['1'], rfl, rfl, rfl⟩
  · simp only [authenticate, htoken]
    exact huser

/-- **A live KPI whose settings compiled may not be compiled anew**: `1e-28` is read as its neighbour
and, from the text of that, as the neighbour on the other side, which the settings name too. -/
theorem not_regenerated_drifting :
    drifting.isOpen = true ∧ drifting.store.kpis = [] ∧
      (loadContext 1).run drifting.store = .ok driftingContext ∧
      drifting.Asks 0 driftingCreation ⟨1, "ada", true⟩ (KpiAction.operation drifting.environment
        ⟨1, "ada", true⟩ 1 (.create (driftingSettings storedFloat reloadedFloat))) ∧
      (∃ text, driftingContext.Accepts drifting.warehouse
        (driftingSettings storedFloat reloadedFloat) text) ∧
      (drifting.handle 0 driftingCreation).2.IsSuccess ∧
      (drifting.run [(0, driftingCreation)]).store.phase 1 = .live 1 ∧
      (drifting.run [(0, driftingCreation)]).Asks 0 driftingRegeneration ⟨1, "ada", true⟩
        (regenerateReaction drifting.environment 1) ∧
      ¬ ((drifting.run [(0, driftingCreation)]).handle 0 driftingRegeneration).2.IsSuccess := by
  rw [run_singleton]
  have hreceivable : (driftingSettings storedFloat reloadedFloat).IsReceivable :=
    isReceivable_of_readJsonBody readJsonBody_driftingCreation
  have hstart : drifting.Serves 1 driftingContext
      (· = driftingSettings storedFloat reloadedFloat) :=
    Serves.of_empty rfl rfl loadContext_drifting
  obtain ⟨hserves, henvironment⟩ := hstart.handle 0 fun document hdocument =>
    Except.ok.inj (hdocument.symm.trans readJsonBody_driftingCreation)
  have hafter : (drifting.store.phase 1).after drifting.store.freshKpi
      (.create (driftingSettings storedFloat reloadedFloat)) = some (.live 1) := rfl
  have hcreated : (drifting.handle 0 driftingCreation).2.IsSuccess :=
    hstart.succeeds (fun _ h => h ▸ hreceivable) asks_driftingCreation accepts_driftingSettings hafter
  have hphase : (drifting.handle 0 driftingCreation).1.store.phase 1 = .live 1 := by
    have hstep := hstart.steps asks_driftingCreation hcreated
    rw [hafter] at hstep
    exact (Option.some.inj hstep).symm
  refine ⟨rfl, rfl, loadContext_drifting, asks_driftingCreation, accepts_driftingSettings, hcreated,
    hphase, asks_driftingRegeneration, fun hsuccess => ?_⟩
  have hasks : (drifting.handle 0 driftingCreation).1.Asks 0 driftingRegeneration ⟨1, "ada", true⟩
      (regenerateReaction (drifting.handle 0 driftingCreation).1.environment 1) := by
    rw [henvironment]
    exact asks_driftingRegeneration
  have hready := (hserves.regenerates (fun _ h => h ▸ hreceivable) hasks hphase).mp hsuccess
  obtain ⟨k, hk, hlive, -⟩ := Store.phase_eq_live_iff.mp hphase
  obtain ⟨settings, query, hsettings, hquery⟩ := hready k hk hlive
  rw [henvironment] at hquery
  -- The row is stored for the document that was sent, so what it is read as is known.
  obtain ⟨link, document, rfl, hfor⟩ := hserves.isStoredFor hk
  obtain ⟨read, queries, hcanonical, -, hagain⟩ := hfor.revalidate hreceivable
  have hread : read = driftingReading storedFloat reloadedFloat := by
    have hsame := canonical_driftingSettings.symm.trans hcanonical
    exact (Prod.mk.inj (Except.ok.inj hsame)).2.symm
  rw [hsettings, hread, mapNumbers_driftingReading] at hagain
  cases hagain
  exact compileReaction_driftingReading query hquery

end App

end ExperimentKpi

/-
# An experiment gets its KPI once

However the steps of requests are interleaved, an experiment gets its KPI once
(`System.run_createsOnce`): two creations may both find that it has none, but a command that creates
applies only while there is none, and rows stay. The other requests that would create it are refused
and change nothing, and the id that was told is that of the row ever after.

Key definitions: `Request.CreatesFor`, `System.CreatesOnce`.
Key theorems: `createKpi_run_cases`, `System.exists_created`, `System.answered_create`,
`System.run_createsOnce`.
-/
import ExperimentKpi.Proofs.Api.History
import ExperimentKpi.Proofs.Api.Lifecycle

namespace ExperimentKpi

/-! ### Requests for new KPIs -/

theorem Failure.status_ne_created (f : Failure) : f.response.status ≠ 201 := by
  intro h
  refine f.not_isSuccess_response ?_
  unfold Response.IsSuccess
  omega

/-- A creation that is refused at once tells of none. -/
theorem Endpoint.status_of_operation_create {env : Environment} {user : User} {query : List Char}
    {body : List UInt8} {segment : List Char} {refusal : Refusal}
    (h : (create segment).operation env user query body = .error refusal) :
    refusal.response.status ≠ 201 := by
  have hlift : ∀ {α : Type} {x : Except Failure α}, liftFailure x = .error refusal →
      refusal.response.status ≠ 201 := by
    intro α x hx
    cases x with
    | ok => cases hx
    | error failure =>
      cases hx
      exact failure.status_ne_created
  simp only [operation, bind_error_iff] at h
  obtain h | ⟨raw, -, h | ⟨body', -, h | ⟨id, -, h | ⟨document, -, h⟩⟩⟩⟩ := h
  · unfold readSegment at h
    split at h
    · cases h
    · cases h
      decide
  · unfold readBody at h
    split at h
    · cases h
    · cases h
      decide
  · exact hlift h
  · exact hlift h
  · cases h

/-- A request is one to give an experiment its KPI. -/
def Request.CreatesFor (r : Request) (experiment : Int) : Prop :=
  ∃ route segment, Route.ofSegments? r.segments = some route ∧
    route.endpoint? r.method = some (.create segment) ∧
      (Endpoint.create segment).experiment? = some experiment

namespace Request.CreatesFor

variable {r : Request} {experiment : Int}

theorem method_eq (h : r.CreatesFor experiment) : r.method = .post := by
  obtain ⟨route, segment, -, hendpoint, -⟩ := h
  cases route <;> cases hm : r.method <;> simp_all [Route.endpoint?]

theorem delivered_eq (h : r.CreatesFor experiment) (response : Response) :
    r.delivered response = response := by
  unfold delivered
  rw [h.method_eq]

/-- What such a request comes to at first: its creation, or a response that tells of none. -/
theorem operationOf_cases (h : r.CreatesFor experiment) (app : App) (now : Int) :
    (∃ user document, app.authenticate now r.authorization = .ok user ∧
        readJsonBody r.body = .ok document ∧
        app.operationOf now r = .ok (createKpi app.environment user experiment document)) ∨
      ∃ response, app.operationOf now r = .error response ∧ response.status ≠ 201 := by
  obtain ⟨route, segment, hroute, hendpoint, he⟩ := h
  have hmethod : r.method ≠ .options := by
    rw [method_eq ⟨route, segment, hroute, hendpoint, he⟩]
    decide
  rw [App.operationOf_eq_serviceOperation hmethod hroute hendpoint]
  unfold App.serviceOperation
  rw [hendpoint]
  cases app.authenticate now r.authorization with
  | error failure => exact .inr ⟨_, rfl, failure.status_ne_created⟩
  | ok user =>
    cases hop : (Endpoint.create segment).operation app.environment user r.query r.body with
    | error refusal =>
      refine .inr ⟨_, ?_, Endpoint.status_of_operation_create hop⟩
      simp only [hop]
    | ok op =>
      have hparts := hop
      simp only [Endpoint.operation, bind_ok_iff] at hparts
      obtain ⟨raw, hr, body, hb, id, hi, document, hd, hparts⟩ := hparts
      cases hparts
      have hid : (Endpoint.create segment).experiment? = some id :=
        Endpoint.experiment?_eq rfl hr hi
      obtain rfl := Option.some.inj (hid.symm.trans he)
      rw [liftFailure_ok_iff, eq_of_readBody hb] at hd
      refine .inl ⟨user, document, rfl, hd, ?_⟩
      simp only [hop]

end Request.CreatesFor

theorem Store.eq_database_of_kpiOf {s : Store} {experiment : Int} {failure : Failure}
    (h : s.kpiOf experiment = .error failure) : failure = .database := by
  unfold kpiOf at h
  split at h
  · cases h
  · split at h
    · cases h
    · cases h
      rfl

/-- What a creation comes to with settings that are accepted and compile. -/
theorem createKpi_run_cases (env : Environment) {s : Store} (user : User) {experiment : Int}
    {context : ExperimentContext} {document : Json} {text : String}
    (hload : (loadContext experiment).run s = .ok context)
    (haccepts : context.Accepts env.warehouse document text) :
    (s.kpiOf experiment = .error .database ∧
        Inquiry.run s (createKpi env user experiment document) = .error .database) ∨
      Inquiry.run s (createKpi env user experiment document) = .error (.kpiExists experiment) ∨
      ∃ project name queries, Inquiry.run s (createKpi env user experiment document) =
        .ok (.write (.create experiment project name user.id text queries)) := by
  obtain ⟨accepted, settings, queries, hvalid, hcanonical, hcompiled⟩ := haccepts
  cases hrow : s.kpiOf experiment with
  | ok row =>
    cases row with
    | some k => exact .inr (.inl (createKpi_run hload hvalid hrow hcanonical hcompiled))
    | none =>
      exact .inr (.inr ⟨_, _, _, createKpi_run hload hvalid hrow hcanonical hcompiled⟩)
  | error failure =>
    obtain rfl := Store.eq_database_of_kpiOf hrow
    refine .inl ⟨rfl, ?_⟩
    simp only [createKpi, Inquiry.run_bind, Inquiry.run_query, Inquiry.run_check]
    rw [bind_of_ok hload, bind_of_ok hvalid, bind_of_error hrow]

theorem Command.apply_create_of_exists {s : Store} {experiment project user : Int}
    {name text : String} {queries : Queries} (h : ∃ k ∈ s.kpis, k.experiment = experiment) :
    (create experiment project name user text queries).apply s = .error (.kpiExists experiment) := by
  obtain ⟨k, hk, hown⟩ := h
  have hany : (s.kpis.any fun k => k.experiment == experiment) = true :=
    List.any_eq_true.mpr ⟨k, hk, by simpa using hown⟩
  simp only [apply]
  exact if_pos hany

/-- A creation that cannot be applied finds a KPI there. -/
theorem Command.eq_kpiExists_of_apply_create {s : Store} {experiment project user : Int}
    {name text : String} {queries : Queries} {failure : Failure}
    (h : (create experiment project name user text queries).apply s = .error failure) :
    failure = .kpiExists experiment := by
  simp only [apply] at h
  split at h
  · cases h
    rfl
  · cases h

namespace System

variable {app : App} {events : List Event} {i : Nat} {now : Int} {r : Request} {response : Response}
  {experiment : Int}

/-- A request that creates and tells so applied its command in its last step. -/
theorem exists_created (hkeyed : app.store.Keyed) (hr : r.CreatesFor experiment)
    (h : ((of app).run events).Answered i now r response)
    (hstatus : response.status = 201) :
    ∃ before after project name user text queries s kpi,
      events = before ++ Event.advance i :: after ∧
      (Command.create experiment project name user text queries).apply
        ((of app).run before).app.store = .ok (s, kpi) ∧
      ((of app).run (before ++ [Event.advance i])).app.store = s ∧
      response = (Answer.created kpi).response := by
  obtain ⟨before, after, progress, hevents, ht, hends⟩ := h.exists_ends
  have hne : ∀ failure : Failure, (r.delivered failure.response).status ≠ 201 := by
    intro failure
    rw [hr.delivered_eq]
    exact failure.status_ne_created
  generalize happ : ((of app).run (before ++ [Event.advance i])).app = app' at hends
  cases hends with
  | closed | failed | conflict => exact absurd hstatus (hne _)
  | refused hrefused =>
    rw [hr.delivered_eq] at hstatus
    rcases hr.operationOf_cases ((of app).run before).app now with ⟨user, document, -, -, hop⟩ | ⟨response', hop, hne⟩
    · rw [hop] at hrefused
      cases hrefused
    · rw [hop] at hrefused
      cases hrefused
      exact absurd hstatus hne
  | @settled decision s answer isOpen settled =>
    obtain ⟨read, later, -, hread⟩ := (sound_run hkeyed before).operates i now r _ ht
    obtain ⟨op, hop, -⟩ := hread.leads
    rcases hr.operationOf_cases app now with
      ⟨user, document, -, -, hop'⟩ | ⟨response', hop', -⟩
    · have hrun : Inquiry.run ((of app).run read).app.store
          ((KpiAction.create document).operation app.environment user experiment) = .ok decision :=
        hread.run_eq hop'
      obtain ⟨-, project, name, text, queries, rfl⟩ := KpiAction.endsIn_of_run hrun
      obtain ⟨kpi, happly⟩ := Decision.settle_write_ok settled
      simp only [Decision.settle, happly, Except.map, Except.ok.injEq, Prod.mk.injEq, true_and] at settled
      refine ⟨before, after, project, name, user.id, text, queries, s, kpi, hevents, happly, ?_, ?_⟩
      · rw [happ]
      · rw [hr.delivered_eq, ← settled]
        rfl
    · rw [hop] at hop'
      cases hop'

/-- The row that a creation puts in is there ever after. -/
theorem exists_row_of_created (hkeyed : app.store.Keyed) {before after : List Event}
    {project user : Int} {name text : String} {queries : Queries} {s : Store} {kpi : Int}
    (hevents : events = before ++ Event.advance i :: after)
    (happly : (Command.create experiment project name user text queries).apply
      ((of app).run before).app.store = .ok (s, kpi))
    (hstep : ((of app).run (before ++ [Event.advance i])).app.store = s) :
    ∃ k ∈ ((of app).run events).app.store.kpis, k.experiment = experiment ∧ k.id = kpi := by
  obtain ⟨-, -, rfl⟩ := Command.apply_create_ok happly
  have hevolves := (sound_run hkeyed events).evolves (before ++ [Event.advance i]) after
    (by rw [hevents, List.append_assoc, List.singleton_append])
  have hrow : KpiRow.created kpi experiment project name user text queries ∈
      ((of app).run (before ++ [Event.advance i])).app.store.kpis := by
    rw [hstep]
    exact List.mem_append_right _ (List.mem_singleton_self _)
  obtain ⟨k, hk, hsame⟩ := hevolves.rows.exists_mem hrow
  exact ⟨k, hk, congrArg KpiIdentity.experiment hsame, congrArg KpiIdentity.id hsame⟩

/-- After one creation no other one applies. -/
theorem not_created_again (hkeyed : app.store.Keyed) {before between : List Event}
    {project user project' user' : Int} {name text name' text' : String} {queries queries' : Queries}
    {s s' : Store} {kpi kpi' : Int}
    (happly : (Command.create experiment project name user text queries).apply
      ((of app).run before).app.store = .ok (s, kpi))
    (hstep : ((of app).run (before ++ [Event.advance i])).app.store = s)
    (happly' : (Command.create experiment project' name' user' text' queries').apply
      ((of app).run (before ++ Event.advance i :: between)).app.store = .ok (s', kpi')) :
    False := by
  obtain ⟨k, hk, hown, -⟩ := exists_row_of_created hkeyed rfl happly hstep
  exact (Command.apply_create_ok happly').1 k hk hown

/-- What a creation with settings that are accepted and compile has come to, on the store of its last
read: a failed look at the row, a row that is there, or a command. -/
theorem finished_create (hkeyed : app.store.Keyed) {user : User} {document : Json}
    {context : ExperimentContext} {text : String} {before : List Event}
    {result : Except Failure Decision}
    (ht : ((of app).run before).tasks[i]? = some ⟨now, r, .operating (.finished result)⟩)
    (hasks : app.Asks now r user (createKpi app.environment user experiment document))
    (hload : (loadContext experiment).run app.store = .ok context)
    (haccepts : context.Accepts app.warehouse document text) :
    (result = .error .database ∧ ∃ read later, before = read ++ later ∧
        ((of app).run read).app.store.kpiOf experiment = .error .database) ∨
      result = .error (.kpiExists experiment) ∨
      ∃ project name queries,
        result = .ok (.write (.create experiment project name user.id text queries)) := by
  obtain ⟨read, later, hsplit, hread⟩ := (sound_run hkeyed before).operates i now r _ ht
  have hrun : Inquiry.run ((of app).run read).app.store
      ((KpiAction.create document).operation app.environment user experiment) = result :=
    hread.run_eq hasks.operationOf_eq
  obtain ⟨kpi, hload'⟩ :=
    ((sound_run hkeyed read).evolves [] read rfl).alike.loadContext_run experiment
  have hloaded : (loadContext experiment).run ((of app).run read).app.store =
      .ok (context.withLink kpi) := by
    have hstart : (loadContext experiment).run ((of app).run []).app.store = .ok context := hload
    rw [hload', hstart]
    rfl
  rw [← hrun]
  rcases createKpi_run_cases app.environment user hloaded
    (ExperimentContext.accepts_withLink.mpr haccepts) with ⟨hrow, hfailed⟩ | hfound | hcreates
  · exact .inl ⟨hfailed, read, later, hsplit, hrow⟩
  · exact .inr (.inl hfound)
  · exact .inr (.inr hcreates)

/-- A creation with settings that are accepted and compile is told that it created the KPI or that there
is one already, unless the row could not be read when it was looked up. -/
theorem answered_create (hkeyed : app.store.Keyed) {user : User} {document : Json}
    {context : ExperimentContext} {text : String}
    (h : ((of app).run events).Answered i now r response)
    (hasks : app.Asks now r user (createKpi app.environment user experiment document))
    (hload : (loadContext experiment).run app.store = .ok context)
    (haccepts : context.Accepts app.warehouse document text) :
    response.status = 201 ∨ response = (KpiAction.create document).refused experiment ∨
      response = Failure.database.response ∧ ∃ read later, events = read ++ later ∧
        ((of app).run read).app.store.kpiOf experiment = .error .database := by
  obtain ⟨before, after, progress, hevents, ht, hends⟩ := h.exists_ends
  have hdelivered : ∀ response', r.delivered response' = response' := hasks.delivered_eq
  have hevolves := (sound_run hkeyed before).evolves [] before rfl
  have hrefusal : Failure.response (.kpiExists experiment) =
      (KpiAction.create document).refused experiment :=
    KpiAction.response_refusal (.create document) experiment
  generalize ((of app).run (before ++ [Event.advance i])).app = app' at hends
  cases hends with
  | refused hop =>
    rw [hevolves.operationOf] at hop
    cases hop.symm.trans hasks.operationOf_eq
  | closed closed =>
    rw [hevolves.isOpen] at closed
    exact absurd (App.isOpen_of_authenticate hasks.authenticated) closed
  | failed =>
    rw [hdelivered]
    rcases finished_create hkeyed ht hasks hload haccepts with
      ⟨hfailure, read, later, hsplit, hrow⟩ | hfailure | ⟨_, _, _, hdecision⟩
    · cases hfailure
      exact .inr (.inr ⟨rfl, read, _, by rw [hevents, hsplit, List.append_assoc], hrow⟩)
    · cases hfailure
      exact .inr (.inl hrefusal)
    · cases hdecision
  | conflict isOpen unsettled =>
    rw [hdelivered]
    rcases finished_create hkeyed ht hasks hload haccepts with
      ⟨hfailure, -⟩ | hfailure | ⟨project, name, queries, hdecision⟩
    · cases hfailure
    · cases hfailure
    · cases hdecision
      cases happly : (Command.create experiment project name user.id text queries).apply
          ((of app).run before).app.store with
      | error failure =>
        simp only [Decision.settle, happly, Except.map] at unsettled
        cases unsettled
        rw [Command.eq_kpiExists_of_apply_create happly]
        exact .inr (.inl hrefusal)
      | ok p => simp [Decision.settle, happly, Except.map] at unsettled
  | settled isOpen settled =>
    rw [hdelivered]
    rcases finished_create hkeyed ht hasks hload haccepts with
      ⟨hfailure, -⟩ | hfailure | ⟨project, name, queries, hdecision⟩
    · cases hfailure
    · cases hfailure
    · cases hdecision
      obtain ⟨kpi, happly⟩ := Decision.settle_write_ok settled
      simp only [Decision.settle, happly, Except.map, Except.ok.injEq, Prod.mk.injEq,
        true_and] at settled
      rw [← settled]
      exact .inl rfl

/-- What holds of the KPI of an experiment after events, whatever they are: there is one row at most;
of the requests that would create it, one at most is told that it did; the id that it is told is that
of the row ever after; every other one with settings that are accepted and compile is told that there is a KPI
already, unless the row could not be read when it was looked up; and a request without success has
changed nothing in any of its steps. -/
structure CreatesOnce (app : App) (events : List Event) (experiment : Int) : Prop where
  experiments : (((of app).run events).app.store.kpis.map (·.experiment)).Nodup
  once : ∀ i j now now' (r r' : Request) (response response' : Response),
    r.CreatesFor experiment → r'.CreatesFor experiment →
    ((of app).run events).Answered i now r response → response.status = 201 →
    ((of app).run events).Answered j now' r' response' → response'.status = 201 → i = j
  reported : ∀ i now (r : Request) (response : Response), r.CreatesFor experiment →
    ((of app).run events).Answered i now r response → response.status = 201 →
      ∃ kpi, response = ⟨201, .document (.obj [("kpiId", .int kpi)])⟩ ∧ ∀ later,
        ∃ k ∈ ((of app).run (events ++ later)).app.store.kpis, k.experiment = experiment ∧ k.id = kpi
  refused : ∀ i now (r : Request) (response : Response) user document context text,
    ((of app).run events).Answered i now r response →
    app.Asks now r user (createKpi app.environment user experiment document) →
    (loadContext experiment).run app.store = .ok context →
    context.Accepts app.warehouse document text →
      response.status = 201 ∨ response = (KpiAction.create document).refused experiment ∨
        response = Failure.database.response ∧ ∃ read later, events = read ++ later ∧
          ((of app).run read).app.store.kpiOf experiment = .error .database
  unchanged : ∀ i now (r : Request) (response : Response) before after,
    ((of app).run events).Answered i now r response → ¬ response.IsSuccess →
    events = before ++ .advance i :: after →
      ((of app).run (before ++ [.advance i])).app = ((of app).run before).app

/-- **An experiment gets its KPI once**, however the steps of requests are interleaved. The table of
KPIs has its keys at the start. -/
theorem run_createsOnce (app : App) (events : List Event) (experiment : Int)
    (hkeyed : app.store.Keyed) : CreatesOnce app events experiment where
  experiments := (sound_run hkeyed events).keyed.experiments
  once i j now now' r r' response response' hr hr' h hstatus h' hstatus' := by
    obtain ⟨before, after, _, _, _, _, _, s, kpi, hevents, happly, hstep, -⟩ :=
      exists_created hkeyed hr h hstatus
    obtain ⟨before', after', _, _, _, _, _, s', kpi', hevents', happly', hstep', -⟩ :=
      exists_created hkeyed hr' h' hstatus'
    -- Either both commands were applied in the same step, or one of them after the other.
    rw [hevents] at hevents'
    rcases List.append_eq_append_iff.mp hevents' with ⟨between, rfl, hafter⟩ | ⟨between, rfl, hafter⟩
    · cases between with
      | nil => cases hafter; rfl
      | cons event between =>
        cases hafter
        exact (not_created_again hkeyed happly hstep happly').elim
    · cases between with
      | nil => cases hafter; rfl
      | cons event between =>
        cases hafter
        exact (not_created_again hkeyed happly' hstep' happly).elim
  reported i now r response hr h hstatus := by
    obtain ⟨before, after, _, _, _, _, _, s, kpi, hevents, happly, hstep, rfl⟩ :=
      exists_created hkeyed hr h hstatus
    refine ⟨kpi, rfl, fun later => ?_⟩
    have hsplit : events ++ later = before ++ .advance i :: (after ++ later) := by
      rw [hevents, List.append_assoc, List.cons_append]
    exact exists_row_of_created hkeyed hsplit happly hstep
  refused i now r response user document context text h hasks hload haccepts :=
    answered_create hkeyed h hasks hload haccepts
  unchanged i now r response before after h hfailed hevents :=
    app_step_of_not_isSuccess hevents h hfailed

/-! ### Two administrators who give one experiment its KPI -/

/-- Two requests for the KPI of the sample's experiment: both read all that they read before one of
them writes. -/
def sampleRace : List Event :=
  [.arrive 0 App.sampleRequest, .arrive 0 App.sampleRequest] ++
    (List.replicate 8 (.advance 0) ++ (List.replicate 8 (.advance 1) ++ [.advance 0, .advance 1]))

/-- The sample's request as it comes. -/
def sampleReceived : Task :=
  ⟨0, App.sampleRequest, .received⟩

/-- The sample's request when it has come to a command. -/
def sampleDecided (c : Command) : Task :=
  ⟨0, App.sampleRequest, .operating (.finished (.ok (.write c)))⟩

/-- The command that the sample's request comes to. -/
theorem exists_apply_sampleRequest : ∃ project name text queries s,
    Inquiry.run App.sample.store (createKpi App.sample.environment ⟨1, "ada", true⟩ 1
        App.sampleSettings) = .ok (.write (.create 1 project name 1 text queries)) ∧
      (Command.create 1 project name 1 text queries).apply App.sample.store = .ok (s, 1) ∧
      ∃ k ∈ s.kpis, k.experiment = 1 := by
  have hkpis := App.kpis_sampleRequest
  rcases App.perform_cases App.sample (createKpi App.sample.environment ⟨1, "ada", true⟩ 1
    App.sampleSettings) with hkept | ⟨c, s, kpi, -, hrun, happly, -⟩
  · rw [App.perform_of_isOpen rfl] at hkept
    have hsame : ((createKpi App.sample.environment ⟨1, "ada", true⟩ 1 App.sampleSettings).run
      App.sample.store).1 = App.sample.store := congrArg App.store hkept
    rw [hsame] at hkpis
    cases hkpis
  · have haction : Inquiry.run App.sample.store ((KpiAction.create App.sampleSettings).operation
        App.sample.environment ⟨1, "ada", true⟩ 1) = .ok (.write c) := hrun
    obtain ⟨-, project, name, text, queries, hc⟩ := KpiAction.endsIn_of_run haction
    cases hc
    obtain ⟨-, rfl, hs⟩ := Command.apply_create_ok happly
    refine ⟨project, name, text, queries, s, hrun, happly, ?_⟩
    rw [hs]
    exact ⟨_, List.mem_append_right _ (List.mem_singleton_self _), rfl⟩

/-- The first one is told the id, the second one that there is a KPI already. -/
theorem run_createsOnce_sampleRace :
    App.sample.store.Keyed ∧ CreatesOnce App.sample sampleRace 1 ∧
      ((of App.sample).run sampleRace).Answered 0 0 App.sampleRequest
        ⟨201, .document (.obj [("kpiId", .int 1)])⟩ ∧
      ((of App.sample).run sampleRace).Answered 1 0 App.sampleRequest
        ((KpiAction.create App.sampleSettings).refused 1) := by
  have hkeyed : App.sample.store.Keyed := (App.isConsistent_of_empty rfl).keyed
  have hop := App.asks_sampleRequest.operationOf_eq
  have hdelivered := App.asks_sampleRequest.delivered_eq
  obtain ⟨project, name, text, queries, s, hrun, happly, hrow⟩ := exists_apply_sampleRequest
  have hagain : (Command.create 1 project name 1 text queries).apply s = .error (.kpiExists 1) :=
    Command.apply_create_of_exists hrow
  have hanswer : (Command.create 1 project name 1 text queries).answer 1 = .created 1 := rfl
  generalize Command.create 1 project name 1 text queries = c at hrun happly hagain hanswer
  have hread : ∀ i (tasks : List Task), tasks[i]? = some sampleReceived →
      run ⟨App.sample, tasks⟩ (List.replicate 8 (.advance i)) =
        ⟨App.sample, tasks.set i (sampleDecided c)⟩ := fun i tasks h =>
    run_to_command rfl hop h (createKpi_reads hrun) hrun
  have hfirst : run ⟨App.sample, [sampleReceived, sampleReceived]⟩ (List.replicate 8 (.advance 0)) =
      ⟨App.sample, [sampleDecided c, sampleReceived]⟩ := hread 0 _ rfl
  have hsecond : run ⟨App.sample, [sampleDecided c, sampleReceived]⟩
      (List.replicate 8 (.advance 1)) = ⟨App.sample, [sampleDecided c, sampleDecided c]⟩ :=
    hread 1 _ rfl
  have hcreated : step ⟨App.sample, [sampleDecided c, sampleDecided c]⟩ (.advance 0) =
      ⟨{ App.sample with store := s },
        [⟨0, App.sampleRequest, .answered ⟨201, .document (.obj [("kpiId", .int 1)])⟩⟩,
          sampleDecided c]⟩ := by
    have hstep : step ⟨App.sample, [sampleDecided c, sampleDecided c]⟩ (.advance 0) =
        ⟨{ App.sample with store := s },
          [⟨0, App.sampleRequest, .answered (App.sampleRequest.delivered (c.answer 1).response)⟩,
            sampleDecided c]⟩ := step_of_apply_ok rfl rfl happly
    rw [hstep, hdelivered, hanswer]
    rfl
  have hrefused : step ⟨{ App.sample with store := s },
        [⟨0, App.sampleRequest, .answered ⟨201, .document (.obj [("kpiId", .int 1)])⟩⟩,
          sampleDecided c]⟩ (.advance 1) =
      ⟨{ App.sample with store := s },
        [⟨0, App.sampleRequest, .answered ⟨201, .document (.obj [("kpiId", .int 1)])⟩⟩,
          ⟨0, App.sampleRequest, .answered ((KpiAction.create App.sampleSettings).refused 1)⟩]⟩ := by
    rw [← KpiAction.response_refusal, ← hdelivered (Failure.response _)]
    exact step_of_apply_error rfl rfl hagain
  have hlast : (of App.sample).run sampleRace = ⟨{ App.sample with store := s },
      [⟨0, App.sampleRequest, .answered ⟨201, .document (.obj [("kpiId", .int 1)])⟩⟩,
        ⟨0, App.sampleRequest, .answered ((KpiAction.create App.sampleSettings).refused 1)⟩]⟩ := by
    have harrived : (of App.sample).run [.arrive 0 App.sampleRequest, .arrive 0 App.sampleRequest] =
        ⟨App.sample, [sampleReceived, sampleReceived]⟩ := rfl
    unfold sampleRace
    rw [run_append, run_append, run_append, harrived, hfirst, hsecond]
    show step (step ⟨App.sample, [sampleDecided c, sampleDecided c]⟩ (.advance 0)) (.advance 1) = _
    rw [hcreated, hrefused]
  refine ⟨hkeyed, run_createsOnce App.sample sampleRace 1 hkeyed, ?_, ?_⟩
  · rw [hlast]
    rfl
  · rw [hlast]
    rfl

end System

end ExperimentKpi

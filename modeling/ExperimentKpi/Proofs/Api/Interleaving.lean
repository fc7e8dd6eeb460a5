/-
# Requests that run side by side

A request takes one step for finding its user and its operation, one step for each further read, and one
last step in which the operation's command, if it comes to one, is applied as a whole and the request
is answered. The steps of any number of requests may come in any order (`System.run`). A request whose
steps come one after another is handled as `App.handle` handles it (`System.exists_run_alone`). What
requests change of an application is little (`App.EvolvesTo`), and none of it matters to the first step
of another request (`App.EvolvesTo.operationOf`).

Key definitions: `App.operationOf`, `Task`, `System`, `System.run`, `App.EvolvesTo`.
Key theorems: `App.handle_eq_operationOf`, `System.exists_run_alone`, `App.EvolvesTo.operationOf`.
-/
import ExperimentKpi.Proofs.Api.Consistency
import ExperimentKpi.Proofs.Service.Interference

namespace ExperimentKpi

/-! ### Steps -/

/-- The response as it is sent: a `HEAD` gets no body. -/
def Request.delivered (r : Request) (response : Response) : Response :=
  match r.method with
  | .head => response.bodiless
  | _ => response

namespace App

/-- What a request to an operation of the service comes to at first: its user is read, and it is found
out which operation is asked for; or it is answered at once. -/
def serviceOperation (app : App) (now : Int) (route : Route) (r : Request) :
    Except Response Operation :=
  match app.authenticate now r.authorization with
  | .error e => .error e.response
  | .ok user =>
    match route.endpoint? r.method with
    | none => .error (.bare 405)
    | some endpoint =>
      match endpoint.operation app.environment user r.query r.body with
      | .error refusal => .error refusal.response
      | .ok op => .ok op

/-- What a request comes to at first. -/
def operationOf (app : App) (now : Int) (r : Request) : Except Response Operation :=
  if r.method = .options then .error (.bare 200)
  else
    match Route.ofSegments? r.segments with
    | none => .error (.bare 404)
    | some .health => .error (probe r.method ⟨200, .text "OK"⟩)
    | some .readiness => .error (probe r.method app.readiness)
    | some route => app.serviceOperation now route r

end App

/-- How far a request has come. -/
inductive Progress where
  | received
  /-- The rest of the operation is to be done. -/
  | operating (rest : Operation)
  | answered (response : Response)

/-- A request that came at a time. -/
structure Task where
  now : Int
  request : Request
  progress : Progress

/-- One step of a task: it finds out its operation, reads once, or ends. -/
def Task.advance (t : Task) (app : App) : App × Progress :=
  match t.progress with
  | .received =>
    match app.operationOf t.now t.request with
    | .error response => (app, .answered (t.request.delivered response))
    | .ok op => (app, .operating op)
  | .operating (.read next) =>
    match app.database with
    | .error e => (app, .answered (t.request.delivered e.response))
    | .ok s => (app, .operating (next s))
  | .operating (.finished result) =>
    let (app', result) := app.perform (.finished result)
    (app', .answered (t.request.delivered (App.responseTo result)))
  | .answered response => (app, .answered response)

/-- The application and the tasks that were given to it, in the order in which they came. -/
structure System where
  app : App
  tasks : List Task

/-- What happens next: a request comes, or a task takes a step. -/
inductive Event where
  | arrive (now : Int) (r : Request)
  | advance (i : Nat)

namespace System

/-- The system before any request. -/
def of (app : App) : System :=
  ⟨app, []⟩

/-- The system after an event. -/
def step (sys : System) : Event → System
  | .arrive now r => { sys with tasks := sys.tasks ++ [⟨now, r, .received⟩] }
  | .advance i =>
    match sys.tasks[i]? with
    | none => sys
    | some t =>
      let (app, progress) := t.advance sys.app
      ⟨app, sys.tasks.set i { t with progress }⟩

/-- The system after events. -/
def run (sys : System) (events : List Event) : System :=
  events.foldl step sys

end System

/-! ### Requests alone -/

namespace App

variable {app : App} {now : Int} {r : Request}

theorem serve_eq_serviceOperation (route : Route) :
    app.serve now route r =
      match app.serviceOperation now route r with
      | .error response => (app, response)
      | .ok op => ((app.perform op).1, responseTo (app.perform op).2) := by
  unfold serve serviceOperation
  cases app.authenticate now r.authorization with
  | error e => rfl
  | ok user =>
    cases route.endpoint? r.method with
    | none => rfl
    | some endpoint =>
      dsimp only
      cases endpoint.operation app.environment user r.query r.body <;> rfl

theorem answer_eq_operationOf (hm : r.method ≠ .options) :
    app.answer now r =
      match app.operationOf now r with
      | .error response => (app, response)
      | .ok op => ((app.perform op).1, responseTo (app.perform op).2) := by
  unfold answer operationOf
  rw [if_neg hm]
  cases Route.ofSegments? r.segments with
  | none => rfl
  | some route =>
    cases route with
    | health => rfl
    | readiness => rfl
    | _ => exact serve_eq_serviceOperation _

/-- **A request is handled as what it comes to at first says.** -/
theorem handle_eq_operationOf :
    app.handle now r =
      match app.operationOf now r with
      | .error response => (app, r.delivered response)
      | .ok op => ((app.perform op).1, r.delivered (responseTo (app.perform op).2)) := by
  unfold handle Request.delivered
  cases hm : r.method with
  | options => simp only [operationOf, hm, if_true]
  | head =>
    have hmethod : r.method ≠ .options := by
      rw [hm]
      decide
    simp only [answer_eq_operationOf hmethod]
    cases app.operationOf now r <;> rfl
  | _ =>
    have hmethod : r.method ≠ .options := by
      rw [hm]
      decide
    simp only [answer_eq_operationOf hmethod]

end App

/-! ### What an operation was asked with -/

namespace App

variable {app : App} {now : Int} {r : Request} {op : Operation}

theorem exists_of_operationOf (h : app.operationOf now r = .ok op) :
    ∃ user route endpoint, app.authenticate now r.authorization = .ok user ∧
      Route.ofSegments? r.segments = some route ∧ route.endpoint? r.method = some endpoint ∧
        endpoint.operation app.environment user r.query r.body = .ok op := by
  have hservice : ∃ route, Route.ofSegments? r.segments = some route ∧
      app.serviceOperation now route r = .ok op := by
    unfold operationOf at h
    split at h
    · cases h
    · split at h
      · cases h
      · cases h
      · cases h
      · exact ⟨_, by assumption, h⟩
  obtain ⟨route, hroute, h⟩ := hservice
  unfold serviceOperation at h
  cases hauth : app.authenticate now r.authorization with
  | error e => simp [hauth] at h
  | ok user =>
    cases hendpoint : route.endpoint? r.method with
    | none => simp [hauth, hendpoint] at h
    | some endpoint =>
      cases hop : endpoint.operation app.environment user r.query r.body with
      | error refusal => simp [hauth, hendpoint, hop] at h
      | ok op' =>
        simp only [hauth, hendpoint, hop] at h
        cases h
        exact ⟨user, route, endpoint, rfl, hroute, hendpoint, hop⟩

/-- A request to an endpoint is one to the service. -/
theorem operationOf_eq_serviceOperation {route : Route} {endpoint : Endpoint}
    (hmethod : r.method ≠ .options) (hroute : Route.ofSegments? r.segments = some route)
    (hendpoint : route.endpoint? r.method = some endpoint) :
    app.operationOf now r = app.serviceOperation now route r := by
  unfold operationOf
  rw [if_neg hmethod, hroute]
  cases route with
  | health => cases hendpoint
  | readiness => cases hendpoint
  | _ => rfl

theorem Asks.operationOf_eq {user : User} (h : app.Asks now r user op) :
    app.operationOf now r = .ok op := by
  obtain ⟨route, endpoint, hroute, hendpoint, hop⟩ := h.operation
  rw [operationOf_eq_serviceOperation h.method.2 hroute hendpoint]
  simp only [serviceOperation, h.authenticated, hendpoint, hop]

theorem Asks.delivered_eq {user : User} (h : app.Asks now r user op) (response : Response) :
    r.delivered response = response := by
  unfold Request.delivered
  split
  · rename_i hhead
    exact absurd hhead h.method.1
  · rfl

end App

namespace System

variable {sys : System} {i : Nat} {t : Task}

theorem step_advance (h : sys.tasks[i]? = some t) :
    sys.step (.advance i) =
      ⟨(t.advance sys.app).1, sys.tasks.set i { t with progress := (t.advance sys.app).2 }⟩ := by
  simp only [step, h]

theorem run_append (sys : System) (earlier later : List Event) :
    sys.run (earlier ++ later) = (sys.run earlier).run later :=
  List.foldl_append

/-- Reads that come one after another find out what the inquiry comes to at once. -/
theorem run_reads {app : App} {now : Int} {r : Request} (hopen : app.isOpen = true) (op : Operation)
    (tasks : List Task) (h : tasks[i]? = some ⟨now, r, .operating op⟩) :
    run ⟨app, tasks⟩ (List.replicate (op.reads app.store) (.advance i)) =
      ⟨app, tasks.set i ⟨now, r, .operating (.finished (Inquiry.run app.store op))⟩⟩ := by
  induction op generalizing tasks with
  | finished result =>
    obtain ⟨hi, htask⟩ := List.getElem?_eq_some_iff.mp h
    show (⟨app, tasks⟩ : System) = ⟨app, tasks.set i ⟨now, r, .operating (.finished result)⟩⟩
    rw [← htask, List.set_getElem_self]
  | read next ih =>
    have hdatabase : app.database = .ok app.store := if_pos hopen
    have hi : i < tasks.length := (List.getElem?_eq_some_iff.mp h).1
    have hfirst : step ⟨app, tasks⟩ (.advance i) =
        ⟨app, tasks.set i ⟨now, r, .operating (next app.store)⟩⟩ := by
      rw [step_advance h]
      simp only [Task.advance, hdatabase]
    have hrest := ih app.store (tasks.set i ⟨now, r, .operating (next app.store)⟩)
      (List.getElem?_set_self hi)
    rw [Inquiry.reads, List.replicate_succ]
    show (step ⟨app, tasks⟩ (.advance i)).run _ = _
    rw [hfirst, hrest, List.set_set]
    rfl

/-- A request whose operation is known, once it has read what it reads. -/
theorem run_received {app : App} {now : Int} {r : Request} {op : Operation} {tasks : List Task}
    (hopen : app.isOpen = true) (hop : app.operationOf now r = .ok op)
    (h : tasks[i]? = some ⟨now, r, .received⟩) :
    run ⟨app, tasks⟩ (List.replicate (op.reads app.store + 1) (.advance i)) =
      ⟨app, tasks.set i ⟨now, r, .operating (.finished (Inquiry.run app.store op))⟩⟩ := by
  have hi : i < tasks.length := (List.getElem?_eq_some_iff.mp h).1
  have hfirst : step ⟨app, tasks⟩ (.advance i) = ⟨app, tasks.set i ⟨now, r, .operating op⟩⟩ := by
    rw [step_advance h]
    simp only [Task.advance, hop]
  have hrest := run_reads hopen op (tasks.set i ⟨now, r, .operating op⟩) (List.getElem?_set_self hi)
  rw [List.replicate_succ]
  show (step ⟨app, tasks⟩ (.advance i)).run _ = _
  rw [hfirst, hrest, List.set_set]

/-- **A request that takes its steps one after another is handled as if it took one.** -/
theorem exists_run_alone {now : Int} {r : Request} (h : sys.tasks[i]? = some ⟨now, r, .received⟩) :
    ∃ n, sys.run (List.replicate n (.advance i)) =
      ⟨(sys.app.handle now r).1, sys.tasks.set i ⟨now, r, .answered (sys.app.handle now r).2⟩⟩ := by
  obtain ⟨app, tasks⟩ := sys
  have hi : i < tasks.length := (List.getElem?_eq_some_iff.mp h).1
  rw [App.handle_eq_operationOf]
  cases hop : app.operationOf now r with
  | error response =>
    refine ⟨1, ?_⟩
    show step ⟨app, tasks⟩ (.advance i) = _
    rw [step_advance h]
    simp only [Task.advance, hop]
  | ok op =>
    -- The user was read, so the database is open.
    obtain ⟨user, -, -, hauth, -⟩ := App.exists_of_operationOf hop
    have hopen : app.isOpen = true := App.isOpen_of_authenticate hauth
    have hread := run_received hopen hop h
    have hperform : app.perform (.finished (Inquiry.run app.store op)) = app.perform op := by
      rw [App.perform_of_isOpen hopen, App.perform_of_isOpen hopen]
      rfl
    refine ⟨op.reads app.store + 1 + 1, ?_⟩
    rw [List.replicate_succ', run_append, hread]
    show step _ (.advance i) = _
    rw [step_advance (List.getElem?_set_self hi)]
    simp only [Task.advance, hperform, List.set_set]

end System

/-! ### What stays -/

namespace App

variable {app app' : App}

/-- What an application keeps while requests take their steps: everything but the rows of KPIs and
the links to them; and rows stay. -/
structure EvolvesTo (app app' : App) : Prop where
  others : app' = { app with store := app'.store }
  alike : app.store.Alike app'.store
  rows : app.store.KeepsRows app'.store

namespace EvolvesTo

theorem refl (app : App) : app.EvolvesTo app := ⟨rfl, .refl _, .refl _⟩

theorem trans {app'' : App} (h : app.EvolvesTo app') (h' : app'.EvolvesTo app'') :
    app.EvolvesTo app'' := by
  refine ⟨?_, h.alike.trans h'.alike, h.rows.trans h'.rows⟩
  rw [h'.others, h.others]

/-- A command on the KPI of an experiment. -/
theorem of_writesRow {experiment : Int} {s : Store} (hk : (app.store.kpis.map (·.id)).Nodup)
    (h : app.store.WritesRow experiment s) : app.EvolvesTo { app with store := s } :=
  ⟨rfl, (h.changesOnly hk).alike, h.keepsRows⟩

theorem isOpen (h : app.EvolvesTo app') : app'.isOpen = app.isOpen := by
  rw [h.others]

theorem environment (h : app.EvolvesTo app') : app'.environment = app.environment := by
  rw [h.others]
  rfl

theorem authenticate (h : app.EvolvesTo app') (now : Int) (authorization : Option String) :
    app'.authenticate now authorization = app.authenticate now authorization := by
  have hkey : app'.key = app.key := by rw [h.others]
  have hread : ∀ id, (app'.database >>= fun s => s.user id) = app.database >>= fun s => s.user id := by
    intro id
    unfold database
    rw [h.isOpen]
    split
    · exact congrFun h.alike.user id
    · rfl
  unfold App.authenticate
  rw [hkey]
  simp only [hread]

/-- A request comes to the same operation whenever it starts. -/
theorem operationOf (h : app.EvolvesTo app') (now : Int) (r : Request) :
    app'.operationOf now r = app.operationOf now r := by
  have hservice : ∀ route, app'.serviceOperation now route r = app.serviceOperation now route r := by
    intro route
    unfold serviceOperation
    rw [h.authenticate, h.environment]
  have hready : app'.readiness = app.readiness := by
    unfold readiness
    rw [h.isOpen]
  unfold App.operationOf
  simp only [hservice, hready]

end EvolvesTo

end App

end ExperimentKpi

/-
# What a request can do

Every request either leaves the application as it is, or it comes from a live user, addresses an
experiment by an id in its path, and has the effect of one command on the store (`handle_outcome`).
A request that wrote is answered with a success, and neither `GET` nor `HEAD` nor `OPTIONS` ever
writes. A request that asks for an operation (`App.Asks`) has the result of the operation.

Key definitions: `Request.experiment?`, `Response.IsSuccess`, `Outcome`, `App.Asks`.
Key theorems: `Endpoint.exists_action`, `Endpoint.effect_of_operation`, `App.handle_outcome`,
`App.Asks.handle_eq`, `App.handle_cases`.
-/
import ExperimentKpi.Api.App
import ExperimentKpi.Proofs.Service.Effect

namespace ExperimentKpi

/-- The segment of the path that names the experiment of an operation. -/
def Endpoint.segment? : Endpoint → Option (List Char)
  | create e | update e | view e | remove e | customize e _ | regenerate e => some e
  | list _ => none

/-- The experiment of an operation, if the path names one. -/
def Endpoint.experiment? (endpoint : Endpoint) : Option Int := do
  let segment ← endpoint.segment?
  let raw ← (readSegment segment).toOption
  (readId raw).toOption

/-- The experiment that a request addresses. -/
def Request.experiment? (r : Request) : Option Int := do
  let route ← Route.ofSegments? r.segments
  let endpoint ← route.endpoint? r.method
  endpoint.experiment?

/-- The status tells a success. -/
def Response.IsSuccess (r : Response) : Prop :=
  200 ≤ r.status ∧ r.status < 300

instance (r : Response) : Decidable r.IsSuccess := by
  unfold Response.IsSuccess
  infer_instance

theorem Answer.isSuccess_response (a : Answer) : a.response.IsSuccess := by
  cases a <;> simp [Answer.response, Answer.status, Response.IsSuccess]

/-- A failure is no success. -/
theorem Failure.not_isSuccess_response (f : Failure) : ¬ f.response.IsSuccess := by
  show ¬ (200 ≤ f.kind.status ∧ f.kind.status < 300)
  cases f.kind <;> decide

theorem liftFailure_ok_iff {α : Type} {x : Except Failure α} {a : α} :
    liftFailure x = .ok a ↔ x = .ok a := by
  cases x <;> simp [liftFailure]

theorem eq_of_readBody {body body' : List UInt8} (h : readBody body = .ok body') :
    body' = body := by
  unfold readBody at h
  split at h
  · exact (Except.ok.inj h).symm
  · cases h

/-! ### Operations of endpoints -/

section

variable {env : Environment} {s : Store} {user : User} {query : List Char} {body : List UInt8}
  {endpoint : Endpoint} {op : Operation} {c : Command}

theorem Endpoint.experiment?_eq {segment : List Char} {raw : String} {experiment : Int}
    (hs : endpoint.segment? = some segment) (hr : readSegment segment = .ok raw)
    (hi : liftFailure (readId raw) = .ok experiment) : endpoint.experiment? = some experiment := by
  rw [liftFailure_ok_iff] at hi
  simp [Endpoint.experiment?, hs, hr, hi, Except.toOption]

/-- An operation that is asked for is a list of KPIs, or an action on the experiment that the path
names, with the document that the body spells. Deletions and creations have their own endpoints. -/
theorem Endpoint.exists_action (h : endpoint.operation env user query body = .ok op) :
    (∃ project page, op = listKpis project page ∧ endpoint.experiment? = none) ∨
      ∃ experiment action, endpoint.experiment? = some experiment ∧
        op = KpiAction.operation env user experiment action ∧
        (∀ document, action.document? = some document → readJsonBody body = .ok document) ∧
        (action = .remove → ∃ e, endpoint = .remove e) ∧
        (∀ document, action = .create document → ∃ e, endpoint = .create e) := by
  cases endpoint with
  | create e =>
    simp only [Endpoint.operation, bind_ok_iff] at h
    obtain ⟨raw, hr, body', hb, id, hi, document, hd, h⟩ := h
    cases h
    rw [liftFailure_ok_iff, eq_of_readBody hb] at hd
    exact .inr ⟨id, .create document, experiment?_eq rfl hr hi, rfl,
      fun _ hsome => Option.some.inj hsome ▸ hd, nofun, fun _ _ => ⟨e, rfl⟩⟩
  | update e =>
    simp only [Endpoint.operation, bind_ok_iff] at h
    obtain ⟨raw, hr, body', hb, id, hi, document, hd, h⟩ := h
    cases h
    rw [liftFailure_ok_iff, eq_of_readBody hb] at hd
    exact .inr ⟨id, .update document, experiment?_eq rfl hr hi, rfl,
      fun _ hsome => Option.some.inj hsome ▸ hd, nofun, nofun⟩
  | view e =>
    simp only [Endpoint.operation, bind_ok_iff] at h
    obtain ⟨raw, hr, id, hi, h⟩ := h
    cases h
    exact .inr ⟨id, .view, experiment?_eq rfl hr hi, rfl, nofun, nofun, nofun⟩
  | remove e =>
    simp only [Endpoint.operation, bind_ok_iff] at h
    obtain ⟨raw, hr, id, hi, h⟩ := h
    cases h
    exact .inr ⟨id, .remove, experiment?_eq rfl hr hi, rfl, nofun, fun _ => ⟨e, rfl⟩, nofun⟩
  | customize e kind =>
    simp only [Endpoint.operation, bind_ok_iff] at h
    obtain ⟨raw, hr, rawKind, -, body', -, id, hi, kind, -, text, -, h⟩ := h
    cases h
    exact .inr ⟨id, .customize kind text, experiment?_eq rfl hr hi, rfl, nofun, nofun, nofun⟩
  | regenerate e =>
    simp only [Endpoint.operation, bind_ok_iff] at h
    obtain ⟨raw, hr, id, hi, h⟩ := h
    cases h
    exact .inr ⟨id, .regenerate, experiment?_eq rfl hr hi, rfl, nofun, nofun, nofun⟩
  | list p =>
    simp only [Endpoint.operation, bind_ok_iff] at h
    obtain ⟨raw, -, h⟩ := h
    split at h
    · cases h
    · obtain ⟨id, -, h⟩ := bind_ok_iff.mp h
      cases h
      exact .inl ⟨id, _, rfl, rfl⟩

/-- An operation that writes is one on the experiment that the path names, and its command is one of
those that operations can end in. -/
theorem Endpoint.effect_of_operation (h : endpoint.operation env user query body = .ok op)
    (hw : Inquiry.run s op = .ok (.write c)) :
    ∃ experiment, endpoint.experiment? = some experiment ∧
      Effect env s user experiment (readJsonBody body) c := by
  rcases exists_action h with
    ⟨project, page, rfl, -⟩ | ⟨experiment, action, haddressed, rfl, hbody, -⟩
  · exact absurd hw listKpis_run_ne_write
  · exact ⟨experiment, haddressed, .of_action hbody hw⟩

end

/-- Neither a `GET` nor a `HEAD` asks for an operation that writes. -/
theorem Route.segment?_of_get {route : Route} {method : Method} {endpoint : Endpoint}
    (hm : method = .get ∨ method = .head) (h : route.endpoint? method = some endpoint) :
    (∃ e, endpoint = .view e) ∨ ∃ p, endpoint = .list p := by
  rcases hm with rfl | rfl <;> cases route <;> simp [Route.endpoint?] at h <;>
    simp [← h]

theorem Route.method_of_remove {route : Route} {method : Method} {e : List Char}
    (h : route.endpoint? method = some (.remove e)) : method = .delete := by
  cases route <;> cases method <;> simp_all [Route.endpoint?]

theorem Endpoint.run_ne_write_of_get {route : Route} {method : Method} {endpoint : Endpoint}
    {env : Environment} {s : Store} {user : User} {query : List Char} {body : List UInt8}
    {op : Operation} {c : Command} (hm : method = .get ∨ method = .head)
    (he : route.endpoint? method = some endpoint)
    (h : endpoint.operation env user query body = .ok op) :
    Inquiry.run s op ≠ .ok (.write c) := by
  rcases Route.segment?_of_get hm he with ⟨e, rfl⟩ | ⟨p, rfl⟩
  · simp only [Endpoint.operation, bind_ok_iff] at h
    obtain ⟨raw, hr, id, hi, h⟩ := h
    cases h
    exact showKpi_run_ne_write
  · simp only [Endpoint.operation, bind_ok_iff] at h
    obtain ⟨raw, hr, h⟩ := h
    split at h
    · cases h
    · obtain ⟨id, hi, h⟩ := bind_ok_iff.mp h
      cases h
      exact listKpis_run_ne_write

/-! ### Requests -/

/-- What a request comes to: the application stays as it is, or one command changes its store and is
answered with a success. -/
inductive Outcome (app : App) (now : Int) (r : Request) : App → Response → Prop where
  | kept (response : Response) : Outcome app now r app response
  | wrote {user : User} {experiment : Int} {c : Command} {s : Store} {kpi : Int}
      (isOpen : app.isOpen = true)
      (authenticated : app.authenticate now r.authorization = .ok user)
      (addressed : r.experiment? = some experiment)
      (method : r.method ≠ .get ∧ r.method ≠ .head)
      (effect : Effect app.environment app.store user experiment (readJsonBody r.body) c)
      (applied : c.apply app.store = .ok (s, kpi)) :
      Outcome app now r { app with store := s } (c.answer kpi).response

namespace App

variable {app : App} {now : Int} {r : Request}

/-- An operation leaves the application as it is, or its command is applied to the store. -/
theorem perform_cases (app : App) (op : Operation) :
    (app.perform op).1 = app ∨
      ∃ c s kpi, app.isOpen = true ∧ Inquiry.run app.store op = .ok (.write c) ∧
        c.apply app.store = .ok (s, kpi) ∧
        app.perform op = ({ app with store := s }, .ok (c.answer kpi)) := by
  unfold perform database Operation.run
  split
  · exact .inl rfl
  · rename_i s hs
    obtain ⟨hopen, rfl⟩ : app.isOpen = true ∧ app.store = s := by
      split at hs
      · exact ⟨by assumption, Except.ok.inj hs⟩
      · cases hs
    cases hrun : Inquiry.run app.store op with
    | error e => exact .inl rfl
    | ok decision =>
      cases decision with
      | «show» a => exact .inl rfl
      | write c =>
        cases happly : c.apply app.store with
        | error e => exact .inl (by simp only [Decision.settle, happly, Except.map])
        | ok p =>
          refine .inr ⟨c, p.1, p.2, hopen, rfl, happly, ?_⟩
          simp only [Decision.settle, happly, Except.map]

theorem serve_outcome {route : Route} (hroute : Route.ofSegments? r.segments = some route) :
    Outcome app now r (app.serve now route r).1 (app.serve now route r).2 := by
  unfold serve
  cases hauth : app.authenticate now r.authorization with
  | error e => exact .kept _
  | ok user =>
    cases hendpoint : route.endpoint? r.method with
    | none => exact .kept _
    | some endpoint =>
      simp only
      cases hop : endpoint.operation app.environment user r.query r.body with
      | error refusal => exact .kept _
      | ok op =>
        simp only
        rcases perform_cases app op with hkept | ⟨c, s, kpi, hopen, hrun, happly, hperform⟩
        · rw [hkept]
          exact .kept _
        · rw [hperform]
          obtain ⟨experiment, he, effect⟩ := Endpoint.effect_of_operation hop hrun
          have haddressed : r.experiment? = some experiment := by
            simp [Request.experiment?, hroute, hendpoint, he]
          refine .wrote hopen hauth haddressed ⟨fun hm => ?_, fun hm => ?_⟩ effect happly
          · exact Endpoint.run_ne_write_of_get (.inl hm) hendpoint hop hrun
          · exact Endpoint.run_ne_write_of_get (.inr hm) hendpoint hop hrun

theorem answer_outcome : Outcome app now r (app.answer now r).1 (app.answer now r).2 := by
  unfold answer
  split
  · exact .kept _
  · exact .kept _
  · exact .kept _
  · exact serve_outcome (by assumption)

/-- **A request keeps the application or has the effect of one command.** -/
theorem handle_outcome : Outcome app now r (app.handle now r).1 (app.handle now r).2 := by
  unfold handle
  split
  · exact .kept _
  · rename_i hm
    have h : Outcome app now r (app.answer now r).1 (app.answer now r).2 := answer_outcome
    generalize app.answer now r = result at h ⊢
    obtain ⟨app', response⟩ := result
    cases h with
    | kept => exact .kept _
    | wrote _ _ _ method => exact absurd hm method.2
  · exact answer_outcome

/-! ### Requests that reach their operation -/

/-- A user is only found while the database is open. -/
theorem isOpen_of_authenticate {user : User} {authorization : Option String}
    (h : app.authenticate now authorization = .ok user) : app.isOpen = true := by
  obtain ⟨id, -, h⟩ := bind_ok_iff.mp h
  obtain ⟨s, hs, -⟩ := bind_ok_iff.mp h
  unfold database at hs
  split at hs
  · assumption
  · cases hs

theorem perform_of_isOpen (h : app.isOpen = true) (op : Operation) :
    app.perform op = ({ app with store := (op.run app.store).1 }, (op.run app.store).2) := by
  have hdatabase : app.database = .ok app.store := if_pos h
  rw [perform, hdatabase]

/-- A request of a user whose operation is known has the result of the operation. -/
theorem serve_of_operation {route : Route} {user : User} {endpoint : Endpoint} {op : Operation}
    (h : app.isOpen = true) (hauth : app.authenticate now r.authorization = .ok user)
    (hendpoint : route.endpoint? r.method = some endpoint)
    (hop : endpoint.operation app.environment user r.query r.body = .ok op) :
    app.serve now route r =
      ({ app with store := (op.run app.store).1 }, responseTo (op.run app.store).2) := by
  simp [serve, hauth, hendpoint, hop, perform_of_isOpen h]

/-- Only `HEAD` and `OPTIONS` are answered in a way of their own. -/
theorem handle_eq_answer (hm : r.method ≠ .head ∧ r.method ≠ .options) :
    app.handle now r = app.answer now r := by
  unfold handle
  split
  · exact absurd (by assumption) hm.2
  · exact absurd (by assumption) hm.1
  · rfl

/-! ### What requests ask for -/

/-- A request asks for an operation: it comes from a live user, and its path, its method and its body
are those of the operation. -/
structure Asks (app : App) (now : Int) (r : Request) (user : User) (op : Operation) : Prop where
  method : r.method ≠ .head ∧ r.method ≠ .options
  authenticated : app.authenticate now r.authorization = .ok user
  operation : ∃ route endpoint, Route.ofSegments? r.segments = some route ∧
    route.endpoint? r.method = some endpoint ∧
      endpoint.operation app.environment user r.query r.body = .ok op

section

variable {user : User} {op : Operation}

theorem Asks.handle_eq (h : app.Asks now r user op) (hopen : app.isOpen = true) :
    app.handle now r =
      ({ app with store := (op.run app.store).1 }, responseTo (op.run app.store).2) := by
  obtain ⟨route, endpoint, hroute, hendpoint, hop⟩ := h.operation
  have hserve := serve_of_operation hopen h.authenticated hendpoint hop
  have hanswer : app.answer now r = app.serve now route r := by
    unfold answer
    split
    · rename_i hnone
      rw [hnone] at hroute
      cases hroute
    · rename_i hhealth
      obtain rfl := Option.some.inj (hhealth.symm.trans hroute)
      cases hendpoint
    · rename_i hready
      obtain rfl := Option.some.inj (hready.symm.trans hroute)
      cases hendpoint
    · rename_i other hother
      rw [Option.some.inj (hother.symm.trans hroute)]
  rw [← hserve, ← hanswer, handle_eq_answer h.method]

/-- A request of the service changes nothing, or it does what the operation does that it asks for. -/
theorem serve_cases {route : Route} (hroute : Route.ofSegments? r.segments = some route)
    (hmethod : r.method ≠ .head ∧ r.method ≠ .options) :
    (app.serve now route r).1 = app ∨
      ∃ user op, app.Asks now r user op ∧ (app.serve now route r).1 = (app.perform op).1 := by
  unfold serve
  cases hauth : app.authenticate now r.authorization with
  | error e => exact .inl rfl
  | ok user =>
    cases hendpoint : route.endpoint? r.method with
    | none => exact .inl rfl
    | some endpoint =>
      cases hop : endpoint.operation app.environment user r.query r.body with
      | error refusal => exact .inl (by simp only [hop])
      | ok op =>
        have hasks : app.Asks now r user op :=
          ⟨hmethod, hauth, route, endpoint, hroute, hendpoint, hop⟩
        exact .inr ⟨user, op, hasks, by simp only [hop]⟩

/-- A request changes nothing, or it does what the operation does that it asks for. -/
theorem handle_kept_or_asks (app : App) (now : Int) (r : Request) :
    (app.handle now r).1 = app ∨
      ∃ user op, app.Asks now r user op ∧ (app.handle now r).1 = (app.perform op).1 := by
  by_cases hoptions : r.method = .options
  · exact .inl (by simp only [handle, hoptions])
  by_cases hhead : r.method = .head
  · -- A `HEAD` has the outcome of a `GET`, which never writes.
    have ho : Outcome app now r (app.handle now r).1 (app.handle now r).2 := handle_outcome
    generalize app.handle now r = result at ho ⊢
    obtain ⟨app', response⟩ := result
    cases ho with
    | kept => exact .inl rfl
    | wrote _ _ _ method => exact absurd hhead method.2
  · rw [handle_eq_answer ⟨hhead, hoptions⟩]
    unfold answer
    split
    · exact .inl rfl
    · exact .inl rfl
    · exact .inl rfl
    · exact serve_cases (by assumption) ⟨hhead, hoptions⟩

/-- **A request changes nothing, or it asks for an action** on the experiment that its path names. -/
theorem handle_cases (app : App) (now : Int) (r : Request) :
    (app.handle now r).1 = app ∨
      ∃ user experiment action, r.experiment? = some experiment ∧
        app.Asks now r user (KpiAction.operation app.environment user experiment action) ∧
          (action = .remove → r.method = .delete) := by
  rcases handle_kept_or_asks app now r with hkept | ⟨user, op, hasks, hhandle⟩
  · exact .inl hkept
  · obtain ⟨route, endpoint, hroute, hendpoint, hop⟩ := hasks.operation
    rcases Endpoint.exists_action hop with
      ⟨project, page, rfl, -⟩ | ⟨experiment, action, haddressed, rfl, -, hremove, -⟩
    · rcases perform_cases app (listKpis project page) with hkept | ⟨c, s, kpi, -, hwrite, -⟩
      · exact .inl (hhandle.trans hkept)
      · exact absurd hwrite listKpis_run_ne_write
    · have hexperiment : r.experiment? = some experiment := by
        simp [Request.experiment?, hroute, hendpoint, haddressed]
      refine .inr ⟨user, experiment, action, hexperiment, hasks, fun h => ?_⟩
      obtain ⟨e, rfl⟩ := hremove h
      exact Route.method_of_remove hendpoint

/-- A request without success changes nothing. -/
theorem handle_of_not_isSuccess (h : ¬ (app.handle now r).2.IsSuccess) :
    (app.handle now r).1 = app := by
  have ho : Outcome app now r (app.handle now r).1 (app.handle now r).2 := handle_outcome
  generalize app.handle now r = result at ho h ⊢
  obtain ⟨app', response⟩ := result
  cases ho with
  | kept => rfl
  | wrote => exact absurd (Answer.isSuccess_response _) h

end

end App

section

variable {env : Environment} {user : User} {query segment : List Char} {body : List UInt8}
  {raw : String} {id : Int}

theorem Endpoint.operation_create {document : Json} (hs : readSegment segment = .ok raw)
    (hb : body.length ≤ maxBodySize) (hi : readId raw = .ok id)
    (hd : readJsonBody body = .ok document) :
    (create segment).operation env user query body = .ok (createKpi env user id document) := by
  have hbody : readBody body = .ok body := if_pos hb
  simp only [operation, hs, hbody, hi, hd, liftFailure, bind, Except.bind]
  rfl

theorem Endpoint.operation_update {document : Json} (hs : readSegment segment = .ok raw)
    (hb : body.length ≤ maxBodySize) (hi : readId raw = .ok id)
    (hd : readJsonBody body = .ok document) :
    (update segment).operation env user query body = .ok (updateKpi env user id document) := by
  have hbody : readBody body = .ok body := if_pos hb
  simp only [operation, hs, hbody, hi, hd, liftFailure, bind, Except.bind]
  rfl

theorem Endpoint.operation_remove (hs : readSegment segment = .ok raw) (hi : readId raw = .ok id) :
    (remove segment).operation env user query body = .ok (deleteKpi user id) := by
  simp only [operation, hs, hi, liftFailure, bind, Except.bind]
  rfl

end

end ExperimentKpi

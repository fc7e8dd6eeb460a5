/-
# The application

The state that requests act on, and the response to each request. A request to an operation first
authenticates its user, whatever else may be wrong with it; then its method, its path, its query
string and its body are looked at in this order, and last the operation runs.

Key definitions: `App`, `App.start`, `App.reload`, `bearer?`, `authenticate`,
`Endpoint.operation`, `App.handle`.
-/
import ExperimentKpi.Access.Reload
import ExperimentKpi.Api.Response
import ExperimentKpi.Api.Route
import ExperimentKpi.Token.Signed

namespace ExperimentKpi

/-- The state of the application. The store stays when the database is closed, but nothing can be
read or written then. -/
structure App where
  store : Store
  isOpen : Bool
  grants : Grants
  warehouse : Warehouse
  key : SigningKey

namespace App

/-- The application on a store, with the grants that the store stands for. -/
def start (store : Store) (warehouse : Warehouse) (key : SigningKey) : App :=
  ⟨store, true, store.grants, warehouse, key⟩

/-- The store, as long as the database is open. -/
def database (app : App) : Except Failure Store :=
  if app.isOpen then .ok app.store else .error .database

/-- The application after the database is closed. -/
def close (app : App) : App :=
  { app with isOpen := false }

/-- The application after a new start on the same store. -/
def restart (app : App) : App :=
  start app.store app.warehouse app.key

/-- The application with its grants read again. The old ones are gone even if the database cannot be
read. -/
def reload (app : App) : App × Except Failure Unit :=
  match app.database with
  | .ok s => ({ app with grants := s.grants }, .ok ())
  | .error e => ({ app with grants := Grants.empty }, .error e)

/-- What the operations depend on besides the store. -/
def environment (app : App) : Environment :=
  ⟨app.grants, app.warehouse⟩

/-- The result of an inquiry into the store. -/
def inquire {α : Type} (app : App) (inquiry : Inquiry α) : Except Failure α :=
  app.database.bind fun s => inquiry.run s

end App

/-- Whether a character may stand in a header that is read as text. -/
def isHeaderChar (c : Char) : Bool :=
  c == '\t' || (' ' ≤ c && c ≤ '~')

/-- The token that a header presents. -/
def bearer? (authorization : Option String) : Except Failure String :=
  match authorization.filter fun header => header.toList.all isHeaderChar with
  | none => .error .missingAuthorization
  | some header =>
    let scheme := "Bearer ".toList
    if scheme.isPrefixOf header.toList then
      .ok (String.ofList (header.toList.drop scheme.length))
    else .error .badAuthorization

/-- The id of the user that a header's token was issued to. -/
def tokenUser (key : SigningKey) (now : Int) (authorization : Option String) :
    Except Failure Int := do
  let token ← bearer? authorization
  let claims ← key.verify now token
  match Text.int64? claims.subject.toList with
  | some id => .ok id
  | none => .error .badToken

/-- The live user that a request comes from. -/
def App.authenticate (app : App) (now : Int) (authorization : Option String) :
    Except Failure User := do
  let id ← tokenUser app.key now authorization
  let store ← app.database
  store.user id

/-- The text that a segment of a path stands for. -/
def readSegment (segment : List Char) : Except Refusal String :=
  match Percent.decodeText? segment with
  | some s => .ok s
  | none => .error (.turnedAway 400)

/-- The largest body that is read, in bytes. -/
def maxBodySize : Nat := 2097152

/-- The body, unless it is too large. -/
def readBody (body : List UInt8) : Except Refusal (List UInt8) :=
  if body.length ≤ maxBodySize then .ok body else .error (.turnedAway 413)

/-- A result whose failures are failures of the service. -/
def liftFailure {α : Type} : Except Failure α → Except Refusal α
  | .ok a => .ok a
  | .error e => .error (.failed e)

/-- The operation that a request asks for, once its parts are read. -/
def Endpoint.operation (env : Environment) (user : User) (query : List Char)
    (body : List UInt8) : Endpoint → Except Refusal Operation
  | create experiment => do
    let raw ← readSegment experiment
    let body ← readBody body
    let id ← liftFailure (readId raw)
    let document ← liftFailure (readJsonBody body)
    return createKpi env user id document
  | update experiment => do
    let raw ← readSegment experiment
    let body ← readBody body
    let id ← liftFailure (readId raw)
    let document ← liftFailure (readJsonBody body)
    return updateKpi env user id document
  | view experiment => do
    let raw ← readSegment experiment
    let id ← liftFailure (readId raw)
    return showKpi id
  | remove experiment => do
    let raw ← readSegment experiment
    let id ← liftFailure (readId raw)
    return deleteKpi user id
  | customize experiment kind => do
    let raw ← readSegment experiment
    let rawKind ← readSegment kind
    let body ← readBody body
    let id ← liftFailure (readId raw)
    let kind ← liftFailure (QueryKind.ofSegment rawKind)
    let text ← liftFailure (readTextBody body)
    return customizeQuery env user id kind text
  | regenerate experiment => do
    let raw ← readSegment experiment
    let id ← liftFailure (readId raw)
    return regenerateReaction env id
  | list project => do
    let raw ← readSegment project
    match readPageQuery? query with
    | none => .error (.turnedAway 400)
    | some page =>
      let id ← liftFailure (readId raw)
      return listKpis id page

namespace App

/-- The application and the result after an operation. -/
def perform (app : App) (op : Operation) : App × Except Failure Answer :=
  match app.database with
  | .error e => (app, .error e)
  | .ok s =>
    let (s', result) := op.run s
    ({ app with store := s' }, result)

/-- The response with a result. -/
def responseTo : Except Failure Answer → Response
  | .ok a => a.response
  | .error e => e.response

/-- The application and the response after a request to an operation of the service. -/
def serve (app : App) (now : Int) (route : Route) (r : Request) : App × Response :=
  match app.authenticate now r.authorization with
  | .error e => (app, e.response)
  | .ok user =>
    match route.endpoint? r.method with
    | none => (app, .bare 405)
    | some endpoint =>
      match endpoint.operation app.environment user r.query r.body with
      | .error refusal => (app, refusal.response)
      | .ok op =>
        let (app', result) := app.perform op
        (app', responseTo result)

/-- The response to a probe, which `GET` and `HEAD` alone may make. -/
def probe (method : Method) (response : Response) : Response :=
  if method = .get ∨ method = .head then response else .bare 405

/-- The response of the readiness probe. -/
def readiness (app : App) : Response :=
  if app.isOpen then ⟨200, .text "READY"⟩ else .bare 503

/-- The application and the response after a request with the body that the response to a `GET`
has. -/
def answer (app : App) (now : Int) (r : Request) : App × Response :=
  match Route.ofSegments? r.segments with
  | none => (app, .bare 404)
  | some .health => (app, probe r.method ⟨200, .text "OK"⟩)
  | some .readiness => (app, probe r.method app.readiness)
  | some route => app.serve now route r

/-- The application and the response after a request. An `OPTIONS` asks for no operation and is
always granted, and the response to a `HEAD` has no body. -/
def handle (app : App) (now : Int) (r : Request) : App × Response :=
  match r.method with
  | .options => (app, .bare 200)
  | .head =>
    let (app', response) := app.answer now r
    (app', response.bodiless)
  | _ => app.answer now r

end App

end ExperimentKpi

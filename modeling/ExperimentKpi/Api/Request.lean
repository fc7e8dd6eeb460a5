/-
# Requests

What a client sends: a method, a target of a path and a query string, perhaps the header that
authorizes it, and a body of bytes.

Key definitions: `Method`, `Request`, `Request.segments`, `Request.query`, `readPageQuery?`,
`readJsonBody`.
-/
import ExperimentKpi.Api.Percent
import ExperimentKpi.Failure
import ExperimentKpi.Json.Raw
import ExperimentKpi.Paging
import ExperimentKpi.Text.Integer

namespace ExperimentKpi

/-- The methods that requests are told apart by. -/
inductive Method where
  | get
  | head
  | post
  | put
  | delete
  | options
  | other
deriving DecidableEq, Repr

/-- The method with a name; case matters. -/
def Method.ofName (name : String) : Method :=
  match name with
  | "GET" => get
  | "HEAD" => head
  | "POST" => post
  | "PUT" => put
  | "DELETE" => delete
  | "OPTIONS" => options
  | _ => other

/-- A request. -/
structure Request where
  method : Method
  target : String
  authorization : Option String
  body : List UInt8
deriving DecidableEq, Repr

namespace Request

/-- The target up to a fragment. -/
def resource (r : Request) : List Char :=
  r.target.toList.takeWhile (· != '#')

/-- The segments of the path. A path starts with a slash, so the first segment is empty. -/
def segments (r : Request) : List (List Char) :=
  Text.splitAt (· == '/') (r.resource.takeWhile (· != '?'))

/-- The query string. -/
def query (r : Request) : List Char :=
  (r.resource.dropWhile (· != '?')).drop 1

end Request

/-- The values of a name in a query string. -/
def queryValues (query : List Char) (name : String) : List (Option String) :=
  ((Percent.pairs query).filter fun p => p.1 == some name).map (·.2)

/-- A value that may be missing and is an integer otherwise. It may be given once only. -/
def queryInt? (query : List Char) (name : String) : Option (Option Int) :=
  match queryValues query name with
  | [] => some none
  | [some value] => (Text.int64? value.toList).map some
  | _ => none

/-- The page that a query string asks for; names other than the two known ones do not matter. -/
def readPageQuery? (query : List Char) : Option PageQuery := do
  let page ← queryInt? query "page"
  let perPage ← queryInt? query "perPage"
  return ⟨page, perPage⟩

/-- The id that a text spells, blanks around it aside. -/
def readId (raw : String) : Except Failure Int :=
  match Text.int64? (Text.trim raw.toList) with
  | some id => .ok id
  | none => .error (.badId raw)

/-- The bytes that stand for blanks in ASCII. -/
def isAsciiBlank (b : UInt8) : Bool :=
  b == 9 || b == 10 || b == 12 || b == 13 || b == 32

/-- The document that a body spells; a body of blanks is null. -/
def readJsonBody (body : List UInt8) : Except Failure Json :=
  if body.all isAsciiBlank then .ok .null
  else match (Text.ofUtf8? body).bind Json.parse? with
    | some v => .ok v
    | none => .error .malformedBody

/-- The text that a body spells. -/
def readTextBody (body : List UInt8) : Except Failure String :=
  match Text.ofUtf8? body with
  | some s => .ok s
  | none => .error .queryNotText

end ExperimentKpi

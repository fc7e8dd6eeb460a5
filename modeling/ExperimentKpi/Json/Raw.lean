/-
# JSON as written

The tree of a text before it becomes a value: repeated keys are kept, and so are string literals
that spell no text and numbers out of range (as `none`). A reader that only looks at some parts of a
document reads this tree, since faults in the parts it skips do no harm.

The tree is built from tokens by a machine with an explicit stack of open arrays and objects, so
that its steps follow the tokens one by one and nesting has no limit of its own.

Key definitions: `RawJson`, `RawJson.Build`, `RawJson.ofTokens?`, `RawJson.parse?`,
`RawJson.toJson?`, `Json.parse?`, `Json.toRaw`.
-/
import ExperimentKpi.Json.Token

namespace ExperimentKpi

/-- A JSON text's tree. -/
inductive RawJson where
  | null
  | bool (value : Bool)
  | num (value : Option Number)
  | str (value : Option String)
  | arr (items : List RawJson)
  | obj (members : List (Option String × RawJson))

namespace RawJson

/-- An array or object that is not closed yet, with its contents so far in reverse; in an object a
value for `key` is due. -/
inductive Frame where
  | items (done : List RawJson)
  | members (done : List (Option String × RawJson)) (key : Option String)

/-- A tree under construction: what the next token may be. -/
inductive Build where
  /-- A value is due. -/
  | value (stack : List Frame)
  /-- An array was opened: a value or the closing bracket is due. -/
  | item (stack : List Frame)
  /-- A key is due, or the closing brace if the object is empty. -/
  | key (empty : Bool) (done : List (Option String × RawJson)) (stack : List Frame)
  /-- The colon after a key is due. -/
  | colon (done : List (Option String × RawJson)) (key : Option String) (stack : List Frame)
  /-- A value just ended. -/
  | complete (v : RawJson) (stack : List Frame)

/-- The start of a value. -/
def Build.begin (stack : List Frame) : Json.Token → Option Build
  | .null => some (.complete .null stack)
  | .bool b => some (.complete (.bool b) stack)
  | .num n => some (.complete (.num n) stack)
  | .str s => some (.complete (.str s) stack)
  | .openArray => some (.item stack)
  | .openObject => some (.key true [] stack)
  | _ => none

/-- One token more. -/
def Build.step : Build → Json.Token → Option Build
  | .value stack, t => begin stack t
  | .item stack, .closeArray => some (.complete (.arr []) stack)
  | .item stack, t => begin (.items [] :: stack) t
  | .key _ done stack, .str k => some (.colon done k stack)
  | .key true _ stack, .closeObject => some (.complete (.obj []) stack)
  | .colon done k stack, .colon => some (.value (.members done k :: stack))
  | .complete v (.items done :: stack), .comma => some (.value (.items (v :: done) :: stack))
  | .complete v (.items done :: stack), .closeArray =>
    some (.complete (.arr (v :: done).reverse) stack)
  | .complete v (.members done k :: stack), .comma => some (.key false ((k, v) :: done) stack)
  | .complete v (.members done k :: stack), .closeObject =>
    some (.complete (.obj ((k, v) :: done).reverse) stack)
  | _, _ => none

/-- The tree of a row of tokens that is one value and nothing more. -/
def ofTokens? (ts : List Json.Token) : Option RawJson :=
  match ts.foldlM Build.step (.value []) with
  | some (.complete v []) => some v
  | _ => none

/-- The tree of a text. -/
def parse? (s : String) : Option RawJson :=
  (Json.tokens? s.toList).bind ofTokens?

mutual

/-- The value of a tree that nests at most `limit` deep and whose texts and numbers all exist; a
repeated key keeps its first place and its last value. -/
def toJson? : Nat → RawJson → Option Json
  | _, null => some .null
  | _, bool b => some (.bool b)
  | _, num n => n.map .num
  | _, str s => s.map .str
  | 0, arr _ => none
  | 0, obj _ => none
  | limit + 1, arr xs => (itemsToJson? limit xs).map .arr
  | limit + 1, obj ms => (membersToJson? limit ms).map fun es => .obj (Members.ofEntries es)

/-- The values of items. -/
def itemsToJson? : Nat → List RawJson → Option (List Json)
  | _, [] => some []
  | limit, x :: xs => do
    let v ← toJson? limit x
    let vs ← itemsToJson? limit xs
    return v :: vs

/-- The entries that members give, repeated keys included. -/
def membersToJson? : Nat → List (Option String × RawJson) → Option (List (String × Json))
  | _, [] => some []
  | limit, (k, x) :: r => do
    let key ← k
    let v ← toJson? limit x
    let es ← membersToJson? limit r
    return (key, v) :: es

end

end RawJson

namespace Json

/-- The value of a text that nests at most `limit` deep. -/
def parseWithin? (limit : Nat) (s : String) : Option Json :=
  (RawJson.parse? s).bind (RawJson.toJson? limit)

/-- The nesting that documents may have. -/
def nestingLimit : Nat := 127

/-- The value of a document. -/
def parse? (s : String) : Option Json :=
  parseWithin? nestingLimit s

mutual

/-- A value as a tree. -/
def toRaw : Json → RawJson
  | null => .null
  | bool b => .bool b
  | num n => .num (some n)
  | str s => .str (some s)
  | arr xs => .arr (itemsToRaw xs)
  | obj ms => .obj (membersToRaw ms)

/-- Items as trees. -/
def itemsToRaw : List Json → List RawJson
  | [] => []
  | x :: xs => toRaw x :: itemsToRaw xs

/-- Members with their values as trees. -/
def membersToRaw : List (String × Json) → List (Option String × RawJson)
  | [] => []
  | (k, v) :: r => (some k, toRaw v) :: membersToRaw r

end

end Json

end ExperimentKpi

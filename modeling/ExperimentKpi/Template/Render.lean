/-
# Rendering

A template is rendered against a JSON object whose keys are the top-level names. Loops bind their
variable, and `loop` with the state of the iteration, around their body; the latest binding of a
name hides the others and the top-level one. A path that leads nowhere is null.

Key definitions: `Template.Scope`, `Template.Scope.resolve?`, `Template.Cond.holds`,
`Template.render`.
-/
import ExperimentKpi.Template.Block
import ExperimentKpi.Template.Value

namespace ExperimentKpi.Template

/-- Where names are looked up: the bindings of the loops, the latest first, then the context. -/
structure Scope where
  root : Json
  bindings : List (String × Json)

/-- One step of a path from a value. An index into an object is the key that spells it. -/
def Segment.follow? : Segment → Json → Option Json
  | key name, .obj members => Members.get? members name
  | index n, .arr items => items[n]?
  | index n, .obj members => Members.get? members (toString n)
  | _, _ => none

namespace Scope

/-- The value of a top-level name. -/
def name? (scope : Scope) (name : String) : Option Json :=
  match scope.bindings.lookup name with
  | some v => some v
  | none => scope.root.member? name

/-- The value that a path leads to. -/
def resolve? (scope : Scope) (path : Path) : Option Json := do
  path.steps.foldlM (fun v step => step.follow? v) (← scope.name? path.root)

/-- The value of an operand; null where a path leads nowhere. -/
def value (scope : Scope) : Operand → Json
  | .literal v => v
  | .path p => (scope.resolve? p).getD .null

/-- The scope inside a loop's body. -/
def bind (scope : Scope) (name : String) (item loop : Json) : Scope :=
  { scope with bindings := ("loop", loop) :: (name, item) :: scope.bindings }

end Scope

/-- Whether a condition holds. -/
def Cond.holds (scope : Scope) : Cond → Bool
  | operand x => truthy (scope.value x)
  | compare x op y => op.holds (scope.value x) (scope.value y)
  | not c => !c.holds scope
  | and c d => c.holds scope && d.holds scope
  | or c d => c.holds scope || d.holds scope

/-- The state of an iteration, as the name `loop` shows it. -/
def loopState (index length : Nat) : Json :=
  .obj [("index", .int (index + 1)), ("index0", .int index), ("first", .bool (index == 0)),
    ("last", .bool (index + 1 == length)), ("length", .int length)]

/-- The items that a loop runs over. -/
def Scope.items (scope : Scope) (path : Path) : Except RenderError (List Json) :=
  match scope.resolve? path with
  | none => .ok []
  | some .null => .ok []
  | some (.arr items) => .ok items
  | some _ => .error (.notIterable path.source)

/-- The text of an output: its filters apply from left to right. -/
def Output.render (scope : Scope) (o : Output) : Except RenderError (List Char) := do
  let v ← o.filters.foldlM (fun v f => f.apply o.operand.label v) (scope.value o.operand)
  scalarText o.operand.label v

/-- The texts that `body` gives for the items of a list, from the item at `index` on, in a row. -/
def eachItem (body : Nat → Json → Except RenderError (List Char)) :
    Nat → List Json → Except RenderError (List Char)
  | _, [] => .ok []
  | index, item :: r => do
    let here ← body index item
    let after ← eachItem body (index + 1) r
    return here ++ after

mutual

/-- The text of a node. -/
def Node.render (scope : Scope) : Node → Except RenderError (List Char)
  | .text content => .ok content
  | .output o => o.render scope
  | .loop name source body => do
    let items ← scope.items source
    let length := items.length
    eachItem (fun index item => nodesRender (scope.bind name item (loopState index length)) body)
      0 items
  | .choice branches otherwise =>
    match branchesRender scope branches with
    | some result => result
    | none => nodesRender scope otherwise

/-- The texts of nodes in a row. -/
def nodesRender (scope : Scope) : List Node → Except RenderError (List Char)
  | [] => .ok []
  | node :: r => do
    let here ← node.render scope
    let after ← nodesRender scope r
    return here ++ after

/-- The text of the first branch whose condition holds. -/
def branchesRender (scope : Scope) :
    List (Cond × List Node) → Option (Except RenderError (List Char))
  | [] => none
  | (cond, body) :: r =>
    if cond.holds scope then some (nodesRender scope body) else branchesRender scope r

end

end ExperimentKpi.Template

namespace ExperimentKpi

/-- The text of a template for a context. -/
def Template.render (t : Template) (context : Json) : Except Template.RenderError String :=
  (Template.nodesRender ⟨context, []⟩ t.nodes).map String.ofList

end ExperimentKpi

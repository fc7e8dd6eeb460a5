/-
# Blocks of templates

The tree of a template grows token by token. Open loops and choices wait on a stack, each with the
nodes before it; a closing tag puts the finished node behind them. Which tags may close or continue
a block depends on the innermost open block alone.

Key definitions: `Template`, `Template.Opened`, `Template.Builder`, `Template.Builder.step`,
`Template.ofTokens`, `Template.parse`.
-/
import ExperimentKpi.Template.Expression
import ExperimentKpi.Template.Piece

namespace ExperimentKpi

/-- A template that can be rendered. -/
structure Template where
  nodes : List Template.Node

namespace Template

/-- An open block: the byte offset of the tag that opened it, what it has so far, and the nodes
before it, the last one first. Finished branches stand last one first too. -/
inductive Opened where
  | loop (offset : Nat) (name : String) (source : Path) (before : List Node)
  | branch (offset : Nat) (finished : List (Cond × List Node)) (cond : Cond) (before : List Node)
  | otherwise (offset : Nat) (branches : List (Cond × List Node)) (before : List Node)

/-- A tree under construction: the open blocks, innermost first, and the nodes of the innermost one,
the last one first. -/
structure Builder where
  stack : List Opened
  nodes : List Node

/-- The keyword of a tag, which ends at the first blank, and what follows it. -/
def cutKeyword (content : List Char) : List Char × List Char :=
  match Text.cutAt? Text.isBlank content with
  | some (keyword, rest) => (keyword, Text.trim rest)
  | none => (content, [])

/-- The name and the path of a loop's header `<name> in <path>`. -/
def loopHeader (rest : List Char) : Except Cause (String × Path) :=
  match Text.words rest with
  | [name, ['i', 'n'], source] =>
    if name.contains '.' ∨ name = ['l', 'o', 'o', 'p'] then
      .error (.badLoopVariable (String.ofList name))
    else (Path.ofText source).map fun path => (String.ofList name, path)
  | _ => .error .badLoopHeader

namespace Builder

/-- The start: no block is open. -/
def empty : Builder := ⟨[], []⟩

/-- One node more in the innermost block. -/
def push (b : Builder) (node : Node) : Builder :=
  { b with nodes := node :: b.nodes }

/-- One block more is within the bound on nesting. -/
def checkDepth (b : Builder) : Except Cause Unit :=
  if b.stack.length + 1 > maxNesting then .error .tooDeep else .ok ()

/-- Open a loop with the given header. -/
def openLoop (b : Builder) (offset : Nat) (rest : List Char) : Except Cause Builder := do
  b.checkDepth
  let (name, source) ← loopHeader rest
  return ⟨.loop offset name source b.nodes :: b.stack, []⟩

/-- Open a choice whose first branch has the given condition. -/
def openChoice (b : Builder) (offset : Nat) (rest : List Char) : Except Cause Builder := do
  b.checkDepth
  let cond ← Cond.ofText rest
  return ⟨.branch offset [] cond b.nodes :: b.stack, []⟩

/-- One tag more. -/
def tag (b : Builder) (offset : Nat) (content : List Char) : Except Cause Builder :=
  let (keyword, rest) := cutKeyword content
  match b.stack, String.ofList keyword with
  | .loop _ name source before :: stack, "endfor" =>
    .ok ⟨stack, .loop name source b.nodes.reverse :: before⟩
  | .branch opened finished cond before :: stack, "elif" =>
    (Cond.ofText rest).map fun next =>
      ⟨.branch opened ((cond, b.nodes.reverse) :: finished) next before :: stack, []⟩
  | .branch opened finished cond before :: stack, "else" =>
    .ok ⟨.otherwise opened ((cond, b.nodes.reverse) :: finished).reverse before :: stack, []⟩
  | .branch _ finished cond before :: stack, "endif" =>
    .ok ⟨stack, .choice ((cond, b.nodes.reverse) :: finished).reverse [] :: before⟩
  | .otherwise _ branches before :: stack, "endif" =>
    .ok ⟨stack, .choice branches b.nodes.reverse :: before⟩
  | _, "for" => b.openLoop offset rest
  | _, "if" => b.openChoice offset rest
  | _, other => .error (.unexpectedTag other)

/-- One token more. -/
def step (b : Builder) : Token → Except ParseError Builder
  | .text content => .ok (b.push (.text content))
  | .output offset content =>
    ((Output.ofText content).map fun o => b.push (.output o)).mapError (⟨offset, ·⟩)
  | .tag offset content => (b.tag offset content).mapError (⟨offset, ·⟩)

/-- The finished template; an open block is an error at the tag that opened it. -/
def finish (b : Builder) : Except ParseError Template :=
  match b.stack with
  | [] => .ok ⟨b.nodes.reverse⟩
  | .loop offset .. :: _ => .error ⟨offset, .unclosedLoop⟩
  | .branch offset .. :: _ => .error ⟨offset, .unclosedChoice⟩
  | .otherwise offset .. :: _ => .error ⟨offset, .unclosedChoice⟩

end Builder

/-- The template of a row of tokens. -/
def ofTokens (ts : List Token) : Except ParseError Template := do
  (← ts.foldlM Builder.step Builder.empty).finish

/-- The template that a text spells. -/
def parse (source : String) : Except ParseError Template := do
  ofTokens (← tokens source.toList)

/-- A text that is given by its characters. -/
theorem parse_ofList (s : List Char) : parse (String.ofList s) = tokens s >>= ofTokens := by
  rw [parse, String.toList_ofList]

/-- A text that is given by the characters of two parts. -/
theorem parse_append (s t : List Char) :
    parse (String.ofList s ++ String.ofList t) = tokens (s ++ t) >>= ofTokens := by
  rw [parse, String.toList_append, String.toList_ofList, String.toList_ofList]

end Template

end ExperimentKpi

/-
# The names that a template mentions

A name is free in a template where a path starts with it outside of every loop that binds it: a loop
binds its variable and `loop` in its body, but not in the path that it runs over. Rendering looks up
no other name in the scope around it. So two scopes that agree on the free names of nodes, also on
which of them are missing, give the same text or the same error (`nodesRender_eq_of_agreeOn`), and two
contexts do for a template (`render_eq_of_freeNames`). The induction follows the nodes; below a loop
the scopes agree on what the loop binds as well, so nothing that a loop leaves behind can be seen.

Key definitions: `Template.freeNames`, `Scope.AgreeOn`.
Key theorems: `Scope.AgreeOn.bind`, `nodesRender_eq_of_agreeOn`, `render_eq_of_freeNames`.
-/
import ExperimentKpi.Template.Render

namespace ExperimentKpi.Template

/-! ### Free names -/

/-- The name that an operand starts with; a literal has none. -/
def Operand.names : Operand → List String
  | path p => [p.root]
  | literal _ => []

/-- The names that the operands of a condition start with. -/
def Cond.names : Cond → List String
  | operand x => x.names
  | compare left _ right => left.names ++ right.names
  | not c => c.names
  | and left right | or left right => left.names ++ right.names

/-- The names that are free around a loop over `name` if the given ones are free in its body. -/
def unbound (name : String) (names : List String) : List String :=
  names.filter fun n => n ≠ name ∧ n ≠ "loop"

mutual

/-- The free names of a node. -/
def Node.freeNames : Node → List String
  | .text _ => []
  | .output o => o.operand.names
  | .loop name source body => source.root :: unbound name (nodesFreeNames body)
  | .choice branches otherwise => branchesFreeNames branches ++ nodesFreeNames otherwise

/-- The free names of nodes. -/
def nodesFreeNames : List Node → List String
  | [] => []
  | node :: r => node.freeNames ++ nodesFreeNames r

/-- The free names of branches: of their conditions and of their bodies. -/
def branchesFreeNames : List (Cond × List Node) → List String
  | [] => []
  | (cond, body) :: r => cond.names ++ (nodesFreeNames body ++ branchesFreeNames r)

end

/-- The free names of a template. -/
def freeNames (t : Template) : List String :=
  nodesFreeNames t.nodes

/-! ### Scopes that agree -/

namespace Scope

variable {scope scope' : Scope} {names names' : List String}

/-- Two scopes have the same values at some names, and miss the same of them. -/
def AgreeOn (names : List String) (scope scope' : Scope) : Prop :=
  ∀ name ∈ names, scope.name? name = scope'.name? name

theorem AgreeOn.mono (h : AgreeOn names scope scope') (hsub : names' ⊆ names) :
    AgreeOn names' scope scope' :=
  fun name hname => h name (hsub hname)

theorem AgreeOn.left (h : AgreeOn (names ++ names') scope scope') : AgreeOn names scope scope' :=
  h.mono (List.subset_append_left _ _)

theorem AgreeOn.right (h : AgreeOn (names ++ names') scope scope') : AgreeOn names' scope scope' :=
  h.mono (List.subset_append_right _ _)

/-- In a loop's body `loop` and the variable have the values of the iteration, and every other name
the one that it has around the loop. -/
theorem name?_bind (scope : Scope) (name n : String) (item loop : Json) :
    (scope.bind name item loop).name? n =
      if n = "loop" then some loop else if n = name then some item else scope.name? n := by
  unfold bind name?
  by_cases hloop : n = "loop"
  · rw [if_pos hloop, List.lookup_cons, hloop]
    rfl
  · have hloop' : (n == "loop") = false := by simpa using hloop
    rw [if_neg hloop, List.lookup_cons, hloop', List.lookup_cons]
    by_cases hname : n = name
    · rw [if_pos hname, hname, beq_self_eq_true]
    · have hname' : (n == name) = false := by simpa using hname
      rw [if_neg hname, hname']

/-- Scopes that agree around a loop agree in its body, there on the names that it binds too. -/
theorem AgreeOn.bind {name : String} (h : AgreeOn (unbound name names) scope scope')
    (item loop : Json) :
    AgreeOn names (scope.bind name item loop) (scope'.bind name item loop) := by
  intro n hn
  rw [name?_bind, name?_bind]
  by_cases hloop : n = "loop"
  · rw [if_pos hloop, if_pos hloop]
  · by_cases hname : n = name
    · rw [if_neg hloop, if_neg hloop, if_pos hname, if_pos hname]
    · have hfree : n ∈ unbound name names := by
        unfold unbound
        exact List.mem_filter.mpr ⟨hn, decide_eq_true ⟨hname, hloop⟩⟩
      rw [if_neg hloop, if_neg hloop, if_neg hname, if_neg hname, h n hfree]

/-- A path is followed from the value of its first name. -/
theorem resolve?_eq_bind (scope : Scope) (p : Path) :
    scope.resolve? p =
      (scope.name? p.root).bind fun v => p.steps.foldlM (fun v step => step.follow? v) v := rfl

/-- What a path leads to is its operand's value; null stands for nothing. -/
theorem value_path (scope : Scope) (p : Path) :
    scope.value (.path p) = (scope.resolve? p).getD .null := rfl

theorem AgreeOn.resolve?_eq {p : Path} (h : AgreeOn names scope scope') (hp : p.root ∈ names) :
    scope.resolve? p = scope'.resolve? p := by
  rw [resolve?_eq_bind, resolve?_eq_bind, h p.root hp]

theorem AgreeOn.items_eq {p : Path} (h : AgreeOn names scope scope') (hp : p.root ∈ names) :
    scope.items p = scope'.items p := by
  unfold Scope.items
  rw [h.resolve?_eq hp]

theorem AgreeOn.value_eq {x : Operand} (h : AgreeOn x.names scope scope') :
    scope.value x = scope'.value x := by
  cases x with
  | literal v => rfl
  | path p => rw [value_path, value_path, h.resolve?_eq (p := p) List.mem_cons_self]

end Scope

open Scope (AgreeOn)

/-- A condition holds in both of two scopes that agree on its names, or in neither. -/
theorem Cond.holds_eq_of_agreeOn {scope scope' : Scope} :
    ∀ {c : Cond}, AgreeOn c.names scope scope' → c.holds scope = c.holds scope'
  | .operand _, h => by rw [holds, holds, h.value_eq]
  | .compare _ _ _, h => by rw [holds, holds, h.left.value_eq, h.right.value_eq]
  | .not c, h => by rw [holds, holds, holds_eq_of_agreeOn (c := c) h]
  | .and _ _, h => by
    rw [holds, holds, holds_eq_of_agreeOn h.left, holds_eq_of_agreeOn h.right]
  | .or _ _, h => by
    rw [holds, holds, holds_eq_of_agreeOn h.left, holds_eq_of_agreeOn h.right]

theorem Output.render_eq_of_agreeOn {scope scope' : Scope} {o : Output}
    (h : AgreeOn o.operand.names scope scope') : o.render scope = o.render scope' := by
  unfold Output.render
  rw [h.value_eq]

/-! ### Nodes -/

mutual

theorem Node.render_eq_of_agreeOn : ∀ {n : Node} {scope scope' : Scope},
    AgreeOn n.freeNames scope scope' → n.render scope = n.render scope'
  | .text _, _, _, _ => by rw [Node.render, Node.render]
  | .output o, scope, scope', h => by
    rw [Node.render, Node.render]
    exact Output.render_eq_of_agreeOn h
  | .loop name source body, scope, scope', h => by
    have hsource : scope.items source = scope'.items source := h.items_eq List.mem_cons_self
    have hbody : AgreeOn (unbound name (nodesFreeNames body)) scope scope' :=
      h.mono (List.subset_cons_self _ _)
    have hitem (item loop : Json) : nodesRender (scope.bind name item loop) body =
        nodesRender (scope'.bind name item loop) body :=
      nodesRender_eq_of_agreeOn (hbody.bind item loop)
    rw [Node.render, Node.render, hsource]
    simp only [hitem]
  | .choice branches otherwise, scope, scope', h => by
    rw [Node.render, Node.render, branchesRender_eq_of_agreeOn h.left,
      nodesRender_eq_of_agreeOn h.right]

/-- **Nodes are rendered alike in scopes that agree on their free names.** -/
theorem nodesRender_eq_of_agreeOn : ∀ {ns : List Node} {scope scope' : Scope},
    AgreeOn (nodesFreeNames ns) scope scope' → nodesRender scope ns = nodesRender scope' ns
  | [], _, _, _ => by rw [nodesRender, nodesRender]
  | _ :: _, _, _, h => by
    rw [nodesRender, nodesRender, Node.render_eq_of_agreeOn h.left,
      nodesRender_eq_of_agreeOn h.right]

theorem branchesRender_eq_of_agreeOn : ∀ {bs : List (Cond × List Node)} {scope scope' : Scope},
    AgreeOn (branchesFreeNames bs) scope scope' →
      branchesRender scope bs = branchesRender scope' bs
  | [], _, _, _ => by rw [branchesRender, branchesRender]
  | _ :: _, _, _, h => by
    rw [branchesRender, branchesRender, Cond.holds_eq_of_agreeOn h.left,
      nodesRender_eq_of_agreeOn h.right.left, branchesRender_eq_of_agreeOn h.right.right]

end

/-- **A template sees only the names that it mentions.** Contexts that have the same value at every
free name of a template, or both none, are rendered to the same text or fail with the same error. -/
theorem render_eq_of_freeNames (t : Template) (context context' : Json)
    (h : ∀ name ∈ t.freeNames, context.member? name = context'.member? name) :
    t.render context = t.render context' := by
  have hagree : AgreeOn (nodesFreeNames t.nodes) ⟨context, []⟩ ⟨context', []⟩ := h
  unfold Template.render
  rw [nodesRender_eq_of_agreeOn hagree]

/-- A loop whose variable is bound again by a loop over it, and an output of another name. -/
def reboundSource : String :=
  "\x7b% for y in xs %\x7d\x7b% for y in y %\x7d\x7b\x7b y \x7d\x7d\x7b\x7b loop.index \x7d\x7d" ++
    "\x7b% endfor %\x7d\x7b% endfor %\x7d\x7b\x7b x \x7d\x7d"

/-- The template of the loop. -/
def reboundTemplate : Template :=
  ⟨[.loop "y" ⟨"xs", "xs", []⟩ [.loop "y" ⟨"y", "y", []⟩
      [.output ⟨.path ⟨"y", "y", []⟩, []⟩,
        .output ⟨.path ⟨"loop.index", "loop", [.key "index"]⟩, []⟩]],
    .output ⟨.path ⟨"x", "x", []⟩, []⟩]⟩

/-- A context with lists at `xs`, nothing at `x`, and other members. -/
def reboundContext (others : Members) : Json :=
  .obj (others ++ [("xs", .arr [.texts ["a", "b"], .texts ["c"]])])

theorem render_eq_of_freeNames_rebound :
    parse reboundSource = .ok reboundTemplate ∧ reboundTemplate.freeNames = ["xs", "x"] ∧
      reboundTemplate.render (reboundContext [("y", .str "top"), ("loop", .null)]) =
        reboundTemplate.render (reboundContext [("z", .str "top")]) ∧
      reboundTemplate.render (reboundContext [("z", .str "top")]) = .ok "a1b2c1" := by
  have hfree : reboundTemplate.freeNames = ["xs", "x"] := by decide
  have hparse : parse reboundSource = .ok reboundTemplate := (parse_append _ _).trans (by with_unfolding_all rfl)
  refine ⟨hparse, hfree, render_eq_of_freeNames _ _ _ ?_, by with_unfolding_all rfl⟩
  rw [hfree]
  exact List.forall_mem_cons.mpr ⟨rfl, List.forall_mem_singleton.mpr rfl⟩

end ExperimentKpi.Template

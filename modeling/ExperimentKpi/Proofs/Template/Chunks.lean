/-
# Where rendered text comes from

Rendered text is a row of chunks: pieces of the template's own text and printed values, in the order
of the outputs that loops and choices lead to. Rendering puts the chunks in a row
(`nodesRender_eq_chunks`). An output between two texts gives a value between two texts
(`nodesChunks_output`).

Key definitions: `Template.Chunk`, `Template.nodesChunks`, `Template.chunksText`.
Key theorems: `nodesRender_eq_chunks`, `nodesChunks_output`.
-/
import ExperimentKpi.Template.Render

namespace ExperimentKpi.Template

/-- A piece of rendered text: the template's own, or a printed value. -/
inductive Chunk where
  | text (content : List Char)
  | value (content : List Char)
deriving DecidableEq, Repr

/-- The characters of a chunk. -/
def Chunk.content : Chunk → List Char
  | text content => content
  | value content => content

/-- Chunks in a row. -/
def chunksText (cs : List Chunk) : List Char :=
  cs.flatMap Chunk.content

@[simp] theorem chunksText_append (cs ds : List Chunk) :
    chunksText (cs ++ ds) = chunksText cs ++ chunksText ds :=
  List.flatMap_append

/-- The chunks that `body` gives for the items of a list, from the item at `index` on. -/
def eachItemChunks (body : Nat → Json → Except RenderError (List Chunk)) :
    Nat → List Json → Except RenderError (List Chunk)
  | _, [] => .ok []
  | index, item :: r => do
    let here ← body index item
    let after ← eachItemChunks body (index + 1) r
    return here ++ after

mutual

/-- The chunks of a node. -/
def Node.chunks (scope : Scope) : Node → Except RenderError (List Chunk)
  | .text content => .ok [.text content]
  | .output o => (o.render scope).map fun content => [.value content]
  | .loop name source body => do
    let items ← scope.items source
    let length := items.length
    eachItemChunks
      (fun index item => nodesChunks (scope.bind name item (loopState index length)) body) 0 items
  | .choice branches otherwise =>
    match branchesChunks scope branches with
    | some result => result
    | none => nodesChunks scope otherwise

/-- The chunks of nodes in a row. -/
def nodesChunks (scope : Scope) : List Node → Except RenderError (List Chunk)
  | [] => .ok []
  | node :: r => do
    let here ← node.chunks scope
    let after ← nodesChunks scope r
    return here ++ after

/-- The chunks of the first branch whose condition holds. -/
def branchesChunks (scope : Scope) :
    List (Cond × List Node) → Option (Except RenderError (List Chunk))
  | [] => none
  | (cond, body) :: r =>
    if cond.holds scope then some (nodesChunks scope body) else branchesChunks scope r

end

/-- Texts that are chunks in a row, one after the other. -/
theorem bind_chunks {x y : Except RenderError (List Chunk)} :
    ((x.map chunksText).bind fun here => (y.map chunksText).bind fun after => .ok (here ++ after)) =
      (x.bind fun here => y.bind fun after => .ok (here ++ after)).map chunksText := by
  cases x with
  | error e => rfl
  | ok cs =>
    cases y with
    | error e => rfl
    | ok ds => exact congrArg Except.ok (chunksText_append cs ds).symm

theorem eachItem_eq_chunks {body : Nat → Json → Except RenderError (List Char)}
    {chunks : Nat → Json → Except RenderError (List Chunk)}
    (h : ∀ index item, body index item = (chunks index item).map chunksText) :
    ∀ (index : Nat) (items : List Json),
      eachItem body index items = (eachItemChunks chunks index items).map chunksText
  | _, [] => rfl
  | index, item :: r => by
    have hrest := eachItem_eq_chunks h (index + 1) r
    rw [eachItem, eachItemChunks, h, hrest]
    exact bind_chunks

mutual

theorem Node.render_eq_chunks : ∀ (n : Node) (scope : Scope),
    n.render scope = (n.chunks scope).map chunksText
  | .text content, scope => by
    rw [Node.render, Node.chunks]
    exact congrArg Except.ok (List.append_nil content).symm
  | .output o, scope => by
    rw [Node.render, Node.chunks]
    cases o.render scope with
    | error e => rfl
    | ok content => exact congrArg Except.ok (List.append_nil content).symm
  | .loop name source body, scope => by
    rw [Node.render, Node.chunks]
    cases scope.items source with
    | error e => rfl
    | ok items => exact eachItem_eq_chunks (fun _ _ => nodesRender_eq_chunks body _) 0 items
  | .choice branches otherwise, scope => by
    rw [Node.render, Node.chunks, branchesRender_eq_chunks branches scope]
    cases branchesChunks scope branches with
    | none => exact nodesRender_eq_chunks otherwise scope
    | some result => rfl

/-- **Rendered text is the chunks in a row.** -/
theorem nodesRender_eq_chunks : ∀ (ns : List Node) (scope : Scope),
    nodesRender scope ns = (nodesChunks scope ns).map chunksText
  | [], _ => by
    rw [nodesRender, nodesChunks]
    rfl
  | n :: ns, scope => by
    rw [nodesRender, nodesChunks, Node.render_eq_chunks n scope, nodesRender_eq_chunks ns scope]
    exact bind_chunks

theorem branchesRender_eq_chunks : ∀ (bs : List (Cond × List Node)) (scope : Scope),
    branchesRender scope bs = (branchesChunks scope bs).map (·.map chunksText)
  | [], _ => by
    rw [branchesRender, branchesChunks]
    rfl
  | (cond, body) :: bs, scope => by
    rw [branchesRender, branchesChunks]
    by_cases hc : cond.holds scope = true
    · rw [if_pos hc, if_pos hc, nodesRender_eq_chunks body scope]
      rfl
    · rw [if_neg hc, if_neg hc, branchesRender_eq_chunks bs scope]

end

/-- An output between two texts gives a value between two texts, whatever stands around them. -/
theorem nodesChunks_output {ns ms : List Node} {left right : List Char} {o : Output} {scope : Scope}
    {cs : List Chunk}
    (h : nodesChunks scope (ns ++ Node.text left :: .output o :: .text right :: ms) = .ok cs) :
    ∃ before v after, o.render scope = .ok v ∧
      cs = before ++ Chunk.text left :: .value v :: .text right :: after := by
  induction ns generalizing cs with
  | nil =>
    simp only [List.nil_append, nodesChunks, Node.chunks] at h
    cases hv : o.render scope with
    | error e => rw [hv] at h; cases h
    | ok v =>
      cases hms : nodesChunks scope ms with
      | error e => rw [hv, hms] at h; cases h
      | ok after =>
        rw [hv, hms] at h
        exact ⟨[], v, after, rfl, (Except.ok.inj h).symm⟩
  | cons n ns ih =>
    rw [List.cons_append, nodesChunks] at h
    cases hn : n.chunks scope with
    | error e => rw [hn] at h; cases h
    | ok here =>
      cases hrest : nodesChunks scope (ns ++ .text left :: .output o :: .text right :: ms) with
      | error e => rw [hn, hrest] at h; cases h
      | ok rest =>
        rw [hn, hrest] at h
        obtain ⟨before, v, after, hv, rfl⟩ := ih hrest
        refine ⟨here ++ before, v, after, hv, ?_⟩
        rw [List.append_assoc]
        exact (Except.ok.inj h).symm

end ExperimentKpi.Template

/-
# Loop variables can be renamed

A loop's variable is a name for the item and nothing else. Another name in its place, in the header and
wherever the body mentions the variable free, gives a loop that prints the same text, or fails where the
first one fails and in the same way; only the labels of errors spell the new name
(`render_loop_rename`). The new name must not be `loop`, and no path in the body may start with it and
no loop there bind it.

One scope stands for another under a renaming if it has the value of the old name at the new one and
agrees at all names but these two (`Scope.Renames`). Loops in the body keep that as long as they bind
another variable. A loop that binds the old name hides it: below it nothing is renamed, and the scopes
agree on all that is free there.

Key definitions: `nodesRename`, `nodesAllNames`, `nodesLoops`, `Scope.Renames`, `Alike`.
Key theorems: `nodesFreeNames_subset`, `Grows.loopName_ne`, `Scope.Renames.bind`, `nodesRender_rename`,
`render_loop_rename`.
-/
import ExperimentKpi.Proofs.Template.Blocks
import ExperimentKpi.Proofs.Template.FreeNames
import ExperimentKpi.Proofs.Template.TagForms

namespace ExperimentKpi.Template

/-! ### Outcomes that are alike -/

/-- The errors are of the same kind: they differ at most in what they call the value at fault. -/
inductive RenderError.SameKind : RenderError → RenderError → Prop where
  | notPrintable (label label' : String) (kind : Compound) :
      SameKind (.notPrintable label kind) (.notPrintable label' kind)
  | notIterable (label label' : String) : SameKind (.notIterable label) (.notIterable label')
  | badFilterInput (filter label label' : String) :
      SameKind (.badFilterInput filter label) (.badFilterInput filter label')

/-- Both succeed with the same result, or both fail with errors of the same kind. -/
inductive Alike {α : Type} : Except RenderError α → Except RenderError α → Prop where
  | ok (a : α) : Alike (.ok a) (.ok a)
  | error {e e' : RenderError} (h : e.SameKind e') : Alike (.error e) (.error e')

namespace Alike

variable {α β : Type} {r r' : Except RenderError α}

theorem refl (r : Except RenderError α) : Alike r r := by
  cases r with
  | ok a => exact .ok a
  | error e =>
    cases e with
    | notPrintable label kind => exact .error (.notPrintable label label kind)
    | notIterable label => exact .error (.notIterable label label)
    | badFilterInput filter label => exact .error (.badFilterInput filter label label)

theorem of_eq (h : r = r') : Alike r r' := h ▸ refl r

theorem bind {f f' : α → Except RenderError β} (h : Alike r r') (hf : ∀ a, Alike (f a) (f' a)) :
    Alike (r >>= f) (r' >>= f') := by
  cases h with
  | ok a => exact hf a
  | error h => exact .error h

theorem map (f : α → β) (h : Alike r r') : Alike (r.map f) (r'.map f) := by
  cases h with
  | ok a => exact .ok (f a)
  | error h => exact .error h

/-- Texts that are put in a row. -/
theorem append {r r' s s' : Except RenderError (List Char)} (h : Alike r r') (hs : Alike s s') :
    Alike (do let x ← r; let y ← s; return x ++ y) (do let x ← r'; let y ← s'; return x ++ y) :=
  h.bind fun x => hs.bind fun y => .ok (x ++ y)

theorem eachItem {body body' : Nat → Json → Except RenderError (List Char)}
    (h : ∀ index item, Alike (body index item) (body' index item)) :
    ∀ (index : Nat) (items : List Json),
      Alike (Template.eachItem body index items) (Template.eachItem body' index items)
  | _, [] => .ok []
  | index, item :: r => (h index item).append (eachItem h (index + 1) r)

end Alike

/-! ### Labels -/

theorem scalarText_alike (label label' : String) (v : Json) :
    Alike (scalarText label v) (scalarText label' v) := by
  cases v with
  | arr => exact .error (.notPrintable label label' .array)
  | obj => exact .error (.notPrintable label label' .object)
  | bool b => cases b <;> exact .ok _
  | null | num | str => exact .ok _

theorem mapM_scalarText_alike (label label' : String) (vs : List Json) :
    Alike (vs.mapM (scalarText label)) (vs.mapM (scalarText label')) := by
  induction vs with
  | nil => exact .ok []
  | cons v vs ih =>
    rw [List.mapM_cons, List.mapM_cons]
    exact (scalarText_alike label label' v).bind fun text => ih.bind fun texts => .ok (text :: texts)

/-- What a filter makes of a value does not depend on what the value is called. -/
theorem Filter.apply_alike (label label' : String) (v : Json) (f : Filter) :
    Alike (f.apply label v) (f.apply label' v) := by
  cases f with
  | fallback text => exact .refl _
  | lower | upper => exact (scalarText_alike label label' v).map _
  | length =>
    unfold apply
    cases length? v with
    | some n => exact .ok (Json.int n)
    | none => exact .error (.badFilterInput "length" label label')
  | join separator =>
    cases v with
    | null => exact .ok (Json.str "")
    | arr items =>
      have htexts := mapM_scalarText_alike label label' items
      exact (htexts.bind fun texts => .ok _).map Json.str
    | _ => exact .error (.badFilterInput "join" label label')

theorem filters_alike (label label' : String) (fs : List Filter) (v : Json) :
    Alike (fs.foldlM (fun v f => f.apply label v) v) (fs.foldlM (fun v f => f.apply label' v) v) := by
  induction fs generalizing v with
  | nil => exact .ok v
  | cons f fs ih =>
    rw [List.foldlM_cons, List.foldlM_cons]
    exact (f.apply_alike label label' v).bind ih

/-! ### Renaming -/

/-- A path with `y` for `x` if it starts with that name. -/
def Path.rename (x y : String) (p : Path) : Path :=
  if p.root = x then ⟨y ++ String.ofList (p.source.toList.drop x.length), y, p.steps⟩ else p

/-- An operand with `y` for `x`. -/
def Operand.rename (x y : String) : Operand → Operand
  | path p => .path (p.rename x y)
  | literal v => .literal v

/-- An output with `y` for `x`. -/
def Output.rename (x y : String) (o : Output) : Output :=
  { o with operand := o.operand.rename x y }

/-- A condition with `y` for `x`. -/
def Cond.rename (x y : String) : Cond → Cond
  | operand a => .operand (a.rename x y)
  | compare left op right => .compare (left.rename x y) op (right.rename x y)
  | not c => .not (c.rename x y)
  | and left right => .and (left.rename x y) (right.rename x y)
  | or left right => .or (left.rename x y) (right.rename x y)

mutual

/-- A node with `y` for `x` where `x` is free. The path of a loop over `x` is not below that loop. -/
def Node.rename (x y : String) : Node → Node
  | .text content => .text content
  | .output o => .output (o.rename x y)
  | .loop name source body =>
    .loop name (source.rename x y) (if name = x then body else nodesRename x y body)
  | .choice branches otherwise => .choice (branchesRename x y branches) (nodesRename x y otherwise)

/-- Nodes with `y` for `x` where `x` is free. -/
def nodesRename (x y : String) : List Node → List Node
  | [] => []
  | node :: r => node.rename x y :: nodesRename x y r

/-- Branches with `y` for `x` where `x` is free. -/
def branchesRename (x y : String) : List (Cond × List Node) → List (Cond × List Node)
  | [] => []
  | (cond, body) :: r => (cond.rename x y, nodesRename x y body) :: branchesRename x y r

end

/-! ### All names and all loops -/

mutual

/-- The names in a node: those that its paths start with and those that its loops bind. -/
def Node.allNames : Node → List String
  | .text _ => []
  | .output o => o.operand.names
  | .loop name source body => source.root :: name :: nodesAllNames body
  | .choice branches otherwise => branchesAllNames branches ++ nodesAllNames otherwise

/-- The names in nodes. -/
def nodesAllNames : List Node → List String
  | [] => []
  | node :: r => node.allNames ++ nodesAllNames r

/-- The names in branches. -/
def branchesAllNames : List (Cond × List Node) → List String
  | [] => []
  | (cond, body) :: r => cond.names ++ (nodesAllNames body ++ branchesAllNames r)

end

mutual

/-- The loops in a node, itself included: their variables, paths and bodies. -/
def Node.loops : Node → List (String × Path × List Node)
  | .text _ | .output _ => []
  | .loop name source body => (name, source, body) :: nodesLoops body
  | .choice branches otherwise => branchesLoops branches ++ nodesLoops otherwise

/-- The loops in nodes. -/
def nodesLoops : List Node → List (String × Path × List Node)
  | [] => []
  | node :: r => node.loops ++ nodesLoops r

/-- The loops in the bodies of branches. -/
def branchesLoops : List (Cond × List Node) → List (String × Path × List Node)
  | [] => []
  | (_, body) :: r => nodesLoops body ++ branchesLoops r

end

theorem append_subset_append {names names' all all' : List String} (h : names ⊆ all)
    (h' : names' ⊆ all') : names ++ names' ⊆ all ++ all' :=
  List.append_subset_of_subset_of_subset (List.subset_append_of_subset_left _ h)
    (List.subset_append_of_subset_right _ h')

mutual

theorem Node.freeNames_subset : ∀ n : Node, n.freeNames ⊆ n.allNames
  | .text _ | .output _ => List.Subset.refl _
  | .loop name source body => by
    have hbody : unbound name (nodesFreeNames body) ⊆ nodesAllNames body :=
      List.Subset.trans (List.filter_subset_self _) (nodesFreeNames_subset body)
    rw [Node.freeNames, Node.allNames]
    exact List.cons_subset_cons _ (List.Subset.trans hbody (List.subset_cons_self _ _))
  | .choice branches otherwise => by
    rw [Node.freeNames, Node.allNames]
    exact append_subset_append (branchesFreeNames_subset branches) (nodesFreeNames_subset otherwise)

/-- A free name is the first name of some path. -/
theorem nodesFreeNames_subset : ∀ ns : List Node, nodesFreeNames ns ⊆ nodesAllNames ns
  | [] => List.Subset.refl _
  | n :: r => by
    rw [nodesFreeNames, nodesAllNames]
    exact append_subset_append n.freeNames_subset (nodesFreeNames_subset r)

theorem branchesFreeNames_subset : ∀ bs : List (Cond × List Node),
    branchesFreeNames bs ⊆ branchesAllNames bs
  | [] => List.Subset.refl _
  | (cond, body) :: r => by
    rw [branchesFreeNames, branchesAllNames]
    exact append_subset_append (List.Subset.refl _)
      (append_subset_append (nodesFreeNames_subset body) (branchesFreeNames_subset r))

end

/-! ### Loops that are read -/

/-- The loops in what tokens grow into. -/
def Growth.loops : Growth → List (String × Path × List Node)
  | block ns | item ns => nodesLoops ns
  | branches bs => branchesLoops bs

@[simp]
theorem nodesLoops_append (ns ms : List Node) :
    nodesLoops (ns ++ ms) = nodesLoops ns ++ nodesLoops ms := by
  induction ns with
  | nil => rfl
  | cons node r ih => rw [List.cons_append, nodesLoops, nodesLoops, ih, List.append_assoc]

@[simp]
theorem branchesLoops_append (bs cs : List (Cond × List Node)) :
    branchesLoops (bs ++ cs) = branchesLoops bs ++ branchesLoops cs := by
  induction bs with
  | nil => rfl
  | cons b r ih => rw [List.cons_append, branchesLoops, branchesLoops, ih, List.append_assoc]

theorem loops_textNodes (content : List Char) : nodesLoops (textNodes content) = [] := by
  cases content <;> rfl

/-- No loop that is read has the variable `loop`. -/
theorem Grows.loopName_ne {n : Nat} {ts : List Token} {g : Growth} (h : Grows n ts g) :
    ∀ l ∈ g.loops, l.1 ≠ "loop" := by
  induction h with
  | empty | output => exact nofun
  | text content =>
    rw [Growth.loops, loops_textNodes]
    exact nofun
  | snoc _ _ ihb ihl =>
    rw [Growth.loops, nodesLoops_append, List.forall_mem_append]
    exact ⟨ihb, ihl⟩
  | loop _ header _ _ ih =>
    obtain ⟨-, -, ⟨-, hname⟩, -⟩ := loopHeader_ok header
    simp only [Growth.loops, nodesLoops, Node.loops, List.append_nil, List.forall_mem_cons]
    exact ⟨fun heq => hname (congrArg String.toList heq), ih⟩
  | choice _ _ ih =>
    simpa [Growth.loops, nodesLoops, Node.loops] using ih
  | choiceElse _ _ _ _ ihb iho =>
    simp only [Growth.loops, nodesLoops, Node.loops, List.append_nil, List.forall_mem_append]
    exact ⟨ihb, iho⟩
  | first _ _ _ ih =>
    simpa [Growth.loops, branchesLoops] using ih
  | next _ _ _ _ ihb ih =>
    simp only [Growth.loops, branchesLoops_append, branchesLoops, List.append_nil,
      List.forall_mem_append]
    exact ⟨ihb, ih⟩

/-! ### Scopes that differ in one name -/

namespace Scope

variable {x y : String} {scope scope' : Scope}

/-- The second scope has at `y` what the first one has at `x`, and they agree at all other names. -/
structure Renames (x y : String) (scope scope' : Scope) : Prop where
  renamed : scope'.name? y = scope.name? x
  other : ∀ n, n ≠ x → n ≠ y → scope'.name? n = scope.name? n

/-- Binding an item to one name or to the other. -/
theorem renames_bind (hx : x ≠ "loop") (hy : y ≠ "loop") (scope : Scope) (item loop : Json) :
    Renames x y (scope.bind x item loop) (scope.bind y item loop) where
  renamed := by rw [name?_bind, name?_bind, if_neg hx, if_neg hy, if_pos rfl, if_pos rfl]
  other n hnx hny := by rw [name?_bind, name?_bind, if_neg hnx, if_neg hny]

/-- A loop over a third name keeps scopes apart in the same way. -/
theorem Renames.bind {z : String} (h : Renames x y scope scope') (hx : x ≠ "loop") (hy : y ≠ "loop")
    (hzx : z ≠ x) (hzy : z ≠ y) (item loop : Json) :
    Renames x y (scope.bind z item loop) (scope'.bind z item loop) where
  renamed := by
    rw [name?_bind, name?_bind, if_neg hx, if_neg hy, if_neg hzx.symm, if_neg hzy.symm, h.renamed]
  other n hnx hny := by rw [name?_bind, name?_bind, h.other n hnx hny]

/-- A loop over the old name hides it, so that its body sees no difference. -/
theorem Renames.agreeOn_bind {names : List String} (h : Renames x y scope scope') (hy : y ∉ names)
    (item loop : Json) : AgreeOn names (scope.bind x item loop) (scope'.bind x item loop) := by
  refine AgreeOn.bind (fun n hn => ?_) item loop
  obtain ⟨hmem, hne⟩ := List.mem_filter.mp hn
  have hnx : n ≠ x := (of_decide_eq_true hne).1
  have hny : n ≠ y := fun heq => hy (heq ▸ hmem)
  exact (h.other n hnx hny).symm

/-- A renamed path leads to the same value. -/
theorem Renames.resolve?_eq {p : Path} (h : Renames x y scope scope') (hp : p.root ≠ y) :
    scope'.resolve? (p.rename x y) = scope.resolve? p := by
  unfold Path.rename
  by_cases hroot : p.root = x
  · rw [if_pos hroot, resolve?_eq_bind, resolve?_eq_bind, hroot]
    show (scope'.name? y).bind _ = (scope.name? x).bind _
    rw [h.renamed]
  · rw [if_neg hroot, resolve?_eq_bind, resolve?_eq_bind, h.other p.root hroot hp]

theorem Renames.items_alike {p : Path} (h : Renames x y scope scope') (hp : p.root ≠ y) :
    Alike (scope.items p) (scope'.items (p.rename x y)) := by
  unfold items
  rw [h.resolve?_eq hp]
  cases scope.resolve? p with
  | none => exact .ok []
  | some v =>
    cases v with
    | null => exact .ok []
    | arr vs => exact .ok vs
    | _ => exact .error (.notIterable _ _)

theorem Renames.value_eq {a : Operand} (h : Renames x y scope scope') (ha : y ∉ a.names) :
    scope'.value (a.rename x y) = scope.value a := by
  cases a with
  | literal v => rfl
  | path p =>
    have hp : p.root ≠ y := fun heq => ha (List.mem_singleton.mpr heq.symm)
    rw [Operand.rename, value_path, value_path, h.resolve?_eq hp]

end Scope

open Scope (Renames)

section Renaming

variable {x y : String}

theorem Cond.holds_rename {scope scope' : Scope} (h : Renames x y scope scope') :
    ∀ {c : Cond}, y ∉ c.names → (c.rename x y).holds scope' = c.holds scope
  | .operand _, hc => by rw [rename, holds, holds, h.value_eq hc]
  | .compare _ _ _, hc => by
    obtain ⟨hl, hr⟩ := not_or.mp (mt List.mem_append.mpr hc)
    rw [rename, holds, holds, h.value_eq hl, h.value_eq hr]
  | .not c, hc => by rw [rename, holds, holds, holds_rename h (c := c) hc]
  | .and _ _, hc => by
    obtain ⟨hl, hr⟩ := not_or.mp (mt List.mem_append.mpr hc)
    rw [rename, holds, holds, holds_rename h hl, holds_rename h hr]
  | .or _ _, hc => by
    obtain ⟨hl, hr⟩ := not_or.mp (mt List.mem_append.mpr hc)
    rw [rename, holds, holds, holds_rename h hl, holds_rename h hr]

theorem Output.render_rename {scope scope' : Scope} {o : Output} (h : Renames x y scope scope')
    (ho : y ∉ o.operand.names) : Alike (o.render scope) ((o.rename x y).render scope') := by
  unfold Output.render Output.rename
  rw [h.value_eq ho]
  exact (filters_alike _ _ o.filters _).bind (scalarText_alike _ _)

mutual

theorem Node.render_rename (hx : x ≠ "loop") (hy : y ≠ "loop") : ∀ {n : Node} {scope scope' : Scope},
    Renames x y scope scope' → y ∉ n.allNames →
      Alike (n.render scope) ((n.rename x y).render scope')
  | .text content, _, _, _, _ => by
    rw [Node.rename, Node.render, Node.render]
    exact .ok content
  | .output o, _, _, h, hn => by
    rw [Node.rename, Node.render, Node.render]
    exact Output.render_rename h hn
  | .loop z source body, scope, scope', h, hn => by
    obtain ⟨hsource, hn⟩ := not_or.mp (mt List.mem_cons.mpr hn)
    obtain ⟨hzy, hbody⟩ := not_or.mp (mt List.mem_cons.mpr hn)
    rw [Node.rename, Node.render, Node.render]
    refine (h.items_alike (Ne.symm hsource)).bind fun items => Alike.eachItem (fun index item => ?_) 0 items
    by_cases hzx : z = x
    · -- the body is as it was, and it does not see the name that the scopes differ in
      subst hzx
      rw [if_pos rfl]
      have hfree : y ∉ nodesFreeNames body := fun hmem => hbody (nodesFreeNames_subset body hmem)
      exact .of_eq (nodesRender_eq_of_agreeOn (h.agreeOn_bind hfree _ _))
    · rw [if_neg hzx]
      exact nodesRender_rename hx hy (h.bind hx hy hzx (Ne.symm hzy) _ _) hbody
  | .choice branches otherwise, scope, scope', h, hn => by
    obtain ⟨hbranches, hother⟩ := not_or.mp (mt List.mem_append.mpr hn)
    have hchosen := branchesRender_rename hx hy h hbranches
    have helse := nodesRender_rename hx hy h hother
    rw [Node.rename, Node.render, Node.render]
    generalize branchesRender scope branches = chosen at hchosen ⊢
    generalize branchesRender scope' (branchesRename x y branches) = chosen' at hchosen ⊢
    cases hchosen with
    | some hsome => exact hsome
    | none => exact helse

/-- **Renamed nodes are rendered alike in a scope that has the value of the old name at the new one.** -/
theorem nodesRender_rename (hx : x ≠ "loop") (hy : y ≠ "loop") :
    ∀ {ns : List Node} {scope scope' : Scope}, Renames x y scope scope' → y ∉ nodesAllNames ns →
      Alike (nodesRender scope ns) (nodesRender scope' (nodesRename x y ns))
  | [], _, _, _, _ => by
    rw [nodesRename, nodesRender, nodesRender]
    exact .ok []
  | _ :: _, _, _, h, hns => by
    obtain ⟨hn, hr⟩ := not_or.mp (mt List.mem_append.mpr hns)
    rw [nodesRename, nodesRender, nodesRender]
    exact (Node.render_rename hx hy h hn).append (nodesRender_rename hx hy h hr)

theorem branchesRender_rename (hx : x ≠ "loop") (hy : y ≠ "loop") :
    ∀ {bs : List (Cond × List Node)} {scope scope' : Scope}, Renames x y scope scope' →
      y ∉ branchesAllNames bs →
        Option.Rel Alike (branchesRender scope bs) (branchesRender scope' (branchesRename x y bs))
  | [], _, _, _, _ => by
    rw [branchesRename, branchesRender, branchesRender]
    exact .none
  | (cond, body) :: r, scope, scope', h, hbs => by
    obtain ⟨hc, hbs⟩ := not_or.mp (mt List.mem_append.mpr hbs)
    obtain ⟨hbody, hr⟩ := not_or.mp (mt List.mem_append.mpr hbs)
    rw [branchesRename, branchesRender, branchesRender, Cond.holds_rename h hc]
    by_cases hholds : cond.holds scope = true
    · rw [if_pos hholds, if_pos hholds]
      exact .some (nodesRender_rename hx hy h hbody)
    · rw [if_neg hholds, if_neg hholds]
      exact branchesRender_rename hx hy h hr

end

/-- **A loop's variable can be renamed.** Take any loop of a template, at any depth, and any name but
`loop` that no path in the loop's body starts with and no loop there binds. The loop with that name for
its variable, in the header and wherever the variable is free in the body, prints the same text in every
scope, or fails where the loop fails and with an error of the same kind. -/
theorem render_loop_rename {source : String} {t : Template} {p : Path} {body : List Node}
    (hparse : parse source = .ok t) (hloop : (x, p, body) ∈ nodesLoops t.nodes)
    (hy : y ≠ "loop") (hfresh : y ∉ nodesAllNames body) (scope : Scope) :
    Alike ((Node.loop x p body).render scope) ((Node.loop y p (nodesRename x y body)).render scope) := by
  obtain ⟨ps, -, hgrows⟩ := grows_of_parse hparse
  have hx : x ≠ "loop" := hgrows.loopName_ne _ hloop
  rw [Node.render, Node.render]
  refine (Alike.refl (scope.items p)).bind fun items => Alike.eachItem (fun index item => ?_) 0 items
  exact nodesRender_rename hx hy (Scope.renames_bind hx hy scope item _) hfresh

end Renaming

/-- A loop whose body hides the variable behind that of a loop over one of its members, and mentions it
again after that. -/
def hidingSource : String :=
  "\x7b% for x in outer %\x7d\x7b% for x in x.inner %\x7d\x7b\x7b x \x7d\x7d\x7b% endfor %\x7d" ++
    "\x7b% if loop.last %\x7d\x7b\x7b x.name \x7d\x7d\x7b% endif %\x7d;\x7b% endfor %\x7d"

/-- The body of the loop, for a variable of the given name. -/
def hidingBody (name : String) : List Node :=
  [.loop "x" ⟨name ++ ".inner", name, [.key "inner"]⟩ [.output ⟨.path ⟨"x", "x", []⟩, []⟩],
    .choice [(.operand (.path ⟨"loop.last", "loop", [.key "last"]⟩),
      [.output ⟨.path ⟨name ++ ".name", name, [.key "name"]⟩, []⟩])] [],
    .text [';']]

/-- A scope inside of a loop over `row`. -/
def hidingScope : Scope :=
  ⟨.obj [("outer", .arr [.obj [("inner", .texts ["a", "b"])],
      .obj [("inner", .texts ["c"]), ("name", .str "d")]])],
    [("loop", loopState 0 1), ("row", .str "e")]⟩

set_option maxRecDepth 2000 in
theorem render_loop_rename_hiding :
    parse hidingSource = .ok ⟨[.loop "x" ⟨"outer", "outer", []⟩ (hidingBody "x")]⟩ ∧
      nodesRename "x" "row" (hidingBody "x") = hidingBody "row" ∧
      Alike ((Node.loop "x" ⟨"outer", "outer", []⟩ (hidingBody "x")).render hidingScope)
        ((Node.loop "row" ⟨"outer", "outer", []⟩ (hidingBody "row")).render hidingScope) ∧
      (Node.loop "x" ⟨"outer", "outer", []⟩ (hidingBody "x")).render hidingScope =
        .ok "ab;cd;".toList := by
  have hparse : parse hidingSource = .ok ⟨[.loop "x" ⟨"outer", "outer", []⟩ (hidingBody "x")]⟩ :=
    (parse_append _ _).trans (by with_unfolding_all rfl)
  have hrename : nodesRename "x" "row" (hidingBody "x") = hidingBody "row" := by
    with_unfolding_all rfl
  refine ⟨hparse, hrename, ?_, by decide +kernel⟩
  rw [← hrename]
  exact render_loop_rename hparse List.mem_cons_self (by decide) (by decide) hidingScope

end ExperimentKpi.Template

/-
# Two ways to write a list

A list is written with a filter, `join`, or with a loop that prints a separator before every item but
the first, or behind every item but the last. For a list of scalars the three give the same text, as
they do for null and for a path that leads nowhere, which count as an empty list. The loop runs once for
each item, and `loop.length` and the filter `length` both are the number of items
(`render_separated`). The loop looks its path up in the scope around it, so the path may even start
with the loop's own variable.

Key definitions: `Scope.Lists`, `Json.IsScalar`, `separatedBefore`, `separatedAfter`.
Key theorems: `eachItem_of_forall₂`, `flatMap_before`, `flatMap_after`, `render_separated`.
-/
import ExperimentKpi.Proofs.Template.FreeNames
import ExperimentKpi.Proofs.Template.Joining

namespace ExperimentKpi

/-- The value is neither a list nor an object. -/
def Json.IsScalar : Json → Prop
  | .arr _ | .obj _ => False
  | _ => True

namespace Template

/-! ### Lists in scopes -/

/-- A path leads to a list of items; null and nothing count as an empty one. -/
inductive Scope.Lists (scope : Scope) (p : Path) : List Json → Prop where
  | items {items : List Json} (h : scope.resolve? p = some (.arr items)) : Lists scope p items
  | null (h : scope.resolve? p = some .null) : Lists scope p []
  | nothing (h : scope.resolve? p = none) : Lists scope p []

section

variable {scope : Scope} {p : Path} {items : List Json}

theorem Scope.Lists.items_eq (h : scope.Lists p items) : scope.items p = .ok items := by
  unfold Scope.items
  cases h with
  | items h | null h | nothing h => rw [h]

theorem Scope.Lists.value_eq (h : scope.Lists p items) :
    scope.value (.path p) = .arr items ∨ scope.value (.path p) = .null ∧ items = [] := by
  rw [Scope.value_path]
  cases h with
  | items h =>
    left
    rw [h, Option.getD_some]
  | null h | nothing h =>
    right
    rw [h]
    exact ⟨rfl, rfl⟩

end

/-! ### Texts of items -/

/-- The value is printed as the text, whatever it is called. -/
def HasText (v : Json) (text : List Char) : Prop :=
  ∀ label, scalarText label v = .ok text

theorem exists_hasText {v : Json} (h : v.IsScalar) : ∃ text, HasText v text := by
  cases v with
  | arr | obj => exact h.elim
  | bool b => cases b <;> exact ⟨_, fun _ => rfl⟩
  | null | num | str => exact ⟨_, fun _ => rfl⟩

theorem exists_texts {items : List Json} (h : ∀ v ∈ items, v.IsScalar) :
    ∃ texts, List.Forall₂ HasText items texts := by
  induction items with
  | nil => exact ⟨[], .nil⟩
  | cons v items ih =>
    obtain ⟨hv, hitems⟩ := List.forall_mem_cons.mp h
    obtain ⟨text, htext⟩ := exists_hasText hv
    obtain ⟨texts, htexts⟩ := ih hitems
    exact ⟨text :: texts, .cons htext htexts⟩

theorem mapM_scalarText {items : List Json} {texts : List (List Char)} (label : String)
    (h : List.Forall₂ HasText items texts) : items.mapM (scalarText label) = .ok texts := by
  induction h with
  | nil => rfl
  | cons hv _ ih =>
    rw [List.mapM_cons, hv label, ih]
    rfl

theorem joined_eq {items : List Json} {texts : List (List Char)} (label separator : String)
    (h : List.Forall₂ HasText items texts) :
    joined label separator items = .ok (String.ofList (separator.toList.intercalate texts)) := by
  unfold joined
  exact bind_of_ok (mapM_scalarText label h) _

/-! ### Texts with separators -/

/-- With the separator before every text but the first. -/
theorem flatMap_before (separator : List Char) : ∀ texts : List (List Char),
    (texts.zipIdx.flatMap fun t => (if t.2 = 0 then [] else separator) ++ t.1) =
      separator.intercalate texts
  | [] => rfl
  | text :: texts => by
    have hrest (index : Nat) : ∀ (text : List Char) (texts : List (List Char)),
        text ++ ((texts.zipIdx (index + 1)).flatMap fun t => (if t.2 = 0 then [] else separator) ++ t.1) =
          separator.intercalate (text :: texts) := by
      intro text texts
      induction texts generalizing text index with
      | nil => simp [List.intercalate_singleton]
      | cons next texts ih =>
        rw [List.intercalate_cons_cons, ← ih (index + 1) next, List.zipIdx_cons, List.flatMap_cons,
          if_neg (Nat.succ_ne_zero index)]
        simp only [List.append_assoc]
    rw [List.zipIdx_cons, List.flatMap_cons, if_pos rfl, List.nil_append, hrest 0]

/-- With the separator behind every text but the last. -/
theorem flatMap_after (separator : List Char) {n : Nat} : ∀ {texts : List (List Char)} {index : Nat},
    index + texts.length = n →
      ((texts.zipIdx index).flatMap fun t => t.1 ++ if t.2 + 1 = n then [] else separator) =
        separator.intercalate texts
  | [], _, _ => rfl
  | [text], index, h => by
    have hlast : index + 1 = n := h
    simp [List.intercalate_singleton, hlast]
  | text :: next :: texts, index, h => by
    have hmore : index + 1 ≠ n := by
      simp only [List.length_cons] at h
      omega
    have hrest : index + 1 + (next :: texts).length = n := by
      simp only [List.length_cons] at h ⊢
      omega
    rw [List.intercalate_cons_cons, ← flatMap_after separator hrest, List.zipIdx_cons,
      List.flatMap_cons, if_neg hmore]

/-- The same text for each of some texts. -/
theorem flatMap_const (content : List Char) (texts : List (List Char)) (index : Nat) :
    ((texts.zipIdx index).flatMap fun _ => content) =
      (List.replicate texts.length content).flatten := by
  induction texts generalizing index with
  | nil => rfl
  | cons text texts ih =>
    rw [List.zipIdx_cons, List.flatMap_cons, ih, List.length_cons, List.replicate_succ,
      List.flatten_cons]

/-! ### Loops -/

/-- What a loop prints if every iteration prints something that depends on the item's text and place. -/
theorem eachItem_of_forall₂ {body : Nat → Json → Except RenderError (List Char)}
    {print : Nat → List Char → List Char}
    (hbody : ∀ index v text, HasText v text → body index v = .ok (print index text))
    {items : List Json} {texts : List (List Char)} (index : Nat)
    (h : List.Forall₂ HasText items texts) :
    eachItem body index items = .ok ((texts.zipIdx index).flatMap fun t => print t.2 t.1) := by
  induction h generalizing index with
  | nil => rfl
  | cons hv _ ih =>
    rw [eachItem, hbody index _ _ hv, ih (index + 1)]
    rfl

/-- The path to a member of `loop`. -/
def loopPath (key : String) : Path :=
  ⟨"loop." ++ key, "loop", [.key key]⟩

/-- The output of a name without filters. -/
def nameOutput (name : String) : Node :=
  .output ⟨.path ⟨name, name, []⟩, []⟩

/-- The text, unless the member of `loop` holds. -/
def unlessLoop (key : String) (content : List Char) : Node :=
  .choice [(.not (.operand (.path (loopPath key))), textNodes content)] []

/-- The loop that prints a separator before every item but the first. -/
def separatedBefore (name : String) (p : Path) (separator : String) : Node :=
  .loop name p [unlessLoop "first" separator.toList, nameOutput name]

/-- The loop that prints a separator behind every item but the last. -/
def separatedAfter (name : String) (p : Path) (separator : String) : Node :=
  .loop name p [nameOutput name, unlessLoop "last" separator.toList]

section

variable {scope : Scope} {p : Path} {name : String} {item loop v : Json} {items : List Json}
  {text content : List Char} {texts : List (List Char)}

/-- A key is followed to a member. -/
theorem follow?_key (key : String) (v : Json) : (Segment.key key).follow? v = v.member? key := by
  cases v <;> rfl

/-- A value that is found step by step from that of the path's first name. -/
theorem value_of_steps {w : Json} (hroot : scope.name? p.root = some w)
    (hsteps : p.steps.foldlM (fun v step => step.follow? v) w = some v) :
    scope.value (.path p) = v := by
  rw [Scope.value_path, Scope.resolve?_eq_bind, hroot, Option.bind_some, hsteps, Option.getD_some]

theorem value_loopPath {key : String} (h : loop.member? key = some v) :
    (scope.bind name item loop).value (.path (loopPath key)) = v := by
  have hloop : (scope.bind name item loop).name? "loop" = some loop := by
    rw [Scope.name?_bind, if_pos rfl]
  apply value_of_steps hloop
  calc [Segment.key key].foldlM (fun v step => step.follow? v) loop
    _ = (loop.member? key).bind some := by
      rw [List.foldlM_cons, follow?_key]
      rfl
    _ = some v := by rw [h, Option.bind_some]

/-- A flag of `loop` decides whether a text is printed. -/
theorem render_unlessLoop {key : String} {flag : Bool} (h : loop.member? key = some (.bool flag)) :
    (unlessLoop key content).render (scope.bind name item loop) =
      .ok (if flag = true then [] else content) := by
  have hholds : (Cond.not (.operand (.path (loopPath key)))).holds (scope.bind name item loop) =
      !flag := by
    rw [Cond.holds, Cond.holds, value_loopPath h]
    rfl
  rw [unlessLoop, Node.render, branchesRender, branchesRender, hholds]
  cases flag with
  | true => rfl
  | false => exact nodesRender_textNodes _ content

theorem render_unlessFirst (scope : Scope) (name : String) (item : Json) (content : List Char)
    (index length : Nat) :
    (unlessLoop "first" content).render (scope.bind name item (loopState index length)) =
      .ok (if index = 0 then [] else content) := by
  have hfirst : (loopState index length).member? "first" = some (.bool (index == 0)) := rfl
  rw [render_unlessLoop hfirst]
  simp only [beq_iff_eq]

theorem render_unlessLast (scope : Scope) (name : String) (item : Json) (content : List Char)
    (index length : Nat) :
    (unlessLoop "last" content).render (scope.bind name item (loopState index length)) =
      .ok (if index + 1 = length then [] else content) := by
  have hlast : (loopState index length).member? "last" = some (.bool (index + 1 == length)) := rfl
  rw [render_unlessLoop hlast]
  simp only [beq_iff_eq]

theorem render_nameOutput (hname : name ≠ "loop") (h : HasText item text) :
    (nameOutput name).render (scope.bind name item loop) = .ok text := by
  have hitem : (scope.bind name item loop).name? name = some item := by
    rw [Scope.name?_bind, if_neg hname, if_pos rfl]
  have hvalue : (scope.bind name item loop).value (.path ⟨name, name, []⟩) = item :=
    value_of_steps hitem rfl
  rw [nameOutput, Node.render, Output.render, hvalue]
  exact h name

theorem nodesRender_pair {a b : Node} {x y : List Char} (ha : a.render scope = .ok x)
    (hb : b.render scope = .ok y) : nodesRender scope [a, b] = .ok (x ++ y) := by
  rw [nodesRender, nodesRender, nodesRender, ha, hb]
  exact congrArg (fun z => Except.ok (x ++ z)) (List.append_nil y)

/-- What a loop over a list prints if every iteration prints something that depends on the item's text
and place. -/
theorem render_loop_of_texts {body : List Node} (print : Nat → List Char → List Char)
    (hlists : scope.Lists p items) (htexts : List.Forall₂ HasText items texts)
    (hbody : ∀ index item text, HasText item text →
      nodesRender (scope.bind name item (loopState index items.length)) body =
        .ok (print index text)) :
    (Node.loop name p body).render scope = .ok (texts.zipIdx.flatMap fun t => print t.2 t.1) := by
  rw [Node.render, hlists.items_eq]
  exact eachItem_of_forall₂ hbody 0 htexts

theorem render_separatedBefore (hname : name ≠ "loop") (separator : String)
    (hlists : scope.Lists p items) (htexts : List.Forall₂ HasText items texts) :
    (separatedBefore name p separator).render scope =
      .ok (separator.toList.intercalate texts) := by
  rw [← flatMap_before]
  apply render_loop_of_texts (fun index text =>
    (if index = 0 then [] else separator.toList) ++ text) hlists htexts
  intro index item text htext
  exact nodesRender_pair (render_unlessFirst ..) (render_nameOutput hname htext)

theorem render_separatedAfter (hname : name ≠ "loop") (separator : String)
    (hlists : scope.Lists p items) (htexts : List.Forall₂ HasText items texts) :
    (separatedAfter name p separator).render scope =
      .ok (separator.toList.intercalate texts) := by
  have hlength : 0 + texts.length = items.length := by rw [Nat.zero_add, htexts.length_eq]
  rw [← flatMap_after separator.toList hlength]
  apply render_loop_of_texts (fun index text =>
    text ++ if index + 1 = items.length then [] else separator.toList) hlists htexts
  intro index item text htext
  exact nodesRender_pair (render_nameOutput hname htext) (render_unlessLast ..)

/-- A loop prints the same text for every item if its body does. -/
theorem render_loop_const {body : List Node} (hlists : scope.Lists p items)
    (htexts : List.Forall₂ HasText items texts)
    (hbody : ∀ index item,
      nodesRender (scope.bind name item (loopState index items.length)) body = .ok content) :
    (Node.loop name p body).render scope = .ok (List.replicate items.length content).flatten := by
  rw [htexts.length_eq, ← flatMap_const content texts 0]
  exact render_loop_of_texts (fun _ _ => content) hlists htexts fun index item _ _ => hbody index item

/-! ### The filters -/

theorem render_join (separator : String) (hlists : scope.Lists p items)
    (htexts : List.Forall₂ HasText items texts) :
    (Output.mk (.path p) [.join separator]).render scope =
      .ok (separator.toList.intercalate texts) := by
  unfold Output.render
  obtain hvalue | ⟨hvalue, rfl⟩ := hlists.value_eq
  · rw [hvalue, List.foldlM_cons, Filter.apply, joined_eq _ separator htexts]
    exact congrArg Except.ok String.toList_ofList
  · cases htexts
    rw [hvalue]
    rfl

theorem render_length (hlists : scope.Lists p items) :
    (Output.mk (.path p) [.length]).render scope = .ok (toString items.length).toList := by
  unfold Output.render
  obtain hvalue | ⟨hvalue, rfl⟩ := hlists.value_eq
  · rw [hvalue]
    rfl
  · rw [hvalue]
    rfl

end

/-- **The ways to write a list agree.** Where a path leads to a list of scalars, to null or nowhere, the
filter `join` and the two loops over the path that print the separator between the items give the same
text. A loop over the path runs once for each item: what its body prints once, it prints as many times as
there are items. That is also the number that `loop.length` shows in each iteration, and the one that
the filter `length` gives. -/
theorem render_separated {scope : Scope} {p : Path} {items : List Json} (name separator : String)
    (hname : name ≠ "loop") (hlists : scope.Lists p items) (hscalar : ∀ v ∈ items, v.IsScalar) :
    (∃ text, (Output.mk (.path p) [.join separator]).render scope = .ok text ∧
      (separatedBefore name p separator).render scope = .ok text ∧
      (separatedAfter name p separator).render scope = .ok text) ∧
    (∀ content, (Node.loop name p (textNodes content)).render scope =
      .ok (List.replicate items.length content).flatten) ∧
    (Node.loop name p [.output ⟨.path (loopPath "length"), []⟩]).render scope =
      .ok (List.replicate items.length (toString items.length).toList).flatten ∧
    (Output.mk (.path p) [.length]).render scope = .ok (toString items.length).toList := by
  obtain ⟨texts, htexts⟩ := exists_texts hscalar
  refine ⟨⟨separator.toList.intercalate texts, ?_, ?_, ?_⟩, fun content => ?_, ?_, ?_⟩
  · exact render_join separator hlists htexts
  · exact render_separatedBefore hname separator hlists htexts
  · exact render_separatedAfter hname separator hlists htexts
  · exact render_loop_const hlists htexts fun _ _ => nodesRender_textNodes _ content
  · refine render_loop_const hlists htexts fun index item => ?_
    have hlength : (loopState index items.length).member? "length" =
        some (.int items.length) := rfl
    rw [nodesRender, nodesRender, Node.render, Output.render, value_loopPath hlength]
    exact congrArg Except.ok (List.append_nil _)
  · exact render_length hlists

/-- The path to the patterns among the parameters. -/
def patternsPath : Path :=
  ⟨"params.patterns", "params", [.key "patterns"]⟩

/-- A scope with scalars of each kind as patterns, inside of a loop over `p`. -/
def patternsScope : Scope :=
  ⟨.obj [("params", .obj [("patterns", .arr [.str "control__1__2", .null, .int 3, .bool true])])],
    [("loop", loopState 0 1), ("p", .str "outer")]⟩

set_option maxRecDepth 2000 in
theorem render_separated_patterns :
    parse ("\x7b% for p in params.patterns %\x7d\x7b% if not loop.first %\x7d, \x7b% endif %\x7d" ++
        "\x7b\x7b p \x7d\x7d\x7b% endfor %\x7d") = .ok ⟨[separatedBefore "p" patternsPath ", "]⟩ ∧
      parse ("\x7b% for p in params.patterns %\x7d\x7b\x7b p \x7d\x7d" ++
        "\x7b% if not loop.last %\x7d, \x7b% endif %\x7d\x7b% endfor %\x7d") =
          .ok ⟨[separatedAfter "p" patternsPath ", "]⟩ ∧
      (∃ text, (Output.mk (.path patternsPath) [.join ", "]).render patternsScope = .ok text ∧
        (separatedBefore "p" patternsPath ", ").render patternsScope = .ok text ∧
        (separatedAfter "p" patternsPath ", ").render patternsScope = .ok text ∧
        text = "control__1__2, , 3, true".toList) ∧
      (Output.mk (.path patternsPath) [.length]).render patternsScope = .ok "4".toList := by
  have hlists : patternsScope.Lists patternsPath
      [.str "control__1__2", .null, .int 3, .bool true] := .items rfl
  have hscalar : ∀ v ∈ [Json.str "control__1__2", .null, .int 3, .bool true], v.IsScalar := by
    simp [Json.int, Json.IsScalar]
  obtain ⟨⟨text, hjoin, hbefore, hafter⟩, -, -, hlength⟩ :=
    render_separated "p" ", " (by decide) hlists hscalar
  have htext : (Output.mk (.path patternsPath) [.join ", "]).render patternsScope =
      .ok "control__1__2, , 3, true".toList := by decide +kernel
  refine ⟨(parse_append _ _).trans (by with_unfolding_all rfl),
    (parse_append _ _).trans (by with_unfolding_all rfl),
    ⟨text, hjoin, hbefore, hafter, ?_⟩, hlength⟩
  exact Except.ok.inj (hjoin.symm.trans htext)

end Template

end ExperimentKpi

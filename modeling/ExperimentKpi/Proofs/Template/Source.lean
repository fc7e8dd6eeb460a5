/-
# Templates as they are written

The text of a tree: its nodes in a row, every loop and choice between its tags. A tree is printable if
its plain stretches, names, paths, literals and conditions are, if no two plain stretches stand next to
each other and if every choice has a branch. The text of a printable tree within the bounds on nesting
is read as that tree (`parse_source`): the parts of the text are found again, and the builder, from any
state with room for the blocks, goes on by exactly the nodes whose parts it reads.

Key definitions: `Node.parts`, `Node.IsPrintable`, `Node.depth`, `source`, `Template.IsPrintable`.
Key theorems: `nodes_isSound`, `isSeparated_nodesParts`, `Builder.read_nodes`, `parse_source`.
-/
import ExperimentKpi.Proofs.Template.Tags

namespace ExperimentKpi.Template

/-! ### Trees -/

/-- Whether the node is a plain stretch. -/
def Node.isText : Node → Bool
  | text _ => true
  | _ => false

mutual

/-- The parts of a node. -/
def Node.parts : Node → List Part
  | .text content => [.text content]
  | .output o => [.output (spell o.words)]
  | .loop name source body =>
    .headed "for" (loopText name source) :: (nodesParts body ++ [.alone "endfor"])
  | .choice branches otherwise =>
    branchesParts "if" branches ++
      ((if otherwise.isEmpty then [] else .alone "else" :: nodesParts otherwise) ++ [.alone "endif"])

/-- The parts of nodes in a row. -/
def nodesParts : List Node → List Part
  | [] => []
  | node :: r => node.parts ++ nodesParts r

/-- The parts of branches in a row, the first of which has the given keyword. -/
def branchesParts (keyword : String) : List (Cond × List Node) → List Part
  | [] => []
  | (cond, body) :: r =>
    .headed keyword (spell (cond.words 0)) :: (nodesParts body ++ branchesParts "elif" r)

end

mutual

/-- The node can be written. -/
def Node.IsPrintable : Node → Prop
  | .text content => IsPlain content
  | .output o => o.IsPrintable
  | .loop name source body =>
    (IsName name.toList ∧ name ≠ "loop") ∧ source.IsPrintable ∧ nodesPrintable body
  | .choice branches otherwise =>
    branches ≠ [] ∧ branchesPrintable branches ∧ nodesPrintable otherwise

/-- All of the nodes can be written, and no two plain stretches stand next to each other. -/
def nodesPrintable : List Node → Prop
  | [] => True
  | node :: r =>
    node.IsPrintable ∧ (∀ next ∈ r.head?, ¬ (node.isText = true ∧ next.isText = true)) ∧
      nodesPrintable r

/-- The conditions and bodies of the branches can be written. -/
def branchesPrintable : List (Cond × List Node) → Prop
  | [] => True
  | (cond, body) :: r =>
    (cond.IsPrintable ∧ cond.nesting 0 ≤ maxNesting) ∧ nodesPrintable body ∧ branchesPrintable r

end

mutual

/-- How deep loops and choices nest in a node. -/
def Node.depth : Node → Nat
  | .text _ | .output _ => 0
  | .loop _ _ body => nodesDepth body + 1
  | .choice branches otherwise => max (branchesDepth branches) (nodesDepth otherwise) + 1

/-- How deep loops and choices nest in nodes. -/
def nodesDepth : List Node → Nat
  | [] => 0
  | node :: r => max node.depth (nodesDepth r)

/-- How deep loops and choices nest in the bodies of branches. -/
def branchesDepth : List (Cond × List Node) → Nat
  | [] => 0
  | (_, body) :: r => max (nodesDepth body) (branchesDepth r)

end

/-- The template can be written and nests within the bound. -/
structure IsPrintable (t : Template) : Prop where
  nodes : nodesPrintable t.nodes
  depth : nodesDepth t.nodes ≤ maxNesting

/-- The text of a template. -/
def source (t : Template) : String :=
  String.ofList (partsSource (nodesParts t.nodes))

/-! ### Parts -/

mutual

theorem Node.isSound_parts : ∀ {n : Node}, n.IsPrintable → ∀ p ∈ n.parts, p.IsSound
  | .text _, h => List.forall_mem_singleton.mpr h
  | .output _, h =>
    have hcontent := Output.isContent_spell h
    List.forall_mem_singleton.mpr ⟨hcontent.isTight, hcontent.guarded⟩
  | .loop name source body, ⟨hn, hs, hbody⟩ => by
    have hopen := Part.isSound_headed (by decide : "for" ∈ tagKeywords) (isContent_loopText hn.1 hs)
    have hclose := Part.isSound_alone (by decide : "endfor" ∈ tagKeywords)
    rw [Node.parts, List.forall_mem_cons, List.forall_mem_append]
    exact ⟨hopen, nodes_isSound hbody, List.forall_mem_singleton.mpr hclose⟩
  | .choice branches otherwise, ⟨_, hbranches, hother⟩ => by
    have helse := Part.isSound_alone (by decide : "else" ∈ tagKeywords)
    have hclose := Part.isSound_alone (by decide : "endif" ∈ tagKeywords)
    rw [Node.parts, List.forall_mem_append, List.forall_mem_append]
    refine ⟨branches_isSound (by decide) hbranches, ?_, List.forall_mem_singleton.mpr hclose⟩
    split
    · exact nofun
    · exact List.forall_mem_cons.mpr ⟨helse, nodes_isSound hother⟩

/-- Every part of printable nodes can be found again. -/
theorem nodes_isSound : ∀ {ns : List Node}, nodesPrintable ns → ∀ p ∈ nodesParts ns, p.IsSound
  | [], _ => nofun
  | _ :: _, ⟨hn, _, hr⟩ =>
    List.forall_mem_append.mpr ⟨Node.isSound_parts hn, nodes_isSound hr⟩

theorem branches_isSound : ∀ {keyword : String} {bs : List (Cond × List Node)},
    keyword ∈ tagKeywords → branchesPrintable bs → ∀ p ∈ branchesParts keyword bs, p.IsSound
  | _, [], _, _ => nofun
  | _, (_, _) :: _, hk, ⟨hc, hbody, hr⟩ => by
    rw [branchesParts, List.forall_mem_cons, List.forall_mem_append]
    exact ⟨Part.isSound_headed hk (Cond.isContent_spell hc.1), nodes_isSound hbody,
      branches_isSound (by decide) hr⟩

end

theorem IsSeparated.cons {p : Part} {ps : List Part} (hp : p.isText = false)
    (h : IsSeparated ps) : IsSeparated (p :: ps) :=
  List.isChain_cons.mpr ⟨fun _ _ => by simp [hp], h⟩

theorem IsSeparated.append {ps qs : List Part} (hp : IsSeparated ps) (hq : IsSeparated qs)
    (h : (∀ p ∈ ps.getLast?, p.isText = false) ∨ ∀ q ∈ qs.head?, q.isText = false) :
    IsSeparated (ps ++ qs) := by
  refine List.isChain_append.mpr ⟨hp, hq, fun p hl q hh => ?_⟩
  rcases h with h | h
  · simp [h p hl]
  · simp [h q hh]

theorem Node.head_parts {n : Node} (h : n.isText = false) (r : List Part) :
    ∀ p ∈ (n.parts ++ r).head?, p.isText = false := by
  cases n with
  | text => cases h
  | output => rintro p ⟨⟩; rfl
  | loop => rintro p ⟨⟩; rfl
  | choice branches otherwise =>
    rw [parts]
    cases branches with
    | nil => cases otherwise <;> rintro p ⟨⟩ <;> rfl
    | cons => rintro p ⟨⟩; rfl

theorem Node.getLast_parts {n : Node} (h : n.isText = false) :
    ∀ p ∈ n.parts.getLast?, p.isText = false := by
  cases n with
  | text => cases h
  | output => rintro p ⟨⟩; rfl
  | loop =>
    rw [parts, ← List.cons_append, List.getLast?_append]
    rintro p ⟨⟩
    rfl
  | choice =>
    rw [parts, ← List.append_assoc, List.getLast?_append]
    rintro p ⟨⟩
    rfl

theorem head_nodesParts {ns : List Node} (h : ∀ n ∈ ns.head?, n.isText = false) :
    ∀ p ∈ (nodesParts ns).head?, p.isText = false := by
  cases ns with
  | nil => exact nofun
  | cons n r => exact Node.head_parts (h n rfl) _

theorem head_branchesParts (keyword : String) (bs : List (Cond × List Node)) :
    ∀ p ∈ (branchesParts keyword bs).head?, p.isText = false := by
  cases bs with
  | nil => exact nofun
  | cons => rintro p ⟨⟩; rfl

mutual

theorem Node.isSeparated_parts : ∀ {n : Node}, n.IsPrintable → IsSeparated n.parts
  | .text _, _ | .output _, _ => .singleton _
  | .loop _ _ _, ⟨_, _, hbody⟩ =>
    IsSeparated.cons rfl
      ((isSeparated_nodesParts hbody).append (.singleton _) (.inr (by rintro p ⟨⟩; rfl)))
  | .choice branches otherwise, ⟨_, hbranches, hother⟩ => by
    rw [Node.parts]
    refine (isSeparated_branchesParts "if" hbranches).append (.append ?_ (.singleton _) ?_) (.inr ?_)
    · split
      · exact .nil
      · exact IsSeparated.cons rfl (isSeparated_nodesParts hother)
    · exact .inr (by rintro p ⟨⟩; rfl)
    · split <;> rintro p ⟨⟩ <;> rfl

/-- No two plain stretches stand next to each other in the text of printable nodes. -/
theorem isSeparated_nodesParts : ∀ {ns : List Node}, nodesPrintable ns → IsSeparated (nodesParts ns)
  | [], _ => .nil
  | n :: r, ⟨hn, hnext, hr⟩ => by
    refine (Node.isSeparated_parts hn).append (isSeparated_nodesParts hr) ?_
    cases htext : n.isText with
    | false => exact .inl (Node.getLast_parts htext)
    | true => exact .inr (head_nodesParts fun m hm => by simpa [htext] using hnext m hm)

theorem isSeparated_branchesParts : ∀ (keyword : String) {bs : List (Cond × List Node)},
    branchesPrintable bs → IsSeparated (branchesParts keyword bs)
  | _, [], _ => .nil
  | _, (_, _) :: r, ⟨_, hbody, hr⟩ =>
    IsSeparated.cons rfl ((isSeparated_nodesParts hbody).append (isSeparated_branchesParts "elif" hr)
      (.inr (head_branchesParts "elif" r)))

end

/-! ### Reading -/

theorem locate_append (offset : Nat) (ps qs : List Part) :
    locate offset (ps ++ qs) =
      locate offset ps ++ locate (offset + byteLength (partsSource ps)) qs := by
  induction ps generalizing offset with
  | nil => simp [locate, partsSource, byteLength]
  | cons p ps ih =>
    simp only [List.cons_append, locate, ih, partsSource, List.flatMap_cons, byteLength_append,
      Nat.add_assoc]

namespace Builder

/-- The state after the tokens of parts of which the first starts at the byte `offset`. -/
def read (b : Builder) (offset : Nat) (ps : List Part) : Except ParseError Builder :=
  (locate offset ps).foldlM step b

variable {b b' : Builder} {offset : Nat}

theorem read_cons {p : Part} (h : b.step (p.token offset) = .ok b') (ps : List Part) :
    b.read offset (p :: ps) = b'.read (offset + byteLength p.source) ps := by
  rw [read, locate, List.foldlM_cons, h]
  rfl

theorem read_singleton {p : Part} (h : b.step (p.token offset) = .ok b') :
    b.read offset [p] = .ok b' := by
  rw [read_cons h]
  rfl

theorem read_append {ps : List Part} (h : b.read offset ps = .ok b') (qs : List Part) :
    b.read offset (ps ++ qs) = b'.read (offset + byteLength (partsSource ps)) qs := by
  rw [read] at h
  rw [read, locate_append, List.foldlM_append, h]
  rfl

/-- A tag that starts a branch and the branch's body lead to the state behind the body. -/
theorem read_branch {p : Part} {opened : Nat} {finished : List (Cond × List Node)} {c : Cond}
    {before body : List Node} {stack : List Opened}
    (hp : b.step (p.token offset) = .ok ⟨.branch opened finished c before :: stack, []⟩)
    (hbody : ∀ o, read ⟨.branch opened finished c before :: stack, []⟩ o (nodesParts body) =
      .ok ⟨.branch opened finished c before :: stack, body.reverse ++ []⟩) (ps : List Part) :
    ∃ o, b.read offset (p :: (nodesParts body ++ ps)) =
      (inBranch opened before stack finished (c, body)).read o ps := by
  rw [read_cons hp, read_append (hbody _), List.append_nil]
  exact ⟨_, rfl⟩

end Builder

mutual

theorem Builder.read_node : ∀ {n : Node}, n.IsPrintable → ∀ {b : Builder} (offset : Nat),
    b.stack.length + n.depth ≤ maxNesting → b.read offset n.parts = .ok (b.push n)
  | .text content, _, b, offset, _ => read_singleton rfl
  | .output o, h, b, offset, _ => read_singleton (step_output h)
  | .loop name source body, ⟨hn, hs, hbody⟩, b, offset, hd => by
    rw [Node.depth] at hd
    rw [Node.parts, read_cons (step_for hn.1 hn.2 hs (by omega)),
      read_append (read_nodes hbody _ (by rw [List.length_cons]; omega)),
      read_singleton step_endfor]
    simp [push]
  | .choice [] _, ⟨hne, _, _⟩, _, _, _ => absurd rfl hne
  | .choice ((c, body) :: r) otherwise, ⟨_, ⟨hc, hbody, hr⟩, hother⟩, b, offset, hd => by
    rw [Node.depth, branchesDepth] at hd
    -- The first branch opens the block, the others continue it, and the last tag closes it.
    have hif : b.step ((Part.headed "if" (spell (c.words 0))).token offset) =
        .ok ⟨.branch offset [] c b.nodes :: b.stack, []⟩ := step_if hc.1 hc.2 (by omega)
    obtain ⟨o, hfirst⟩ := read_branch hif
      (fun o => read_nodes hbody o (by rw [List.length_cons]; omega))
      (branchesParts "elif" r ++
        ((if otherwise.isEmpty then [] else .alone "else" :: nodesParts otherwise) ++
          [Part.alone "endif"]))
    obtain ⟨finished, last, hall, hread⟩ :=
      read_branches hr offset b.nodes b.stack [] (c, body) o (by omega)
    have hclose : ∀ o, (inBranch offset b.nodes b.stack finished last).read o
        ((if otherwise.isEmpty then [] else .alone "else" :: nodesParts otherwise) ++
          [Part.alone "endif"]) =
        .ok ⟨b.stack, .choice (last :: finished).reverse otherwise :: b.nodes⟩ := by
      intro o
      split
      · rename_i hempty
        rw [List.nil_append, read_singleton step_endif, List.isEmpty_iff.mp hempty]
      · rw [List.cons_append, read_cons step_else,
          read_append (read_nodes hother _ (by rw [List.length_cons]; omega)),
          read_singleton step_endif_otherwise, List.append_nil, List.reverse_reverse]
    rw [Node.parts, branchesParts, List.cons_append, List.append_assoc, hfirst, read_append hread,
      hclose, hall]
    rfl

/-- **The builder goes on by the nodes whose parts it reads.** -/
theorem Builder.read_nodes : ∀ {ns : List Node}, nodesPrintable ns → ∀ {b : Builder} (offset : Nat),
    b.stack.length + nodesDepth ns ≤ maxNesting →
    b.read offset (nodesParts ns) = .ok ⟨b.stack, ns.reverse ++ b.nodes⟩
  | [], _, b, offset, _ => rfl
  | n :: r, ⟨hn, _, hr⟩, b, offset, hd => by
    rw [nodesDepth] at hd
    rw [nodesParts, read_append (read_node hn offset (by omega)),
      read_nodes hr _ (by rw [push_stack]; omega)]
    simp [push]

/-- The branches after the first are read one by one, each behind the body of the one before. -/
theorem Builder.read_branches : ∀ {bs : List (Cond × List Node)}, branchesPrintable bs →
    ∀ (opened : Nat) (before : List Node) (stack : List Opened) (finished : List (Cond × List Node))
      (last : Cond × List Node) (offset : Nat), stack.length + 1 + branchesDepth bs ≤ maxNesting →
    ∃ finished' last', (last' :: finished').reverse = (last :: finished).reverse ++ bs ∧
      (inBranch opened before stack finished last).read offset (branchesParts "elif" bs) =
        .ok (inBranch opened before stack finished' last')
  | [], _, opened, before, stack, finished, last, offset, _ =>
    ⟨finished, last, (List.append_nil _).symm, rfl⟩
  | (c, body) :: r, ⟨hc, hbody, hr⟩, opened, before, stack, finished, last, offset, hd => by
    rw [branchesDepth] at hd
    have helif : (inBranch opened before stack finished last).step
        ((Part.headed "elif" (spell (c.words 0))).token offset) =
        .ok ⟨.branch opened (last :: finished) c before :: stack, []⟩ := step_elif hc.1 hc.2
    obtain ⟨o, hfirst⟩ := read_branch helif
      (fun o => read_nodes hbody o (by rw [List.length_cons]; omega)) (branchesParts "elif" r)
    obtain ⟨finished', last', hall, hread⟩ :=
      read_branches hr opened before stack (last :: finished) (c, body) o (by omega)
    refine ⟨finished', last', ?_, ?_⟩
    · rw [hall]
      simp
    · rw [branchesParts, hfirst, hread]

end

/-- **A template is read from its text.** Every printable template whose loops and choices nest within
the bound is what the text that it prints as is parsed as. -/
theorem parse_source {t : Template} (h : t.IsPrintable) : parse t.source = .ok t := by
  have htokens := tokens_source (nodes_isSound h.nodes) (isSeparated_nodesParts h.nodes)
  have hread : Builder.empty.read 0 (nodesParts t.nodes) = .ok ⟨[], t.nodes.reverse ++ []⟩ :=
    Builder.read_nodes h.nodes 0 (by simpa [Builder.empty] using h.depth)
  rw [Builder.read] at hread
  rw [parse, source, String.toList_ofList, htokens]
  simp only [bind, Except.bind, ofTokens, hread, Builder.finish, List.append_nil,
    List.reverse_reverse]

/-- A template with a loop over a choice, and literals that contain delimiters. -/
def sample : Template where
  nodes := [
    .text "SELECT ".toList,
    .loop "row" (.ofWords "rows".toList ["2".toList]) [
      .output ⟨.path (.ofWords "row".toList ["name".toList]), [.upper, .join "\x7d\x7d"]⟩,
      .choice [
          (.and (.not (.operand (.path (.ofWords "loop".toList ["last".toList]))))
            (.or (.compare (.literal (.str "%\x7d'")) .notIn (.literal .null))
              (.operand (.literal (.bool true)))), [.text ", ".toList]),
          (.compare (.path (.ofWords "row".toList [])) .eq (.literal (.num (.int (-7)))), [])]
        [.text "\x7b \x7d".toList]]]

theorem parse_source_sample :
    sample.IsPrintable ∧ sample.source = String.ofList ([
      "SELECT \x7b% for row in rows.2 %\x7d",
      "\x7b\x7b row.name | upper | join('\\\x7d\\\x7d') \x7d\x7d",
      "\x7b% if not loop.last and ('\\%\\\x7d\\'' not in null or true) %\x7d, ",
      "\x7b% elif row == -7 %\x7d\x7b% else %\x7d\x7b \x7d\x7b% endif %\x7d",
      "\x7b% endfor %\x7d"].flatMap String.toList) ∧
    parse sample.source = .ok sample := by
  have hrows : (Path.ofWords "rows".toList ["2".toList]).IsPrintable :=
    Path.isPrintable_ofWords (by decide) (by decide) (by decide)
  have hname : (Path.ofWords "row".toList ["name".toList]).IsPrintable :=
    Path.isPrintable_ofWords (by decide) (by decide) (by decide)
  have hlast : (Path.ofWords "loop".toList ["last".toList]).IsPrintable :=
    Path.isPrintable_ofWords (by decide) (by decide) (by decide)
  have hrow : (Path.ofWords "row".toList []).IsPrintable :=
    Path.isPrintable_ofWords (by decide) (by decide) (by decide)
  have hseven : IsInt64 (-7) := by decide
  have hselect : IsPlain "SELECT ".toList := by decide
  have hcomma : IsPlain ", ".toList := by decide
  have hbraces : IsPlain "\x7b \x7d".toList := by decide
  have hprintable : sample.IsPrintable := by
    refine ⟨⟨hselect, by decide, ⟨⟨by decide, by decide⟩, hrows, hname, by decide, ?_⟩, nofun,
      trivial⟩, by decide⟩
    refine ⟨⟨by decide, ?_, hbraces, nofun, trivial⟩, nofun, trivial⟩
    exact ⟨⟨⟨hlast, ⟨trivial, trivial⟩, trivial⟩, by decide⟩, ⟨hcomma, nofun, trivial⟩,
      ⟨⟨hrow, hseven⟩, by decide⟩, trivial, trivial⟩
  exact ⟨hprintable, congrArg String.ofList (by decide +kernel), parse_source hprintable⟩

end ExperimentKpi.Template

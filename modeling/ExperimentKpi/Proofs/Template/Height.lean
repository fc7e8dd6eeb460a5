/-
# The height of templates

Rendering goes down the nodes of a template and the trees of its conditions. Loops and choices of a
template nest at most 32 deep (`Grows.depth_le`), and so do `not` and the parentheses of a condition.
The rows of `and` and of `or` have no bound: they grow to the left, one level for each word. So the
height of a condition is bounded by its longest chain of them (`Derives.height_le`), and by no constant
(`unbounded_height`).

Key definitions: `nodesConds`, `Cond.height`, `Cond.longestChain`.
Key theorems: `Grows.depth_le`, `Derives.height_le`, `Cond.longestChain_lt_height`, `parse_bounded`.
-/
import ExperimentKpi.Proofs.Template.Blocks
import ExperimentKpi.Proofs.Template.Grammar
import ExperimentKpi.Proofs.Template.Source

namespace ExperimentKpi.Template

/-! ### Nodes -/

mutual

/-- The conditions of a node. -/
def Node.conds : Node → List Cond
  | .text _ | .output _ => []
  | .loop _ _ body => nodesConds body
  | .choice branches otherwise => branchesConds branches ++ nodesConds otherwise

/-- The conditions of nodes. -/
def nodesConds : List Node → List Cond
  | [] => []
  | node :: r => node.conds ++ nodesConds r

/-- The conditions of branches and of their bodies. -/
def branchesConds : List (Cond × List Node) → List Cond
  | [] => []
  | (c, body) :: r => c :: (nodesConds body ++ branchesConds r)

end

/-- How deep loops and choices nest in what tokens grow into. -/
def Growth.depth : Growth → Nat
  | block ns | item ns => nodesDepth ns
  | branches bs => branchesDepth bs

/-- The conditions of what tokens grow into. -/
def Growth.conds : Growth → List Cond
  | block ns | item ns => nodesConds ns
  | branches bs => branchesConds bs

@[simp]
theorem nodesDepth_append (ns ms : List Node) :
    nodesDepth (ns ++ ms) = max (nodesDepth ns) (nodesDepth ms) := by
  induction ns with
  | nil => simp [nodesDepth]
  | cons node r ih => rw [List.cons_append, nodesDepth, nodesDepth, ih, Nat.max_assoc]

@[simp]
theorem branchesDepth_append (bs cs : List (Cond × List Node)) :
    branchesDepth (bs ++ cs) = max (branchesDepth bs) (branchesDepth cs) := by
  induction bs with
  | nil => simp [branchesDepth]
  | cons b r ih => rw [List.cons_append, branchesDepth, branchesDepth, ih, Nat.max_assoc]

@[simp]
theorem nodesConds_append (ns ms : List Node) :
    nodesConds (ns ++ ms) = nodesConds ns ++ nodesConds ms := by
  induction ns with
  | nil => simp [nodesConds]
  | cons node r ih => rw [List.cons_append, nodesConds, nodesConds, ih, List.append_assoc]

@[simp]
theorem branchesConds_append (bs cs : List (Cond × List Node)) :
    branchesConds (bs ++ cs) = branchesConds bs ++ branchesConds cs := by
  induction bs with
  | nil => simp [branchesConds]
  | cons b r ih => simp [branchesConds, ih]

theorem depth_textNodes (content : List Char) : nodesDepth (textNodes content) = 0 := by
  cases content <;> rfl

theorem conds_textNodes (content : List Char) : nodesConds (textNodes content) = [] := by
  cases content <;> rfl

/-- **What tokens grow into nests no deeper than the grammar allows.** -/
theorem Grows.depth_le {n : Nat} {ts : List Token} {g : Growth} (h : Grows n ts g) : g.depth ≤ n := by
  induction h with
  | empty => exact Nat.zero_le _
  | snoc _ _ ihb ihl =>
    rw [Growth.depth, nodesDepth_append]
    exact Nat.max_le.mpr ⟨ihb, ihl⟩
  | text content => exact (depth_textNodes content).le.trans (Nat.zero_le _)
  | output => exact Nat.zero_le _
  | loop _ _ _ _ ih =>
    simp only [Growth.depth, nodesDepth, Node.depth, Nat.max_zero] at ih ⊢
    omega
  | choice _ _ ih =>
    simp only [Growth.depth, nodesDepth, Node.depth, Nat.max_zero] at ih ⊢
    omega
  | choiceElse _ _ _ _ ihb iho =>
    simp only [Growth.depth, nodesDepth, Node.depth, Nat.max_zero] at ihb iho ⊢
    omega
  | first _ _ _ ih =>
    simp only [Growth.depth, branchesDepth, Nat.max_zero] at ih ⊢
    exact ih
  | next _ _ _ _ ihb ih =>
    simp only [Growth.depth, branchesDepth_append, branchesDepth, Nat.max_zero] at ihb ih ⊢
    exact Nat.max_le.mpr ⟨ihb, ih⟩

/-- What is read as a condition derives it. -/
theorem derives_of_ofText {s : List Char} {c : Cond} (h : Cond.ofText s = .ok c) :
    ∃ ws, Derives .alternatives maxNesting ws c := by
  obtain ⟨ws, -, hws⟩ := bind_ok_iff.mp h
  obtain ⟨vs, -, hvs⟩ :=
    yields_alternatives (yields_unary maxNesting) _ _ _ (condition_ok_iff.mp hws)
  exact ⟨vs, hvs⟩

/-- Every condition of what tokens grow into is derived from words. -/
theorem Grows.exists_derives {n : Nat} {ts : List Token} {g : Growth} (h : Grows n ts g) :
    ∀ c ∈ g.conds, ∃ ws, Derives .alternatives maxNesting ws c := by
  induction h with
  | empty | output => exact nofun
  | text content =>
    rw [Growth.conds, conds_textNodes]
    exact nofun
  | snoc _ _ ihb ihl =>
    rw [Growth.conds, nodesConds_append, List.forall_mem_append]
    exact ⟨ihb, ihl⟩
  | loop _ _ _ _ ih =>
    simpa [Growth.conds, nodesConds, Node.conds] using ih
  | choice _ _ ih =>
    simpa [Growth.conds, nodesConds, Node.conds] using ih
  | choiceElse _ _ _ _ ihb iho =>
    simp only [Growth.conds, nodesConds, Node.conds, List.append_nil, List.forall_mem_append]
    exact ⟨ihb, iho⟩
  | first _ header _ ih =>
    simp only [Growth.conds, branchesConds, List.append_nil, List.forall_mem_cons]
    exact ⟨derives_of_ofText header, ih⟩
  | next _ _ header _ ihb ih =>
    simp only [Growth.conds, branchesConds_append, branchesConds, List.append_nil,
      List.forall_mem_append, List.forall_mem_cons]
    exact ⟨ihb, derives_of_ofText header, ih⟩

/-! ### Conditions -/

namespace Cond

/-- How deep the evaluation of a condition goes. -/
def height : Cond → Nat
  | operand _ | compare .. => 1
  | not c => c.height + 1
  | and left right | or left right => max left.height right.height + 1

/-- The `and`s in a row that end in the condition. -/
def andLinks : Cond → Nat
  | and left _ => left.andLinks + 1
  | _ => 0

/-- The `or`s in a row that end in the condition. -/
def orLinks : Cond → Nat
  | or left _ => left.orLinks + 1
  | _ => 0

/-- The most `and`s or `or`s in a row anywhere in the condition. -/
def longestChain : Cond → Nat
  | operand _ | compare .. => 0
  | not c => c.longestChain
  | and left right => max (max left.longestChain right.longestChain) (left.andLinks + 1)
  | or left right => max (max left.longestChain right.longestChain) (left.orLinks + 1)

theorem links_le_longestChain (c : Cond) :
    c.andLinks ≤ c.longestChain ∧ c.orLinks ≤ c.longestChain := by
  cases c <;> simp only [andLinks, orLinks, longestChain] <;> omega

theorem links_lt_height (c : Cond) : c.andLinks < c.height ∧ c.orLinks < c.height := by
  induction c with
  | operand | compare => exact ⟨Nat.one_pos, Nat.one_pos⟩
  | not c => exact ⟨Nat.succ_pos _, Nat.succ_pos _⟩
  | and left right ihl =>
    simp only [andLinks, orLinks, height]
    omega
  | or left right ihl =>
    simp only [andLinks, orLinks, height]
    omega

/-- A row of connectives makes the condition higher than it is long. -/
theorem longestChain_lt_height (c : Cond) : c.longestChain < c.height := by
  induction c with
  | operand | compare => exact Nat.one_pos
  | not c ih => exact ih.trans (Nat.lt_succ_self _)
  | and left right ihl ihr =>
    have := left.links_lt_height
    simp only [longestChain, height]
    omega
  | or left right ihl ihr =>
    have := left.links_lt_height
    simp only [longestChain, height]
    omega

end Cond

/-- The bound for the height of a phrase in which no row of connectives is longer than `k` and in which
`not` and parentheses nest at most `n` deep: every level of nesting holds a row of each connective at
most. -/
def Phrase.heightBound (k n : Nat) (c : Cond) : Phrase → Nat
  | comparison | negation => n * (2 * k + 1) + 1
  | conjunction => n * (2 * k + 1) + 1 + c.andLinks
  | alternatives => n * (2 * k + 1) + 1 + k + c.orLinks

/-- **The longest row of connectives bounds the height of a condition**, given how deep `not` and
parentheses nest. -/
theorem Derives.height_le {phrase : Phrase} {n k : Nat} {ws : List Word} {c : Cond}
    (h : Derives phrase n ws c) (hk : c.longestChain ≤ k) : c.height ≤ phrase.heightBound k n c := by
  -- A level of nesting is as high as a row of `or`s, a row of `and`s and one more.
  have hlevel : ∀ n : Nat, (n + 1) * (2 * k + 1) = n * (2 * k + 1) + 2 * k + 1 :=
    fun n => Nat.succ_mul ..
  induction h with
  | @conjunction n ws c _ ih =>
    have hrow := c.links_le_longestChain.1
    have hc := ih hk
    simp only [Phrase.heightBound] at hc ⊢
    omega
  | @or n vs ws c d _ _ ihl ihr =>
    have hrow := d.links_le_longestChain.1
    rw [Cond.longestChain] at hk
    have hl := ihl (by omega)
    have hr := ihr (by omega)
    simp only [Phrase.heightBound, Cond.height, Cond.orLinks] at hl hr ⊢
    omega
  | negation _ ih => exact (ih hk).trans (Nat.le_add_right _ _)
  | and _ _ ihl ihr =>
    rw [Cond.longestChain] at hk
    have hl := ihl (by omega)
    have hr := ihr (by omega)
    simp only [Phrase.heightBound, Cond.height, Cond.andLinks] at hl hr ⊢
    omega
  | comparison _ ih => exact ih hk
  | @not n ws c _ ih =>
    have hc := ih hk
    simp only [Phrase.heightBound, Cond.height, hlevel] at hc ⊢
    omega
  | @group n ws c _ ih =>
    have hrow := c.links_le_longestChain.2
    have hc := ih hk
    simp only [Phrase.heightBound, hlevel] at hc ⊢
    omega
  | operand | compare => exact Nat.le_add_left _ _

theorem Derives.height_le_longestChain {n : Nat} {ws : List Word} {c : Cond}
    (h : Derives .alternatives n ws c) : c.height ≤ (n + 1) * (2 * c.longestChain + 1) := by
  have hc := h.height_le (Nat.le_refl _)
  have hrow := c.links_le_longestChain.2
  have hlevel : (n + 1) * (2 * c.longestChain + 1) =
      n * (2 * c.longestChain + 1) + 2 * c.longestChain + 1 := Nat.succ_mul ..
  rw [Phrase.heightBound] at hc
  omega

/-! ### Templates -/

/-- **How deep rendering goes.** The loops and choices of a template nest at most 32 deep. A condition
of a template is higher than its longest row of `and`s or of `or`s, but not higher than 33 times twice
this row and one more: its height is bounded exactly as far as its rows are. -/
theorem parse_bounded {source : String} {t : Template} (h : parse source = .ok t) :
    nodesDepth t.nodes ≤ 32 ∧ ∀ c ∈ nodesConds t.nodes,
      c.longestChain < c.height ∧ c.height ≤ 33 * (2 * c.longestChain + 1) := by
  obtain ⟨ps, -, hgrows⟩ := grows_of_parse h
  refine ⟨hgrows.depth_le, fun c hc => ⟨c.longestChain_lt_height, ?_⟩⟩
  obtain ⟨ws, hws⟩ := hgrows.exists_derives c hc
  exact hws.height_le_longestChain

/-- A condition with rows of one `or` and of two `and`s. -/
def sampleCondition : Cond :=
  .or (.operand (.path ⟨"a", "a", []⟩))
    (.and (.and (.operand (.path ⟨"b", "b", []⟩)) (.not (.operand (.path ⟨"c", "c", []⟩))))
      (.operand (.path ⟨"d", "d", []⟩)))

theorem parse_bounded_sample :
    parse "\x7b% if a or b and not c and d %\x7d\x7b% endif %\x7d" =
      .ok ⟨[.choice [(sampleCondition, [])] []]⟩ ∧
    sampleCondition.longestChain = 2 ∧ sampleCondition.height = 5 ∧
    sampleCondition.longestChain < sampleCondition.height ∧
    sampleCondition.height ≤ 33 * (2 * sampleCondition.longestChain + 1) := by
  have hparse : parse "\x7b% if a or b and not c and d %\x7d\x7b% endif %\x7d" =
      .ok ⟨[.choice [(sampleCondition, [])] []]⟩ := (parse_ofList _).trans (by with_unfolding_all rfl)
  exact ⟨hparse, rfl, rfl, (parse_bounded hparse).2 _ List.mem_cons_self⟩

/-- `a or a or … or a` with the given number of `or`s. -/
def alternativesOf : Nat → Cond
  | 0 => .operand (.path (.ofWords ['a'] []))
  | n + 1 => .or (alternativesOf n) (.operand (.path (.ofWords ['a'] [])))

/-- The template of a choice whose condition is such a row. -/
def alternativesTemplate (n : Nat) : Template :=
  ⟨[.choice [(alternativesOf n, [])] []]⟩

theorem height_alternativesOf (n : Nat) : (alternativesOf n).height = n + 1 := by
  induction n with
  | zero => rfl
  | succ n ih => rw [alternativesOf, Cond.height, ih, Cond.height, Nat.max_eq_left (by omega)]

theorem isPrintable_alternativesOf (n : Nat) :
    (alternativesOf n).IsPrintable ∧ (alternativesOf n).nesting 0 = 0 := by
  have ha : (Path.ofWords ['a'] []).IsPrintable :=
    Path.isPrintable_ofWords (by decide) (by decide) (by decide)
  induction n with
  | zero => exact ⟨ha, rfl⟩
  | succ n ih => exact ⟨⟨ih.1, ha⟩, by simp [alternativesOf, Cond.nesting, ih.2]⟩

theorem parse_alternativesTemplate (n : Nat) :
    parse (alternativesTemplate n).source = .ok (alternativesTemplate n) := by
  obtain ⟨hc, hn⟩ := isPrintable_alternativesOf n
  have hprintable : nodesPrintable (alternativesTemplate n).nodes :=
    ⟨⟨by simp, ⟨⟨hc, by omega⟩, trivial, trivial⟩, trivial⟩, nofun, trivial⟩
  have htokens := tokens_source (nodes_isSound hprintable) (isSeparated_nodesParts hprintable)
  have hread := Builder.read_nodes (b := Builder.empty) hprintable 0
    (show 0 + 1 ≤ 32 by decide)
  rw [parse, source, String.toList_ofList, htokens]
  exact bind_ok_iff.mpr ⟨_, rfl, bind_ok_iff.mpr ⟨_, hread, rfl⟩⟩

/-- **No constant bounds the height of the conditions of all templates.** -/
theorem unbounded_height : ¬ ∃ bound, ∀ source t, parse source = .ok t →
    nodesDepth t.nodes ≤ bound ∧ ∀ c ∈ nodesConds t.nodes, c.height ≤ bound := by
  rintro ⟨bound, h⟩
  have hbound := (h _ _ (parse_alternativesTemplate bound)).2 (alternativesOf bound)
    List.mem_cons_self
  rw [height_alternativesOf] at hbound
  omega

end ExperimentKpi.Template

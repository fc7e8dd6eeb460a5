/-
# Tags

The tags of blocks as they are written: a keyword alone, or a keyword and behind a blank the header of
a loop or a condition. Each of them is read as what it does to the tree under construction: it opens a
block, ends a branch, or closes the innermost block.

Key definitions: `Part.alone`, `Part.headed`, `loopText`, `IsContent`, `Builder.inBranch`.
Key theorems: `loopHeader_loopText`, `Builder.step_for`, `Builder.step_endfor`, `Builder.step_if`,
`Builder.step_elif`, `Builder.step_else`, `Builder.step_endif`.
-/
import ExperimentKpi.Proofs.Template.Condition
import ExperimentKpi.Proofs.Template.Parts
import ExperimentKpi.Template.Block

namespace ExperimentKpi.Template

open Text (isBlank)

/-- A tag that is a keyword alone. -/
def Part.alone (keyword : String) : Part :=
  .tag keyword.toList

/-- A tag with something behind its keyword. -/
def Part.headed (keyword : String) (rest : List Char) : Part :=
  .tag (keyword.toList ++ [' '] ++ rest)

/-- The header of a loop. -/
def loopText (name : String) (source : Path) : List Char :=
  name.toList ++ [' ', 'i', 'n', ' '] ++ source.source.toList

/-! ### Texts between delimiters -/

namespace IsNameWord

variable {s : List Char}

theorem forall_isBlank (h : IsNameWord s) : ∀ c ∈ s, isBlank c = false :=
  fun c hc => isBlank_of_isNameChar (isNameChar_of_isNameStart (h.2 c hc))

theorem isTight (h : IsNameWord s) : Text.IsTight s :=
  ⟨fun c hc => h.forall_isBlank c (List.mem_of_mem_head? hc),
    fun c hc => h.forall_isBlank c (List.mem_of_getLast? hc)⟩

theorem guarded (h : IsNameWord s) : Guarded s := by
  refine guarded_of_forall_ne fun c hc he => ?_
  have hstart := h.2 c hc
  rw [he] at hstart
  exact absurd hstart (by decide)

end IsNameWord

/-- What may stand behind a keyword or between delimiters. -/
structure IsContent (s : List Char) : Prop where
  ne_nil : s ≠ []
  isTight : Text.IsTight s
  guarded : Guarded s

theorem IsNameWord.isContent {s : List Char} (h : IsNameWord s) : IsContent s :=
  ⟨h.1, h.isTight, h.guarded⟩

theorem isContent_spell {ws : List Word} (h : ∀ w ∈ ws, w.IsSpellable) (hne : ws ≠ []) :
    IsContent (spell ws) :=
  ⟨spell_ne_nil h hne, isTight_spell h, guarded_spell h⟩

theorem IsContent.append {s t u : List Char} (hs : IsContent s) (ht : IsContent t)
    (hu : Guarded u) : IsContent (s ++ u ++ t) :=
  ⟨List.append_ne_nil_of_right_ne_nil _ ht.ne_nil,
    hs.isTight.append ht.isTight hs.ne_nil ht.ne_nil u, (hs.guarded.append hu).append ht.guarded⟩

theorem Output.isContent_spell {o : Output} (h : o.IsPrintable) : IsContent (spell o.words) :=
  Template.isContent_spell (isSpellable_words h)
    (List.append_ne_nil_of_left_ne_nil (Operand.words_ne_nil h) _)

theorem Cond.words_ne_nil {c : Cond} (h : c.IsPrintable) (level : Nat) : c.words level ≠ [] := by
  have hgrouped : ∀ needed ws vs word, grouped needed (ws ++ Word.name word :: vs) ≠ [] := by
    intro needed ws vs word
    cases needed <;> simp [grouped]
  cases c with
  | operand x =>
    rw [words]
    exact Operand.words_ne_nil h
  | compare left op right =>
    rw [words]
    exact List.append_ne_nil_of_right_ne_nil _ (Operand.words_ne_nil h.2)
  | not c =>
    rw [words]
    exact List.cons_ne_nil _ _
  | and left right | or left right =>
    rw [words]
    exact hgrouped _ _ _ _

theorem Cond.isContent_spell {c : Cond} (h : c.IsPrintable) : IsContent (spell (c.words 0)) :=
  Template.isContent_spell (isSpellable_words h 0) (words_ne_nil h 0)

theorem Path.isContent_source {p : Path} (h : p.IsPrintable) : IsContent p.source.toList := by
  have hword : ∀ w ∈ [Word.name p.source], w.IsSpellable :=
    List.forall_mem_singleton.mpr (isSpellable_name h)
  exact Template.isContent_spell hword (List.cons_ne_nil _ _)

theorem isContent_loopText {name : String} {source : Path} (hn : IsName name.toList)
    (hs : source.IsPrintable) : IsContent (loopText name source) :=
  hn.1.isContent.append (Path.isContent_source hs) (guarded_of_all (by decide))

/-! ### Contents of tags -/

section

/-- The keywords of tags. -/
def tagKeywords : List String :=
  ["for", "endfor", "if", "elif", "else", "endif"]

variable {keyword : String} {rest : List Char}

theorem isNameWord_of_mem_tagKeywords (h : keyword ∈ tagKeywords) : IsNameWord keyword.toList := by
  simp only [tagKeywords, List.mem_cons, List.not_mem_nil, or_false] at h
  rcases h with rfl | rfl | rfl | rfl | rfl | rfl <;> decide

theorem Part.isSound_alone (h : keyword ∈ tagKeywords) : (Part.alone keyword).IsSound :=
  have hword := isNameWord_of_mem_tagKeywords h
  ⟨hword.isTight, hword.guarded⟩

theorem Part.isSound_headed (h : keyword ∈ tagKeywords) (hr : IsContent rest) :
    (Part.headed keyword rest).IsSound :=
  have hcontent := (isNameWord_of_mem_tagKeywords h).isContent.append hr
    (guarded_of_all (by decide))
  ⟨hcontent.isTight, hcontent.guarded⟩

theorem cutKeyword_alone (h : keyword ∈ tagKeywords) :
    cutKeyword keyword.toList = (keyword.toList, []) := by
  rw [cutKeyword, Text.cutAt?_of_forall (isNameWord_of_mem_tagKeywords h).forall_isBlank]

theorem cutKeyword_headed (h : keyword ∈ tagKeywords) (hr : Text.IsTight rest) :
    cutKeyword (keyword.toList ++ [' '] ++ rest) = (keyword.toList, rest) := by
  have hcut := Text.cutAt?_append_cons (isNameWord_of_mem_tagKeywords h).forall_isBlank
    (show isBlank ' ' = true by decide) rest
  rw [cutKeyword, List.append_assoc, List.singleton_append, hcut]
  simp only [Text.trim_of_isTight hr]

end

/-- **The header of a loop is read as its name and path.** -/
theorem loopHeader_loopText {name : String} {source : Path} (hn : IsName name.toList)
    (hloop : name ≠ "loop") (hs : source.IsPrintable) :
    loopHeader (loopText name source) = .ok (name, source) := by
  have hblank : isBlank ' ' = true := by decide
  have hsource : ∀ c ∈ source.source.toList, isBlank c = false :=
    fun c hc => isBlank_of_isNameChar ((Path.isSpellable_name hs).2 c hc)
  have hin : IsNameWord ['i', 'n'] := by decide
  have hsplit : Text.splitAt isBlank (loopText name source) =
      [name.toList, ['i', 'n'], source.source.toList] := by
    have htext : loopText name source =
        name.toList ++ ' ' :: (['i', 'n'] ++ ' ' :: source.source.toList) := by simp [loopText]
    rw [htext, Text.splitAt_append_cons hn.1.forall_isBlank hblank,
      Text.splitAt_append_cons hin.forall_isBlank hblank, Text.splitAt_of_forall hsource]
  have hwords : Text.words (loopText name source) =
      [name.toList, ['i', 'n'], source.source.toList] := by
    simp [Text.words, hsplit, hn.1.1, (Path.isContent_source hs).ne_nil]
  have hdot : name.toList.contains '.' = false := by
    rw [Bool.eq_false_iff, ne_eq, List.contains_iff_mem]
    exact hn.1.not_mem_dot
  have hname : name.toList ≠ ['l', 'o', 'o', 'p'] :=
    fun he => hloop (String.toList_inj.mp he)
  simp only [loopHeader, hwords, hdot, Bool.false_eq_true, hname, or_self, if_false,
    Path.ofText_source hs, String.ofList_toList]
  rfl

/-! ### Steps of the builder -/

namespace Builder

variable {b b' : Builder} {offset opened : Nat} {content rest : List Char} {c : Cond}
  {before : List Node} {stack : List Opened}

/-- The state behind the body of a branch, whose end is still to come. -/
def inBranch (opened : Nat) (before : List Node) (stack : List Opened)
    (finished : List (Cond × List Node)) (last : Cond × List Node) : Builder :=
  ⟨.branch opened finished last.1 before :: stack, last.2.reverse⟩

@[simp]
theorem push_stack (b : Builder) (node : Node) : (b.push node).stack = b.stack := rfl

theorem step_tag (h : b.tag offset content = .ok b') : b.step (.tag offset content) = .ok b' := by
  rw [step, h]
  rfl

theorem checkDepth_of_lt (h : b.stack.length < maxNesting) : b.checkDepth = .ok () := by
  rw [checkDepth, if_neg (by omega)]

/-- The tag that opens a loop continues and closes nothing. -/
theorem tag_for (h : cutKeyword content = ("for".toList, rest)) :
    b.tag offset content = b.openLoop offset rest := by
  unfold tag
  rw [h]
  simp only
  split <;> simp_all

/-- The tag that opens a choice continues and closes nothing. -/
theorem tag_if (h : cutKeyword content = ("if".toList, rest)) :
    b.tag offset content = b.openChoice offset rest := by
  unfold tag
  rw [h]
  simp only
  split <;> simp_all

theorem step_for {name : String} {source : Path} (hn : IsName name.toList) (hloop : name ≠ "loop")
    (hs : source.IsPrintable) (hd : b.stack.length < maxNesting) :
    b.step ((Part.headed "for" (loopText name source)).token offset) =
      .ok ⟨.loop offset name source b.nodes :: b.stack, []⟩ := by
  have hcut := cutKeyword_headed (show "for" ∈ tagKeywords by decide)
    (isContent_loopText hn hs).isTight
  refine step_tag ?_
  rw [tag_for hcut]
  simp only [openLoop, checkDepth_of_lt hd, loopHeader_loopText hn hloop hs, bind, Except.bind]
  rfl

theorem step_endfor {name : String} {source : Path} {nodes : List Node} :
    step ⟨.loop opened name source before :: stack, nodes⟩ ((Part.alone "endfor").token offset) =
      .ok ⟨stack, .loop name source nodes.reverse :: before⟩ := by
  have hcut := cutKeyword_alone (show "endfor" ∈ tagKeywords by decide)
  refine step_tag ?_
  rw [tag, hcut]
  rfl

theorem step_if (hc : c.IsPrintable) (hn : c.nesting 0 ≤ maxNesting)
    (hd : b.stack.length < maxNesting) :
    b.step ((Part.headed "if" (spell (c.words 0))).token offset) =
      .ok ⟨.branch offset [] c b.nodes :: b.stack, []⟩ := by
  have hcut := cutKeyword_headed (show "if" ∈ tagKeywords by decide)
    (Cond.isContent_spell hc).isTight
  refine step_tag ?_
  rw [tag_if hcut]
  simp only [openChoice, checkDepth_of_lt hd, Cond.ofText_spell hc hn, bind, Except.bind]
  rfl

section

variable {finished : List (Cond × List Node)} {last : Cond × List Node}

theorem step_elif (hc : c.IsPrintable) (hn : c.nesting 0 ≤ maxNesting) :
    (inBranch opened before stack finished last).step
        ((Part.headed "elif" (spell (c.words 0))).token offset) =
      .ok ⟨.branch opened (last :: finished) c before :: stack, []⟩ := by
  have hcut := cutKeyword_headed (show "elif" ∈ tagKeywords by decide)
    (Cond.isContent_spell hc).isTight
  refine step_tag ?_
  rw [tag, hcut]
  simp [inBranch, Cond.ofText_spell hc hn, Except.map]

theorem step_else :
    (inBranch opened before stack finished last).step ((Part.alone "else").token offset) =
      .ok ⟨.otherwise opened (last :: finished).reverse before :: stack, []⟩ := by
  have hcut := cutKeyword_alone (show "else" ∈ tagKeywords by decide)
  refine step_tag ?_
  rw [tag, hcut]
  simp [inBranch]

theorem step_endif :
    (inBranch opened before stack finished last).step ((Part.alone "endif").token offset) =
      .ok ⟨stack, .choice (last :: finished).reverse [] :: before⟩ := by
  have hcut := cutKeyword_alone (show "endif" ∈ tagKeywords by decide)
  refine step_tag ?_
  rw [tag, hcut]
  simp [inBranch]

end

theorem step_endif_otherwise {branches : List (Cond × List Node)} {nodes : List Node} :
    step ⟨.otherwise opened branches before :: stack, nodes⟩ ((Part.alone "endif").token offset) =
      .ok ⟨stack, .choice branches nodes.reverse :: before⟩ := by
  have hcut := cutKeyword_alone (show "endif" ∈ tagKeywords by decide)
  refine step_tag ?_
  rw [tag, hcut]
  rfl

theorem step_output {o : Output} (h : o.IsPrintable) :
    b.step ((Part.output (spell o.words)).token offset) = .ok (b.push (.output o)) := by
  simp only [Part.token, step, Output.ofText_spell h]
  rfl

end Builder

end ExperimentKpi.Template

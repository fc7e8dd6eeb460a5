/-
# Fragments of a query

The fragments of a reaction query are put in a row and sanitized as one text. Behind a text that
closes its literals and ends a line, but not the line of a table definition's end, sanitizing starts
afresh: entities have no line feed, no literal is left open, and no semicolon is missed that has to be
restored (`sanitize_append`). So what becomes of the definitions' text so far is decided by these
definitions alone, and what becomes of the later ones by the later ones alone.

Where literals are complete is said by a grammar (`LiteralBody`, `ClosesLiterals`), which escaping
follows from left to right (`escapeLiterals_append`).

Key definitions: `Query.LiteralBody`, `Query.ClosesLiterals`, `Query.IsSelfContained`,
`definitionsText`.
Key theorems: `Query.escapeLiterals_append`, `Query.restore_append`,
`definitionsText_append_ok_iff`, `sanitize_append`.
-/
import ExperimentKpi.Proofs.Collect
import ExperimentKpi.Proofs.Query.Padding
import ExperimentKpi.Proofs.Sequence
import ExperimentKpi.Proofs.Template.Parts
import ExperimentKpi.Query.Compile

namespace ExperimentKpi

namespace Query

/-- What may stand between the quotes of a literal: characters other than quotes and backslashes, and
backslashes with the character that each takes, which is no line feed. -/
inductive LiteralBody : List Char → Prop where
  | nil : LiteralBody []
  | plain {c : Char} {s : List Char} (unquoted : c ≠ '\'') (untaking : c ≠ '\\')
      (rest : LiteralBody s) : LiteralBody (c :: s)
  | escaped {c : Char} {s : List Char} (unbroken : c ≠ '\n') (rest : LiteralBody s) :
      LiteralBody ('\\' :: c :: s)

/-- Every quote of the text belongs to a complete literal. -/
inductive ClosesLiterals : List Char → Prop where
  | nil : ClosesLiterals []
  | plain {c : Char} {s : List Char} (unquoted : c ≠ '\'') (rest : ClosesLiterals s) :
      ClosesLiterals (c :: s)
  | literal {body s : List Char} (complete : LiteralBody body) (rest : ClosesLiterals s) :
      ClosesLiterals ('\'' :: (body ++ '\'' :: s))

/-- The text ends with a line feed that does not end the line `RCFILE`, and every quote of the decoded
text belongs to a complete literal. -/
structure IsSelfContained (a : List Char) : Prop where
  line : a.getLast? = some '\n'
  table : ¬ ['R', 'C', 'F', 'I', 'L', 'E', '\n'] <:+ a
  literals : ClosesLiterals (decodeEntities a)

variable {a s t p : List Char}

/-! ### Decoding -/

/-- Behind a line feed decoding starts afresh. -/
theorem decodeEntities_append (h : a.getLast? = some '\n') (b : List Char) :
    decodeEntities (a ++ b) = decodeEntities a ++ decodeEntities b ∧
      (decodeEntities a).getLast? = some '\n' := by
  obtain ⟨x, rfl⟩ := List.getLast?_eq_some_iff.mp h
  have hbreak : ∀ e ∈ entities, '\n' ∉ e.1 := by decide
  have hline : decodeEntities (x ++ ['\n']) = decodeEntities x ++ ['\n'] := by
    rw [decodeEntities_separated hbreak, decodeEntities_nil]
  constructor
  · rw [List.append_assoc, List.singleton_append, decodeEntities_separated hbreak, hline,
      List.append_assoc, List.singleton_append]
  · rw [hline, List.getLast?_concat]

/-! ### Escaping -/

/-- Escaping finds a complete literal, whatever stands behind it. -/
theorem LiteralBody.literalBody? {body : List Char} (h : LiteralBody body) (rest : List Char) :
    literalBody? (body ++ '\'' :: rest) = some (body, rest) := by
  induction h with
  | nil => rfl
  | @plain c s unquoted untaking _ ih =>
    rw [List.cons_append, Query.literalBody?, if_neg untaking, ih]
    · rfl
    · exact unquoted
    · exact fun d r hc => absurd hc untaking
  | @escaped c s unbroken _ ih =>
    rw [List.cons_append, List.cons_append, Query.literalBody?, if_neg unbroken, ih]
    rfl

/-- The literals that escaping works on are those of the grammar. -/
theorem literalBody?_eq_some_iff {body rest : List Char} :
    literalBody? s = some (body, rest) ↔ LiteralBody body ∧ s = body ++ '\'' :: rest := by
  constructor
  · intro h
    refine ⟨?_, literalBody?_append h⟩
    fun_induction Query.literalBody? s generalizing body rest with
    | case1 => cases h
    | case2 r =>
      cases h
      exact .nil
    | case3 r => cases h
    | case4 c r hc ih =>
      obtain ⟨⟨b, r'⟩, hr, he⟩ := Option.map_eq_some_iff.mp h
      obtain ⟨rfl, -⟩ := Prod.mk.inj he
      exact .escaped hc (ih hr)
    | case5 r => cases h
    | case6 c r hq _ hc ih =>
      obtain ⟨⟨b, r'⟩, hr, he⟩ := Option.map_eq_some_iff.mp h
      obtain ⟨rfl, -⟩ := Prod.mk.inj he
      exact .plain (by simpa using hq) hc (ih hr)
  · rintro ⟨hbody, rfl⟩
    exact hbody.literalBody? rest

/-- Behind a text that closes its literals escaping starts afresh. -/
theorem escapeLiterals_append (h : ClosesLiterals a) (b : List Char) :
    escapeLiterals (a ++ b) = escapeLiterals a ++ escapeLiterals b := by
  induction h with
  | nil => rw [escapeLiterals, List.nil_append, List.nil_append]
  | plain unquoted _ ih =>
    rw [List.cons_append, escapeLiterals_cons unquoted, escapeLiterals_cons unquoted, ih,
      List.cons_append]
  | @literal body s complete _ ih =>
    have hjoined : literalBody? (body ++ '\'' :: (s ++ b)) = some (body, s ++ b) :=
      literalBody?_eq_some_iff.mpr ⟨complete, rfl⟩
    have halone : literalBody? (body ++ '\'' :: s) = some (body, s) :=
      literalBody?_eq_some_iff.mpr ⟨complete, rfl⟩
    rw [List.cons_append, List.append_assoc, List.cons_append, escapeLiterals_literal hjoined,
      escapeLiterals_literal halone, ih]
    simp only [List.cons_append, List.append_assoc]

namespace Pads

variable {taken : Bool}

theorem getLast?_eq (h : Pads taken s t) : t.getLast? = s.getLast? := by
  induction h with
  | nil => rfl
  | keep c _ ih => rw [List.getLast?_cons, List.getLast?_cons, ih]
  | semicolon _ ih => rw [List.getLast?_cons, List.getLast?_cons, List.getLast?_cons, ih]; rfl
  | dashes _ ih =>
    simp only [List.getLast?_cons, ih, Option.getD_some]

/-- A padded text without backslashes is the text. -/
theorem eq_of_not_mem (h : Pads taken s t) (ht : '\\' ∉ t) : t = s := by
  induction h with
  | nil => rfl
  | keep c _ ih => rw [ih fun hmem => ht (List.mem_cons_of_mem c hmem)]
  | semicolon | dashes => exact absurd List.mem_cons_self ht

/-- What ends the padded text without backslashes, semicolons and dashes has ended the text. -/
theorem suffix_of_suffix (hp : ∀ c ∈ p, c ≠ '\\' ∧ c ≠ ';' ∧ c ≠ '-') (h : Pads taken s t)
    (ht : p <:+ t) : p <:+ s := by
  induction h with
  | nil => exact ht
  | @keep _ c s s' hrest ih =>
    rcases List.suffix_cons_iff.mp ht with rfl | ht
    · have hs : s' = s := hrest.eq_of_not_mem fun hmem =>
        (hp '\\' (List.mem_cons_of_mem c hmem)).1 rfl
      exact ⟨[], congrArg (List.cons c) hs⟩
    · exact (ih ht).trans (List.suffix_cons c s)
  | @semicolon s s' _ ih =>
    rcases List.suffix_cons_iff.mp ht with rfl | ht
    · exact absurd rfl (hp '\\' List.mem_cons_self).1
    rcases List.suffix_cons_iff.mp ht with rfl | ht
    · exact absurd rfl (hp ';' List.mem_cons_self).2.1
    exact (ih ht).trans (List.suffix_cons ';' s)
  | @dashes s s' _ ih =>
    rcases List.suffix_cons_iff.mp ht with rfl | ht
    · exact absurd rfl (hp '\\' List.mem_cons_self).1
    rcases List.suffix_cons_iff.mp ht with rfl | ht
    · exact absurd rfl (hp '-' List.mem_cons_self).2.2
    rcases List.suffix_cons_iff.mp ht with rfl | ht
    · exact absurd rfl (hp '-' List.mem_cons_self).2.2
    exact (ih ht).trans ((List.suffix_cons '-' s).trans (List.suffix_cons '-' ('-' :: s)))

end Pads

/-! ### Restoring -/

/-- Behind a line feed that does not end the line `RCFILE` restoring starts afresh. -/
theorem restore_append (hline : a.getLast? = some '\n')
    (htable : ¬ ['R', 'C', 'F', 'I', 'L', 'E', '\n'] <:+ a) (b : List Char) :
    restore (a ++ b) = restore a ++ restore b := by
  -- The end of a table definition has one line feed, which would have to be the last of `a`.
  have hcut : ∀ n ≤ 9, ((tableEnd ['\\']).take n).getLast? = some '\n' →
      (tableEnd ['\\']).take n = ['R', 'C', 'F', 'I', 'L', 'E', '\n'] := by decide
  apply replaceAll_append_of_apart (by decide)
  intro l r hold hl _ hla _
  have htake : (tableEnd ['\\']).take l.length = l := by rw [hold, List.take_left]
  have hlen : l.length ≤ 9 := by
    have := congrArg List.length hold
    rw [List.length_append] at this
    have hnine : (tableEnd ['\\']).length = 9 := rfl
    omega
  have hlast : l.getLast? = some '\n' := by
    obtain ⟨x, rfl⟩ := hla
    rwa [List.getLast?_append_of_ne_nil x hl] at hline
  have hstart := hcut l.length hlen (by rw [htake, hlast])
  rw [htake] at hstart
  exact htable (hstart ▸ hla)

/-- Behind a self-contained text sanitizing starts afresh. -/
theorem IsSelfContained.sanitize_append (h : IsSelfContained a) (b : List Char) :
    sanitize (a ++ b) = sanitize a ++ sanitize b := by
  obtain ⟨hdecode, hline⟩ := decodeEntities_append h.line b
  have hpads := pads_escapeLiterals false (decodeEntities a)
  have hescaped : (escapeLiterals (decodeEntities a)).getLast? = some '\n' :=
    hpads.getLast?_eq.trans hline
  have htable : ¬ ['R', 'C', 'F', 'I', 'L', 'E', '\n'] <:+ escapeLiterals (decodeEntities a) := by
    intro hend
    have hdecoded := hpads.suffix_of_suffix (by simp) hend
    exact h.table (suffix_of_suffix_decodeEntities (by decide) hdecoded)
  calc sanitize (a ++ b) = restore (escapeLiterals (decodeEntities (a ++ b))) := rfl
    _ = restore (escapeLiterals (decodeEntities a ++ decodeEntities b)) := by rw [hdecode]
    _ = restore (escapeLiterals (decodeEntities a) ++ escapeLiterals (decodeEntities b)) := by
        rw [escapeLiterals_append h.literals]
    _ = restore (escapeLiterals (decodeEntities a)) ++
          restore (escapeLiterals (decodeEntities b)) := restore_append hescaped htable _
    _ = sanitize a ++ sanitize b := rfl

end Query

open Query

/-! ### The reaction query -/

/-- The text of definitions before it is sanitized, the first of them marked if `isFirst`. -/
def definitionsText (context : ExperimentContext) (warehouse : Warehouse) (isFirst : Bool)
    (definitions : List Definition) : Except Failure (List Char) := do
  let patterns ← context.design.identifiers
  let fragments ← fragmentsOf context warehouse patterns isFirst definitions
  renderFragments context.organization fragments

variable {context : ExperimentContext} {settings : Settings} {warehouse : Warehouse}
  {isFirst : Bool} {front back : List Definition} {text : List Char}

/-- The reaction query is the text of all definitions, sanitized. -/
theorem compileReaction_ok_iff {query : String} :
    compileReaction context settings warehouse = .ok query ↔
      ∃ text, definitionsText context warehouse true settings.definitions = .ok text ∧
        query = String.ofList (sanitize text) := by
  have hbind : compileReaction context settings warehouse =
      (definitionsText context warehouse true settings.definitions >>= fun text =>
        .ok (String.ofList (sanitize text))) := by
    unfold compileReaction definitionsText reactionFragments
    simp only [bind_assoc]
    rfl
  rw [hbind, bind_ok_iff]
  constructor
  · rintro ⟨text, htext, h⟩
    exact ⟨text, htext, (Except.ok.inj h).symm⟩
  · rintro ⟨text, htext, rfl⟩
    exact ⟨text, htext, rfl⟩

theorem definitionsText_ok_iff :
    definitionsText context warehouse isFirst front = .ok text ↔
      ∃ patterns fragments, context.design.identifiers = .ok patterns ∧
        fragmentsOf context warehouse patterns isFirst front = .ok fragments ∧
        renderFragments context.organization fragments = .ok text := by
  unfold definitionsText
  simp only [bind_ok_iff]
  constructor
  · rintro ⟨patterns, hp, fragments, hf, h⟩
    exact ⟨patterns, fragments, hp, hf, h⟩
  · rintro ⟨patterns, fragments, hp, hf, h⟩
    exact ⟨patterns, hp, fragments, hf, h⟩

/-- The fragments of definitions in a row: only the first of all can be marked. -/
theorem fragmentsOf_append_ok_iff {patterns : List String} {fragments : List ReactionFragment} :
    fragmentsOf context warehouse patterns isFirst (front ++ back) = .ok fragments ↔
      ∃ before after, fragmentsOf context warehouse patterns isFirst front = .ok before ∧
        fragmentsOf context warehouse patterns (isFirst && front.isEmpty) back = .ok after ∧
        fragments = before ++ after := by
  induction front generalizing isFirst fragments with
  | nil =>
    rw [List.nil_append, List.isEmpty_nil, Bool.and_true]
    constructor
    · intro h
      exact ⟨[], fragments, rfl, h, rfl⟩
    · rintro ⟨before, after, hbefore, hafter, rfl⟩
      cases hbefore
      exact hafter
  | cons d front ih =>
    rw [List.cons_append, fragmentsOf, fragmentsOf, List.isEmpty_cons, Bool.and_false]
    simp only [bind_ok_iff]
    constructor
    · rintro ⟨fragment, hd, rest, hrest, h⟩
      obtain ⟨before, after, hbefore, hafter, rfl⟩ := ih.mp hrest
      cases h
      exact ⟨fragment :: before, after, ⟨fragment, hd, before, hbefore, rfl⟩, hafter, rfl⟩
    · rintro ⟨_, after, ⟨fragment, hd, before, hbefore, h⟩, hafter, rfl⟩
      cases h
      exact ⟨fragment, hd, before ++ after, ih.mpr ⟨before, after, hbefore, hafter, rfl⟩, rfl⟩

/-- The text of definitions in a row is the texts of the parts in a row. -/
theorem definitionsText_append_ok_iff :
    definitionsText context warehouse isFirst (front ++ back) = .ok text ↔
      ∃ a b, definitionsText context warehouse isFirst front = .ok a ∧
        definitionsText context warehouse (isFirst && front.isEmpty) back = .ok b ∧
        text = a ++ b := by
  simp only [definitionsText_ok_iff, fragmentsOf_append_ok_iff]
  constructor
  · rintro ⟨patterns, _, hp, ⟨before, after, hbefore, hafter, rfl⟩, h⟩
    obtain ⟨a, b, ha, hb, rfl⟩ := collect_append_ok_iff.mp h
    exact ⟨a, b, ⟨patterns, before, hp, hbefore, ha⟩, ⟨patterns, after, hp, hafter, hb⟩, rfl⟩
  · rintro ⟨a, b, ⟨patterns, before, hp, hbefore, ha⟩, ⟨patterns', after, hp', hafter, hb⟩, rfl⟩
    obtain rfl := Except.ok.inj (hp.symm.trans hp')
    exact ⟨patterns, before ++ after, hp, ⟨before, after, hbefore, hafter, rfl⟩,
      collect_append_ok_iff.mpr ⟨a, b, ha, hb, rfl⟩⟩

/-- **Behind a self-contained text sanitizing starts afresh.** So where the text of the first
definitions is self-contained, the reaction query is this text sanitized and then the text of the later
definitions sanitized, and neither part depends on the other's definitions. -/
theorem sanitize_selfContained {a : List Char} (h : IsSelfContained a) :
    (∀ b, sanitize (a ++ b) = sanitize a ++ sanitize b) ∧
      ∀ context settings warehouse front back, settings.definitions = front ++ back →
        definitionsText context warehouse true front = .ok a → ∀ query,
        (compileReaction context settings warehouse = .ok query ↔
          ∃ b, definitionsText context warehouse false back = .ok b ∧
            query = String.ofList (sanitize a ++ sanitize b)) := by
  refine ⟨h.sanitize_append, fun context settings warehouse front back hsplit hfront query => ?_⟩
  have hlater : (true && front.isEmpty) = false := by
    cases front with
    | cons d front => rfl
    | nil =>
      -- No definitions have no text, and the self-contained text has a line feed.
      obtain ⟨patterns, fragments, -, hnone, htext⟩ := definitionsText_ok_iff.mp hfront
      cases hnone
      cases htext
      exact absurd h.line (by decide)
  rw [compileReaction_ok_iff, hsplit]
  simp only [definitionsText_append_ok_iff, hlater]
  constructor
  · rintro ⟨_, ⟨a', b, ha', hb, rfl⟩, rfl⟩
    obtain rfl := Except.ok.inj (hfront.symm.trans ha')
    exact ⟨b, hb, by rw [h.sanitize_append]⟩
  · rintro ⟨b, hb, rfl⟩
    exact ⟨a ++ b, ⟨a, b, hfront, hb, rfl⟩, by rw [h.sanitize_append]⟩

/-- An experiment whose fragments are one statement each, with an entity and a semicolon in a literal. -/
def statementContext : ExperimentContext where
  experiment :=
    ⟨1, 1, "banner", "pc", ⟨2024, 1, 1, 0, 0, 0⟩, ⟨2024, 2, 1, 0, 0, 0⟩, none, false⟩
  project := ⟨1, some 1, "shop", false⟩
  organization := ⟨1, "REGULAR", "p('&lt;;');\n", "", "", ""⟩
  design := ⟨[], []⟩
  models := []

/-- A definition without conditions. -/
def bareDefinition (name : String) (main : Bool) : Definition :=
  ⟨name, main, none, none, none, [], []⟩

theorem definitionsText_statement (isFirst : Bool) (name : String) (main : Bool) :
    definitionsText statementContext {} isFirst [bareDefinition name main] =
      .ok "p('&lt;;');\n".toList := by
  have hplain : Template.IsPlain "p('&lt;;');\n".toList := by decide
  have hsound : ∀ p ∈ [Template.Part.text "p('&lt;;');\n".toList], p.IsSound :=
    List.forall_mem_singleton.mpr hplain
  have htokens : Template.tokens "p('&lt;;');\n".toList = .ok [.text "p('&lt;;');\n".toList] :=
    Template.tokens_source hsound (List.isChain_singleton _)
  have hparse : Template.parse "p('&lt;;');\n" = .ok ⟨[.text "p('&lt;;');\n".toList]⟩ := by
    rw [Template.parse, htokens]
    rfl
  have hpart (parameters : Json) :
      renderPart "p('&lt;;');\n" parameters = .ok "p('&lt;;');\n".toList := by
    rw [renderPart, renderTemplate, hparse]
    rfl
  refine definitionsText_ok_iff.mpr ⟨_, _, rfl, rfl, ?_⟩
  exact collect_cons_ok_iff.mpr ⟨_, [], hpart _, rfl, rfl⟩

theorem isSelfContained_statement : IsSelfContained "p('&lt;;');\n".toList := by
  have hdecode : decodeEntities "p('&lt;;');\n".toList = "p('<;');\n".toList := by decide +kernel
  have hend : ClosesLiterals ");\n".toList :=
    .plain (by decide) (.plain (by decide) (.plain (by decide) .nil))
  have hbody : LiteralBody "<;".toList :=
    .plain (by decide) (by decide) (.plain (by decide) (by decide) .nil)
  refine ⟨by decide, by decide, ?_⟩
  rw [hdecode]
  exact .plain (by decide) (.plain (by decide) (.literal hbody hend))

/-- The second statement is sanitized on its own behind the first. -/
theorem sanitize_selfContained_statements :
    IsSelfContained "p('&lt;;');\n".toList ∧
      definitionsText statementContext {} true [bareDefinition "a" true] =
        .ok "p('&lt;;');\n".toList ∧
      compileReaction statementContext
          ⟨.overall, [bareDefinition "a" true] ++ [bareDefinition "b" false]⟩ {} =
        .ok "p('<\\;');\np('<\\;');\n" := by
  have hsanitize : sanitize "p('&lt;;');\n".toList = "p('<\\;');\n".toList := by decide +kernel
  refine ⟨isSelfContained_statement, definitionsText_statement true "a" true, ?_⟩
  rw [(sanitize_selfContained isSelfContained_statement).2 statementContext _ {} _ _ rfl
    (definitionsText_statement true "a" true)]
  exact ⟨_, definitionsText_statement false "b" false, by rw [hsanitize]; rfl⟩

end ExperimentKpi

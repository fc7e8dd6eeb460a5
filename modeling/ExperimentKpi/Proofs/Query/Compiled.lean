/-
# Values in compiled queries

A compiled query is a row of chunks of the organization's templates, sanitized as one text
(`compileQuery_eq_chunks`). A template that puts a value between two quotes makes a literal of it
exactly if the decoded value leaves a literal open (`compileQuery_quoted`): an unescaped quote in it,
plain or encoded, ends the literal, and a backslash at its end takes the closing quote along. Names of
KPIs may contain both (`compileQuery_quote`). An output between two quotes of a template is such a value
(`queryChunks_output`, `exists_literal_of_output`).

Key definitions: `queryChunks`, `compileQuery`, `IsPart`.
Key theorems: `compileQuery_eq_chunks`, `compileQuery_quoted`, `exists_literal_of_output`.
-/
import ExperimentKpi.Proofs.Collect
import ExperimentKpi.Proofs.Query.Quoted
import ExperimentKpi.Proofs.Settings.Validate
import ExperimentKpi.Proofs.Template.Chunks
import ExperimentKpi.Proofs.Template.Spelling
import ExperimentKpi.Query.Compile
import ExperimentKpi.Query.Kind

namespace ExperimentKpi

open Query Template

/-- The chunks of one fragment. -/
def partChunks (source : String) (parameters : Json) : Except Failure (List Chunk) :=
  match Template.parse source with
  | .error e => .error (.template (.parse e))
  | .ok t =>
    match nodesChunks ⟨templateContext parameters, []⟩ t.nodes with
    | .error e => .error (.template (.render e))
    | .ok cs => .ok cs

/-- The chunks that a query is made of. -/
def queryChunks (context : ExperimentContext) (settings : Settings) (warehouse : Warehouse) :
    QueryKind → Except Failure (List Chunk)
  | .reaction => do
    let fragments ← reactionFragments context settings warehouse
    collect (fun f => partChunks (f.template.source context.organization) f.parameters.toJson)
      fragments
  | .report => do
    let parameters ← reportParameters context settings warehouse
    partChunks context.organization.report parameters.toJson

/-- The query of a kind. -/
def compileQuery (context : ExperimentContext) (settings : Settings) (warehouse : Warehouse) :
    QueryKind → Except Failure String
  | .reaction => compileReaction context settings warehouse
  | .report => compileReport context settings warehouse

variable {context : ExperimentContext} {settings : Settings} {warehouse : Warehouse}
  {kind : QueryKind}

theorem renderPart_eq_chunks (source : String) (parameters : Json) :
    renderPart source parameters = (partChunks source parameters).map chunksText := by
  unfold renderPart partChunks renderTemplate
  cases Template.parse source with
  | error e => rfl
  | ok t =>
    simp only [Template.render, nodesRender_eq_chunks]
    cases nodesChunks ⟨templateContext parameters, []⟩ t.nodes with
    | error e => rfl
    | ok cs => exact congrArg Except.ok (String.toList_ofList (l := chunksText cs))

theorem collect_eq_chunks {α : Type} {f : α → Except Failure (List Char)}
    {g : α → Except Failure (List Chunk)} (h : ∀ a, f a = (g a).map chunksText) (as : List α) :
    collect f as = (collect g as).map chunksText := by
  induction as with
  | nil => rfl
  | cons a as ih =>
    rw [collect, collect, h a, ih]
    cases g a with
    | error e => rfl
    | ok cs =>
      cases collect g as with
      | error e => rfl
      | ok ds => exact congrArg Except.ok (chunksText_append cs ds).symm

/-- A compiled query is its chunks in a row, sanitized. -/
theorem compileQuery_eq_chunks :
    compileQuery context settings warehouse kind =
      (queryChunks context settings warehouse kind).map fun cs =>
        String.ofList (sanitize (chunksText cs)) := by
  cases kind with
  | reaction =>
    unfold compileQuery compileReaction queryChunks renderFragments
    cases reactionFragments context settings warehouse with
    | error e => rfl
    | ok fragments =>
      simp only [bind, Except.bind, collect_eq_chunks fun f : ReactionFragment =>
        renderPart_eq_chunks (f.template.source context.organization) f.parameters.toJson]
      cases collect (fun f : ReactionFragment =>
        partChunks (f.template.source context.organization) f.parameters.toJson) fragments <;> rfl
  | report =>
    unfold compileQuery compileReport queryChunks
    cases reportParameters context settings warehouse with
    | error e => rfl
    | ok parameters =>
      simp only [bind, Except.bind, renderPart_eq_chunks]
      cases partChunks context.organization.report parameters.toJson <;> rfl

/-! ### Values between quotes -/

/-- Chunks with a value between two quotes, sanitized. -/
theorem sanitize_quotedChunks {before : List Chunk} {left : List Char} (after : List Chunk)
    (value right : List Char)
    (hbefore : scan .outside (decodeEntities (chunksText before ++ left)) = .outside) :
    ∃ pre body post, sanitize (chunksText (before ++ .text (left ++ ['\'']) :: .value value ::
          .text ('\'' :: right) :: after)) = pre ++ '\'' :: (body ++ '\'' :: post) ∧
      withoutBackslashes pre = withoutBackslashes (decodeEntities (chunksText before ++ left)) ∧
      withoutBackslashes body = withoutBackslashes (decodeEntities value) ∧
      withoutBackslashes post = withoutBackslashes (decodeEntities (right ++ chunksText after)) ∧
      scan .outside pre = .outside ∧
      (closing? (body ++ '\'' :: post) = some (body, post) ↔
        staysOpen false (decodeEntities value) = true) ∧
      (staysOpen false (decodeEntities value) = true →
        literals (pre ++ '\'' :: (body ++ '\'' :: post)) = literals pre ++ body :: literals post) := by
  have htext : chunksText
      (before ++ .text (left ++ ['\'']) :: .value value :: .text ('\'' :: right) :: after) =
      (chunksText before ++ left) ++ '\'' :: (value ++ '\'' :: (right ++ chunksText after)) := by
    simp [chunksText, Chunk.content]
  obtain ⟨pre, body, post, hsanitize, hpre, hbody, hpost, hscan, hclosed⟩ :=
    sanitize_quoted (chunksText before ++ left) value (right ++ chunksText after)
  have houtside : scan .outside pre = .outside := hscan.trans hbefore
  refine ⟨pre, body, post, by rw [htext, hsanitize], hpre, hbody, hpost, houtside, hclosed,
    fun hopen => ?_⟩
  rw [literals_append_of_scan houtside, literals_closed (hclosed.mpr hopen)]

/-- **When a value stays in its literal.** Where a template puts a value between two quotes, and the
decoded text before them leaves the scanner outside of literals, the compiled query has the two quotes
with nothing but backslashes changed around and between them. The literal that the first quote opens
is closed by the second exactly if the decoded value leaves a literal open, and then it is one of the
query's literals and the texts before and behind it are read on their own. -/
theorem compileQuery_quoted {before after : List Chunk} {left value right : List Char}
    (hchunks : queryChunks context settings warehouse kind =
      .ok (before ++ .text (left ++ ['\'']) :: .value value :: .text ('\'' :: right) :: after))
    (hbefore : scan .outside (decodeEntities (chunksText before ++ left)) = .outside) :
    ∃ query pre body post, compileQuery context settings warehouse kind = .ok query ∧
      query.toList = pre ++ '\'' :: (body ++ '\'' :: post) ∧
      withoutBackslashes pre = withoutBackslashes (decodeEntities (chunksText before ++ left)) ∧
      withoutBackslashes body = withoutBackslashes (decodeEntities value) ∧
      withoutBackslashes post = withoutBackslashes (decodeEntities (right ++ chunksText after)) ∧
      scan .outside pre = .outside ∧
      (closing? (body ++ '\'' :: post) = some (body, post) ↔
        staysOpen false (decodeEntities value) = true) ∧
      (staysOpen false (decodeEntities value) = true →
        literals query.toList = literals pre ++ body :: literals post) := by
  obtain ⟨pre, body, post, hsanitize, hpre, hbody, hpost, houtside, hclosed, hliterals⟩ :=
    sanitize_quotedChunks after value right hbefore
  have hquery : compileQuery context settings warehouse kind =
      .ok (String.ofList (pre ++ '\'' :: (body ++ '\'' :: post))) := by
    rw [compileQuery_eq_chunks, hchunks, ← hsanitize]
    rfl
  refine ⟨_, pre, body, post, hquery, String.toList_ofList, hpre, hbody, hpost, houtside, hclosed,
    fun hopen => ?_⟩
  rw [String.toList_ofList]
  exact hliterals hopen

/-! ### Outputs between quotes -/

/-- A template of the organization is rendered into a query, with these parameters. -/
def IsPart (context : ExperimentContext) (settings : Settings) (warehouse : Warehouse) :
    QueryKind → String → Json → Prop
  | .reaction, source, parameters =>
    ∃ fragments, reactionFragments context settings warehouse = .ok fragments ∧
      ∃ f ∈ fragments, f.template.source context.organization = source ∧
        f.parameters.toJson = parameters
  | .report, source, parameters =>
    ∃ p, reportParameters context settings warehouse = .ok p ∧
      context.organization.report = source ∧ p.toJson = parameters

section

variable {source : String} {parameters : Json} {cs : List Chunk}

theorem exists_nodesChunks (h : partChunks source parameters = .ok cs) :
    ∃ t, Template.parse source = .ok t ∧
      nodesChunks ⟨templateContext parameters, []⟩ t.nodes = .ok cs := by
  unfold partChunks at h
  cases hparse : Template.parse source with
  | error e =>
    rw [hparse] at h
    cases h
  | ok t =>
    rw [hparse] at h
    refine ⟨t, rfl, ?_⟩
    cases hnodes : nodesChunks ⟨templateContext parameters, []⟩ t.nodes with
    | error e =>
      simp only [hnodes] at h
      cases h
    | ok here =>
      simp only [hnodes] at h
      rw [Except.ok.inj h]

/-- The chunks of a query hold the chunks of every template that is rendered into it. -/
theorem exists_partChunks (hpart : IsPart context settings warehouse kind source parameters)
    (hchunks : queryChunks context settings warehouse kind = .ok cs) :
    ∃ before here after, partChunks source parameters = .ok here ∧ cs = before ++ here ++ after := by
  cases kind with
  | report =>
    obtain ⟨p, hparameters, rfl, rfl⟩ := hpart
    rw [queryChunks, hparameters] at hchunks
    exact ⟨[], cs, [], hchunks, by rw [List.nil_append, List.append_nil]⟩
  | reaction =>
    obtain ⟨fragments, hfragments, f, hf, rfl, rfl⟩ := hpart
    obtain ⟨fs, fs', rfl⟩ := List.append_of_mem hf
    rw [queryChunks, hfragments] at hchunks
    obtain ⟨before, rest, -, hrest, rfl⟩ := collect_append_ok_iff.mp hchunks
    obtain ⟨here, after, hhere, -, rfl⟩ := collect_cons_ok_iff.mp hrest
    exact ⟨before, here, after, hhere, (List.append_assoc _ _ _).symm⟩

/-- An output between two quotes of a template puts its value between two quotes of the query. -/
theorem queryChunks_output {t : Template} {ns ms : List Node} {left right : List Char} {o : Output}
    (hpart : IsPart context settings warehouse kind source parameters)
    (hparse : Template.parse source = .ok t)
    (hnodes : t.nodes = ns ++ .text (left ++ ['\'']) :: .output o :: .text ('\'' :: right) :: ms)
    (hchunks : queryChunks context settings warehouse kind = .ok cs) :
    ∃ before value after, o.render ⟨templateContext parameters, []⟩ = .ok value ∧
      cs = before ++ .text (left ++ ['\'']) :: .value value :: .text ('\'' :: right) :: after := by
  obtain ⟨before, here, after, hhere, rfl⟩ := exists_partChunks hpart hchunks
  obtain ⟨t', hparse', hrendered⟩ := exists_nodesChunks hhere
  obtain rfl := Except.ok.inj (hparse.symm.trans hparse')
  rw [hnodes] at hrendered
  obtain ⟨before', value, after', hvalue, rfl⟩ := nodesChunks_output hrendered
  exact ⟨before ++ before', value, after' ++ after, hvalue, by simp⟩

/-- **An output between two quotes** is one literal of the query, with nothing but backslashes changed,
if its decoded value leaves a literal open and the text before it leaves the scanner outside. -/
theorem exists_literal_of_output {t : Template} {ns ms : List Node} {left right : List Char}
    {o : Output} {query : String}
    (hpart : IsPart context settings warehouse kind source parameters)
    (hparse : Template.parse source = .ok t)
    (hnodes : t.nodes = ns ++ .text (left ++ ['\'']) :: .output o :: .text ('\'' :: right) :: ms)
    (hquery : compileQuery context settings warehouse kind = .ok query) :
    ∃ before value after, o.render ⟨templateContext parameters, []⟩ = .ok value ∧
      queryChunks context settings warehouse kind = .ok (before ++ .text (left ++ ['\'']) ::
        .value value :: .text ('\'' :: right) :: after) ∧
      (scan .outside (decodeEntities (chunksText before ++ left)) = .outside →
        staysOpen false (decodeEntities value) = true →
        ∃ pre body post, literals query.toList = literals pre ++ body :: literals post ∧
          withoutBackslashes body = withoutBackslashes (decodeEntities value)) := by
  rw [compileQuery_eq_chunks] at hquery
  cases hchunks : queryChunks context settings warehouse kind with
  | error e =>
    rw [hchunks] at hquery
    cases hquery
  | ok cs =>
    rw [hchunks] at hquery
    obtain ⟨before, value, after, hvalue, rfl⟩ := queryChunks_output hpart hparse hnodes hchunks
    refine ⟨before, value, after, hvalue, rfl, fun hbefore hopen => ?_⟩
    obtain ⟨pre, body, post, hsanitize, -, hbody, -, -, -, hliterals⟩ :=
      sanitize_quotedChunks after value right hbefore
    refine ⟨pre, body, post, ?_, hbody⟩
    rw [← Except.ok.inj hquery, String.toList_ofList, hsanitize, hliterals hopen]

end

/-! ### A template that quotes names -/

/-- An experiment whose queries are its KPIs' names between quotes. -/
def quotingContext : ExperimentContext where
  experiment :=
    ⟨1, 1, "banner", "pc", ⟨2024, 1, 1, 0, 0, 0⟩, ⟨2024, 2, 1, 0, 0, 0⟩, none, false⟩
  project := ⟨1, some 1, "shop", false⟩
  organization := ⟨1, "REGULAR", "'{{ params.kpi_name }}'", "", "", ""⟩
  design := ⟨[], []⟩
  models := []

theorem parse_quoted :
    Template.parse "'{{ params.kpi_name }}'" =
      .ok ⟨[.text ['\''], .output ⟨.path ⟨"params.kpi_name", "params", [.key "kpi_name"]⟩, []⟩,
        .text ['\'']]⟩ := by
  have htokens : Template.tokens "'{{ params.kpi_name }}'".toList =
      .ok [.text ['\''], .output 1 "params.kpi_name".toList, .text ['\'']] := by decide +kernel
  have hname : (Template.Word.name "params.kpi_name").IsSpellable :=
    ⟨⟨'p', rfl, by decide, by decide⟩, List.all_eq_true.mp (by decide)⟩
  have hwords : Template.words "params.kpi_name".toList = .ok [.name "params.kpi_name"] :=
    Template.words_spell (List.forall_mem_singleton.mpr hname)
  have hoperand : Template.operand [.name "params.kpi_name"] =
      .ok (.path ⟨"params.kpi_name", "params", [.key "kpi_name"]⟩, []) := rfl
  have hfilters : Template.filters [] = .ok ([], []) := by
    rw [Template.filters]
    intro r hr
    cases hr
  simp only [Template.parse, htokens, Template.ofTokens, List.foldlM, Template.Builder.step,
    Template.Output.ofText, hwords, Template.output, hoperand, hfilters, bind, Except.bind]
  rfl

theorem queryChunks_named (name : String) :
    queryChunks quotingContext (namedReading name) {} .reaction =
      .ok [.text ['\''], .value name.toList, .text ['\'']] := by
  have hpart (p : ReactionParameters) : partChunks "'{{ params.kpi_name }}'" p.toJson =
      .ok [.text ['\''], .value p.kpi.toList, .text ['\'']] := by
    rw [partChunks, parse_quoted]
    rfl
  have hfragments : reactionFragments quotingContext (namedReading name) {} =
      .ok [⟨.general, ⟨"regpitari_reports", "reaction_table", name, .plain [], 1, [],
        quotingContext.experiment.start.text, quotingContext.experiment.finish.text, true⟩⟩] :=
    rfl
  rw [queryChunks, hfragments]
  exact congrArg (·.bind fun here => .ok (here ++ [])) (hpart _)

/-- A name with a quote that a backslash takes stays in its literal. -/
theorem compileQuery_quoted_taken :
    queryChunks quotingContext (namedReading "it\\'s;") {} .reaction =
        .ok ([] ++ .text ([] ++ ['\'']) :: .value "it\\'s;".toList :: .text ['\''] :: []) ∧
      scan .outside (decodeEntities (chunksText [] ++ [])) = .outside ∧
      staysOpen false (decodeEntities "it\\'s;".toList) = true ∧
      ∃ query pre body post,
        compileQuery quotingContext (namedReading "it\\'s;") {} .reaction = .ok query ∧
        query.toList = pre ++ '\'' :: (body ++ '\'' :: post) ∧
        closing? (body ++ '\'' :: post) = some (body, post) := by
  have hscan : scan .outside (decodeEntities (chunksText [] ++ [])) = .outside := by decide +kernel
  have hopen : staysOpen false (decodeEntities "it\\'s;".toList) = true := by decide +kernel
  obtain ⟨query, pre, body, post, hquery, htext, -, -, -, -, hclosed, -⟩ :=
    compileQuery_quoted (queryChunks_named "it\\'s;") hscan
  exact ⟨queryChunks_named _, hscan, hopen, query, pre, body, post, hquery, htext,
    hclosed.mpr hopen⟩

/-- A name with a plain quote ends its literal, and a semicolon and two dashes of the name follow
outside of it. -/
theorem compileQuery_quote :
    Settings.validate (namedSettings "it';--") = .ok (namedReading "it';--") ∧
      quotingContext.organization.reaction = "'{{ params.kpi_name }}'" ∧
      compileQuery quotingContext (namedReading "it';--") {} .reaction = .ok "'it';--'" ∧
      closing? "it';--'".toList = some ("it".toList, ";--'".toList) := by
  have hsanitize : sanitize "'it';--'".toList = "'it';--'".toList := by decide +kernel
  refine ⟨validate_named (by decide) (by decide) (by decide) (by decide), rfl, ?_, by decide⟩
  rw [compileQuery_eq_chunks, queryChunks_named]
  exact congrArg (fun s => Except.ok (String.ofList s)) hsanitize

end ExperimentKpi

/-
# The parameters of both queries

What keeps the fragments of the reaction query from being made is decided before any template is looked
at: first the design, then the first definition that mixes r2d2 with something else
(`Definition.MixesR2d2`, `fragmentsOf_of_first`). Where nothing does, there is one fragment for each
definition (`exists_fragmentsOf`), and the report query has the same database, experiment and patterns
and the names and number of the fragments (`reactionFragments_outcome`).

Key definitions: `Definition.MixesR2d2`, `Definition.CallsFor`, `ReactionFragment.IsFor`,
`ReactionFragment.IsWithin`.
Key theorems: `fragmentsOf_of_first`, `exists_fragmentsOf`, `reactionFragments_outcome`.
-/
import ExperimentKpi.Proofs.Design.Leaves
import ExperimentKpi.Proofs.Sequence
import ExperimentKpi.Query.Compile

namespace ExperimentKpi

/-! ### The template of a definition -/

namespace Definition

variable {d : Definition}

/-- A group of the r2d2 type stands beside another group or in a click-through conversion. -/
def MixesR2d2 (d : Definition) : Prop :=
  ∃ (before : List ConditionGroup) (g : ConditionGroup) (after : List ConditionGroup),
    d.conditions = before ++ g :: after ∧ g.type = .r2d2 ∧
      (before ++ after ≠ [] ∨ d.type = some .clickThroughConversion)

theorem hasR2d2_iff : d.hasR2d2 = true ↔ ∃ g ∈ d.conditions, g.type = .r2d2 := by
  unfold hasR2d2
  simp only [List.any_eq_true, beq_iff_eq]

theorem isClickThroughConversion_iff :
    d.isClickThroughConversion = true ↔ d.type = some .clickThroughConversion := beq_iff_eq

theorem mixesR2d2_iff :
    d.MixesR2d2 ↔
      d.hasR2d2 = true ∧ (d.conditions.length > 1 ∨ d.isClickThroughConversion = true) := by
  have hmore (before after : List ConditionGroup) (g : ConditionGroup) :
      (before ++ g :: after).length > 1 ↔ before ++ after ≠ [] := by
    rw [← List.length_pos_iff, List.length_append, List.length_append, List.length_cons]
    omega
  rw [hasR2d2_iff, isClickThroughConversion_iff]
  constructor
  · rintro ⟨before, g, after, hsplit, htype, hmixed⟩
    rw [hsplit, hmore]
    exact ⟨⟨g, List.mem_append_right _ List.mem_cons_self, htype⟩, hmixed⟩
  · rintro ⟨⟨g, hg, htype⟩, hmixed⟩
    obtain ⟨before, after, hsplit⟩ := List.append_of_mem hg
    rw [hsplit, hmore] at hmixed
    exact ⟨before, g, after, hsplit, htype, hmixed⟩

instance : DecidablePred MixesR2d2 := fun _ => decidable_of_iff _ mixesR2d2_iff.symm

theorem template_of_mixesR2d2 (h : d.MixesR2d2) : d.template = .error (.mixedR2d2 d.name) := by
  obtain ⟨hr2d2, hmixed⟩ := mixesR2d2_iff.mp h
  unfold template
  rw [if_pos hr2d2, if_pos hmixed]

/-- The template that a definition calls for by its groups and its type. -/
structure CallsFor (d : Definition) (t : ReactionTemplate) : Prop where
  r2d2 : t = .r2d2 ↔ ∃ g ∈ d.conditions, g.type = .r2d2
  clickThrough : t = .clickThrough ↔
    (∀ g ∈ d.conditions, g.type ≠ .r2d2) ∧ d.type = some .clickThroughConversion

theorem exists_template (h : ¬ d.MixesR2d2) : ∃ t, d.template = .ok t ∧ d.CallsFor t := by
  rw [mixesR2d2_iff] at h
  have hnone : (∀ g ∈ d.conditions, g.type ≠ .r2d2) ↔ ¬ d.hasR2d2 = true := by
    rw [hasR2d2_iff]
    push Not
    rfl
  by_cases hr2d2 : d.hasR2d2 = true
  · refine ⟨.r2d2, ?_, ⟨fun _ => hasR2d2_iff.mp hr2d2, fun _ => rfl⟩, nofun, fun hclick => ?_⟩
    · unfold template
      rw [if_pos hr2d2, if_neg fun hmixed => h ⟨hr2d2, hmixed⟩]
    · exact absurd hr2d2 (hnone.mp hclick.1)
  · by_cases hclick : d.isClickThroughConversion = true
    · refine ⟨.clickThrough, ?_, ⟨nofun, fun hmem => ?_⟩, fun _ => ?_, fun _ => rfl⟩
      · unfold template
        rw [if_neg hr2d2, if_pos hclick]
      · exact absurd (hasR2d2_iff.mpr hmem) hr2d2
      · exact ⟨hnone.mpr hr2d2, isClickThroughConversion_iff.mp hclick⟩
    · refine ⟨.general, ?_, ⟨nofun, fun hmem => ?_⟩, nofun, fun hboth => ?_⟩
      · unfold template
        rw [if_neg hr2d2, if_neg hclick]
      · exact absurd (hasR2d2_iff.mpr hmem) hr2d2
      · exact absurd (isClickThroughConversion_iff.mpr hboth.2) hclick

end Definition

/-! ### The fragments of definitions -/

/-- A fragment for a definition: it has the definition's name and the template that it calls for. -/
structure ReactionFragment.IsFor (f : ReactionFragment) (d : Definition) : Prop where
  kpi : f.parameters.kpi = d.name
  template : d.CallsFor f.template

/-- What a fragment shares with every other one and with the report. -/
structure ReactionFragment.IsWithin (f : ReactionFragment) (context : ExperimentContext)
    (warehouse : Warehouse) (patterns : List String) : Prop where
  database : f.parameters.database = warehouse.databaseFor context.organization
  experiment : f.parameters.experiment = context.experiment.id
  patterns : f.parameters.patterns = patterns

section Fragments

variable {context : ExperimentContext} {warehouse : Warehouse} {patterns : List String}
  {isFirst : Bool} {d : Definition} {ds : List Definition} {e : Failure}

theorem reactionFragment_of_mixesR2d2 (h : d.MixesR2d2) :
    reactionFragment context warehouse patterns isFirst d = .error (.mixedR2d2 d.name) := by
  unfold reactionFragment
  rw [d.template_of_mixesR2d2 h]
  rfl

theorem exists_reactionFragment (context : ExperimentContext) (warehouse : Warehouse)
    (patterns : List String) (isFirst : Bool) (h : ¬ d.MixesR2d2) :
    ∃ f, reactionFragment context warehouse patterns isFirst d = .ok f ∧ f.IsFor d ∧
      f.IsWithin context warehouse patterns ∧ f.parameters.isFirst = isFirst := by
  obtain ⟨t, ht, hcalls⟩ := d.exists_template h
  unfold reactionFragment
  rw [ht]
  exact ⟨_, rfl, ⟨rfl, hcalls⟩, ⟨rfl, rfl, rfl⟩, rfl⟩

/-- Where no definition mixes r2d2 with something else, there is a fragment for each of them, and none
but the first can be marked. -/
theorem exists_fragmentsOf (context : ExperimentContext) (warehouse : Warehouse)
    (patterns : List String) (isFirst : Bool) (h : ∀ d ∈ ds, ¬ d.MixesR2d2) :
    ∃ fs : List ReactionFragment, fragmentsOf context warehouse patterns isFirst ds = .ok fs ∧
      List.Forall₂ ReactionFragment.IsFor fs ds ∧
      (∀ f ∈ fs, f.IsWithin context warehouse patterns) ∧
      ∀ (i : Nat) (f : ReactionFragment), fs[i]? = some f → f.parameters.isFirst = (isFirst && i == 0) := by
  induction ds generalizing isFirst with
  | nil => exact ⟨[], rfl, .nil, nofun, nofun⟩
  | cons d ds ih =>
    obtain ⟨hd, hds⟩ := List.forall_mem_cons.mp h
    obtain ⟨f, hf, hfor, hwithin, hmark⟩ :=
      exists_reactionFragment context warehouse patterns isFirst hd
    -- the mark is passed on to the first fragment only
    obtain ⟨fs, hfs, hfors, hwithins, hmarks⟩ := ih false hds
    refine ⟨f :: fs, ?_, .cons hfor hfors, List.forall_mem_cons.mpr ⟨hwithin, hwithins⟩, ?_⟩
    · rw [fragmentsOf, bind_of_ok hf, bind_of_ok hfs]
      rfl
    · intro i g hg
      cases i with
      | zero =>
        obtain rfl := Option.some.inj hg
        rw [hmark, beq_self_eq_true, Bool.and_true]
      | succ i =>
        rw [hmarks i g hg, Bool.false_and]
        exact (Bool.and_false isFirst).symm

/-- The first definition that mixes r2d2 with something else is what the fragments fail with. -/
theorem fragmentsOf_of_first {before after : List Definition} (hbefore : ∀ b ∈ before, ¬ b.MixesR2d2)
    (hd : d.MixesR2d2) :
    fragmentsOf context warehouse patterns isFirst (before ++ d :: after) =
      .error (.mixedR2d2 d.name) := by
  induction before generalizing isFirst with
  | nil => rw [List.nil_append, fragmentsOf, bind_of_error (reactionFragment_of_mixesR2d2 hd)]
  | cons b before ih =>
    obtain ⟨hb, hbefore⟩ := List.forall_mem_cons.mp hbefore
    obtain ⟨f, hf, -⟩ := exists_reactionFragment context warehouse patterns isFirst hb
    rw [List.cons_append, fragmentsOf, bind_of_ok hf, bind_of_error (ih hbefore)]

/-- Among definitions that mix r2d2 with something else there is a first one. -/
theorem exists_first_mixesR2d2 (h : ∃ d ∈ ds, d.MixesR2d2) :
    ∃ before d after, ds = before ++ d :: after ∧ (∀ b ∈ before, ¬ b.MixesR2d2) ∧ d.MixesR2d2 := by
  obtain ⟨d, hfound⟩ : ∃ d, ds.find? (fun d => decide d.MixesR2d2) = some d := by
    rw [← Option.isSome_iff_exists, List.find?_isSome]
    simpa only [decide_eq_true_eq] using h
  obtain ⟨hd, before, after, hsplit, hbefore⟩ := List.find?_eq_some_iff_append.mp hfound
  refine ⟨before, d, after, hsplit, fun b hb => ?_, of_decide_eq_true hd⟩
  simpa using hbefore b hb

/-- Fragments are only ever forbidden, and that because some definition mixes r2d2 with something else. -/
theorem fragmentsOf_error (h : fragmentsOf context warehouse patterns isFirst ds = .error e) :
    e.kind = .forbidden ∧ ∃ d ∈ ds, d.MixesR2d2 := by
  by_cases hmixed : ∃ d ∈ ds, d.MixesR2d2
  · obtain ⟨before, d, after, rfl, hbefore, hd⟩ := exists_first_mixesR2d2 hmixed
    obtain rfl := Except.error.inj ((fragmentsOf_of_first hbefore hd).symm.trans h)
    exact ⟨rfl, hmixed⟩
  · push Not at hmixed
    obtain ⟨fs, hfs, -⟩ := exists_fragmentsOf context warehouse patterns isFirst hmixed
    cases h.symm.trans hfs

theorem map_kpi_eq {fs : List ReactionFragment} (h : List.Forall₂ ReactionFragment.IsFor fs ds) :
    fs.map (·.parameters.kpi) = ds.map (·.name) := by
  induction h with
  | nil => rfl
  | cons hf _ ih => rw [List.map_cons, List.map_cons, hf.kpi, ih]

end Fragments

/-! ### Both queries -/

/-- An experiment with other templates. -/
def ExperimentContext.withTemplates (context : ExperimentContext)
    (reaction reactionR2d2 reactionClickThrough report : String) : ExperimentContext :=
  { context with
    organization :=
      { context.organization with reaction, reactionR2d2, reactionClickThrough, report } }

section Queries

variable {context : ExperimentContext} {settings : Settings} {warehouse : Warehouse}
  {ps : List Pattern} {e : Failure}

theorem reactionFragments_of_error (h : context.design.patterns = .error e) :
    reactionFragments context settings warehouse = .error e := by
  have hids : context.design.identifiers = .error e := by
    unfold Design.identifiers
    rw [h]
    rfl
  unfold reactionFragments
  exact bind_of_error hids _

theorem reactionFragments_of_patterns (h : context.design.patterns = .ok ps) :
    reactionFragments context settings warehouse =
      fragmentsOf context warehouse (ps.map Pattern.identifier) true settings.definitions := by
  unfold reactionFragments
  exact bind_of_ok (Design.identifiers_ok_iff.mpr ⟨ps, h, rfl⟩) _

theorem reportParameters_of_patterns (h : context.design.patterns = .ok ps) :
    reportParameters context settings warehouse =
      .ok ⟨warehouse.databaseFor context.organization, warehouse.reportTable, settings.names,
        context.experiment.id, ps.map Pattern.identifier, settings.definitions.length⟩ := by
  unfold reportParameters
  exact bind_of_ok (Design.identifiers_ok_iff.mpr ⟨ps, h, rfl⟩) _

theorem reactionFragments_of_first (context : ExperimentContext)
    (hps : context.design.patterns = .ok ps) {before after : List Definition} {d : Definition}
    (hsplit : settings.definitions = before ++ d :: after) (hbefore : ∀ b ∈ before, ¬ b.MixesR2d2)
    (hd : d.MixesR2d2) :
    reactionFragments context settings warehouse = .error (.mixedR2d2 d.name) := by
  rw [reactionFragments_of_patterns hps, hsplit, fragmentsOf_of_first hbefore hd]

theorem compileReaction_of_error (h : reactionFragments context settings warehouse = .error e) :
    compileReaction context settings warehouse = .error e := by
  unfold compileReaction
  exact bind_of_error h _

/-- **What becomes of the parameters.** There are no fragments because of invalid data exactly if the
design has no patterns. Otherwise they are forbidden exactly if some definition mixes r2d2 with something
else: the failure is that of the first one, and the reaction query fails with it whatever the templates
are. Otherwise there is one fragment for each definition, in order, of which the first is marked, and the
report has the same database, experiment and patterns and the names and number of the fragments. -/
theorem reactionFragments_outcome (context : ExperimentContext) (settings : Settings)
    (warehouse : Warehouse) :
    ((∃ e : Failure,
        reactionFragments context settings warehouse = .error e ∧ e.kind = .invalidData) ↔
      ∃ e, context.design.patterns = .error e) ∧
    (∀ e, context.design.patterns = .error e →
      reactionFragments context settings warehouse = .error e) ∧
    ∀ ps, context.design.patterns = .ok ps →
      ((∃ e : Failure,
          reactionFragments context settings warehouse = .error e ∧ e.kind = .forbidden) ↔
        ∃ d ∈ settings.definitions, d.MixesR2d2) ∧
      (∀ (before : List Definition) (d : Definition) (after : List Definition),
        settings.definitions = before ++ d :: after → (∀ b ∈ before, ¬ b.MixesR2d2) → d.MixesR2d2 →
          reactionFragments context settings warehouse = .error (.mixedR2d2 d.name) ∧
          ∀ reaction reactionR2d2 reactionClickThrough report : String,
            compileReaction
                (context.withTemplates reaction reactionR2d2 reactionClickThrough report)
                settings warehouse =
              .error (.mixedR2d2 d.name)) ∧
      ((∀ d ∈ settings.definitions, ¬ d.MixesR2d2) →
        ∃ (fragments : List ReactionFragment) (report : ReportParameters),
          reactionFragments context settings warehouse = .ok fragments ∧
          reportParameters context settings warehouse = .ok report ∧
          List.Forall₂ ReactionFragment.IsFor fragments settings.definitions ∧
          (∀ (i : Nat) (f : ReactionFragment), fragments[i]? = some f →
            (f.parameters.isFirst = true ↔ i = 0)) ∧
          (∀ f ∈ fragments, f.IsWithin context warehouse (ps.map Pattern.identifier)) ∧
          report.database = warehouse.databaseFor context.organization ∧
          report.experiment = context.experiment.id ∧
          report.patterns = ps.map Pattern.identifier ∧
          report.kpis = fragments.map (·.parameters.kpi) ∧
          report.count = fragments.length) := by
  refine ⟨⟨?_, ?_⟩, fun e => reactionFragments_of_error, fun ps hps => ⟨⟨?_, ?_⟩, ?_, ?_⟩⟩
  · rintro ⟨e, he, hkind⟩
    cases hpatterns : context.design.patterns with
    | error e' => exact ⟨e', rfl⟩
    | ok ps =>
      -- where there are patterns a definition has failed, and that is of another kind
      rw [reactionFragments_of_patterns hpatterns] at he
      cases hkind.symm.trans (fragmentsOf_error he).1
  · rintro ⟨e, he⟩
    exact ⟨e, reactionFragments_of_error he, Design.exists_patterns_error he⟩
  · rintro ⟨e, he, -⟩
    rw [reactionFragments_of_patterns hps] at he
    exact (fragmentsOf_error he).2
  · intro hmixed
    obtain ⟨before, d, after, hsplit, hbefore, hd⟩ := exists_first_mixesR2d2 hmixed
    exact ⟨_, reactionFragments_of_first context hps hsplit hbefore hd, rfl⟩
  · intro before d after hsplit hbefore hd
    refine ⟨reactionFragments_of_first context hps hsplit hbefore hd, fun a b c r => ?_⟩
    apply compileReaction_of_error
    exact reactionFragments_of_first (context.withTemplates a b c r) hps hsplit hbefore hd
  · intro hnone
    obtain ⟨fs, hfs, hfor, hwithin, hmarks⟩ :=
      exists_fragmentsOf context warehouse (ps.map Pattern.identifier) true hnone
    refine ⟨fs, _, (reactionFragments_of_patterns hps).trans hfs, reportParameters_of_patterns hps,
      hfor, fun i f hf => ?_, hwithin, rfl, rfl, rfl, (map_kpi_eq hfor).symm, hfor.length_eq.symm⟩
    rw [hmarks i f hf, Bool.true_and, beq_iff_eq]

/-- An experiment with a design, whose templates are empty. -/
def designedContext (design : Design) : ExperimentContext where
  experiment :=
    ⟨1, 1, "banner", "pc", ⟨2024, 1, 1, 0, 0, 0⟩, ⟨2024, 2, 1, 0, 0, 0⟩, none, false⟩
  project := ⟨1, some 1, "shop", false⟩
  organization := ⟨1, "REGULAR", "", "", "", ""⟩
  design
  models := []

/-- A definition with a group of each of the types. -/
def groupedDefinition (name : String) (type : Option KpiType) (groups : List ConditionType) :
    Definition :=
  ⟨name, false, type, none, none, groups.map fun t => ⟨t, [], []⟩, []⟩

/-- A variation with one condition, which may nest another variation. -/
def oneCondition (nested : Option Int) : Design :=
  ⟨[⟨1, 1, "Target", true⟩], [⟨2, 1, "leaf", nested⟩]⟩

/-- A variation that is nested in itself, an r2d2 group beside another one behind a definition whose
template is broken, and definitions that keep r2d2 apart. -/
theorem reactionFragments_outcome_grouped :
    (oneCondition (some 1)).patterns = .error (.nestedInItself 1 1) ∧
      reactionFragments (designedContext (oneCondition (some 1))) ⟨.overall, []⟩ {} =
        .error (.nestedInItself 1 1) ∧
      (oneCondition none).patterns = .ok [⟨"target", 1, 2⟩] ∧
      compileReaction ((designedContext (oneCondition none)).withTemplates "\x7b% if %\x7d" "" "" "")
          ⟨.overall, [groupedDefinition "orders" none [.url],
            groupedDefinition "clicks" none [.url, .r2d2]]⟩ {} =
        .error (.mixedR2d2 "clicks") ∧
      ∃ report : ReportParameters, reportParameters (designedContext (oneCondition none))
          ⟨.overall, [groupedDefinition "orders" (some .clickThroughConversion) [.url, .conversionUrl],
            groupedDefinition "clicks" none [.r2d2]]⟩ {} = .ok report ∧
        report.patterns = ["target__1__2"] ∧ report.count = 2 := by
  have hcircle : (oneCondition (some 1)).patterns = .error (.nestedInItself 1 1) := rfl
  have hleaf : (oneCondition none).patterns = .ok [⟨"target", 1, 2⟩] := rfl
  obtain ⟨-, hdesign, -⟩ :=
    reactionFragments_outcome (designedContext (oneCondition (some 1))) ⟨.overall, []⟩ {}
  obtain ⟨-, -, hmixed⟩ := reactionFragments_outcome (designedContext (oneCondition none))
    ⟨.overall, [groupedDefinition "orders" none [.url],
      groupedDefinition "clicks" none [.url, .r2d2]]⟩ {}
  obtain ⟨-, -, hapart⟩ := reactionFragments_outcome (designedContext (oneCondition none))
    ⟨.overall, [groupedDefinition "orders" (some .clickThroughConversion) [.url, .conversionUrl],
      groupedDefinition "clicks" none [.r2d2]]⟩ {}
  obtain ⟨-, hfirst, -⟩ := hmixed _ hleaf
  obtain ⟨-, -, hall⟩ := hapart _ hleaf
  obtain ⟨-, hcompile⟩ := hfirst [_] _ [] rfl (by decide) (by decide)
  obtain ⟨fs, report, -, hreport, hfor, -, -, -, -, hpatterns, -, hcount⟩ := hall (by decide)
  refine ⟨hcircle, hdesign _ hcircle, hleaf, hcompile _ "" "" "", report, hreport, hpatterns, ?_⟩
  rw [hcount, hfor.length_eq]
  rfl

end Queries

end ExperimentKpi

/-
# The verdict on a body

What accepting a body must come to (`Settings.Verdict`), in terms of the body alone: a vacant body is
told so; a body that violates the schema is answered with one message for every keyword that is broken
at a place, in the order of their bytes; a body with faults that the schema does not see is of the
wrong format; every other body is accepted as the settings that it spells. Validation gives exactly
this verdict (`Settings.validate_eq_iff`).

Key definitions: `Settings.IsVacant`, `Settings.Inconsistent`, `Settings.Verdict`.
Key theorems: `Settings.isAcceptable_iff`, `Settings.exists_spelledBy`, `Settings.validate_eq_iff`.
-/
import ExperimentKpi.Proofs.Settings.Draft4
import ExperimentKpi.Proofs.Settings.Reading
import ExperimentKpi.Proofs.Settings.Validate
import ExperimentKpi.Proofs.Text.ByteOrder

namespace ExperimentKpi

open Draft4

/-- The definitions that stand in a body. -/
def Json.definitions (v : Json) : List Json :=
  match v.member? "kpi_definitions" with
  | some (.arr vs) => vs
  | _ => []

/-- Whether a value says of itself that it is the main definition. -/
def Json.isMainDefinition (v : Json) : Bool :=
  match v.member? "main_kpi" with
  | some (.bool isMain) => isMain
  | _ => false

namespace Settings

/-- The bodies that count as no body at all. -/
def IsVacant (v : Json) : Prop :=
  v = .null ∨ v = .obj [] ∨ v = .arr [] ∨ v = .str ""

/-- A definition's pattern id is something other than a text or null. -/
def HasStrangePatternId (v : Json) : Prop :=
  ∃ id, v.member? "pattern_id" = some id ∧ id ≠ .null ∧ ∀ t, id ≠ .str t

/-- A text that is no proper name of a definition: of a wrong length, or with a blank. -/
def IsImproperName (name : String) : Prop :=
  name.length < 5 ∨ 200 < name.length ∨ ∃ c ∈ name.toList, Text.isBlank c = true

/-- The faults that the schema does not see. -/
inductive Inconsistent (v : Json) : Prop
  | patternId {d : Json} : d ∈ v.definitions → HasStrangePatternId d → Inconsistent v
  | name {d : Json} {name : String} :
    d ∈ v.definitions → d.member? "kpi_definition_name" = some (.str name) → IsImproperName name →
      Inconsistent v
  | twice : ¬ (v.definitions.map (·.member? "kpi_definition_name")).Nodup → Inconsistent v
  | main : v.definitions.countP (·.isMainDefinition) ≠ 1 → Inconsistent v

/-- What accepting a body must come to. -/
inductive Verdict (v : Json) : Except Failure Settings → Prop
  | vacant : IsVacant v → Verdict v (.error .emptyBody)
  | schema {violations : List Violation} {messages : List String} :
    ¬ IsVacant v → violations ≠ [] → violations.Nodup →
      (∀ steps b, ⟨steps.reverse, b⟩ ∈ violations ↔ Violates settingsSchema v steps b) →
        messages.Perm (violations.map Violation.message) →
          messages.Pairwise (fun s t => Text.utf8 s ≤ Text.utf8 t) →
            Verdict v (.error (.schema messages))
  | inconsistent :
    ¬ IsVacant v → Conforms settingsSchema v → Inconsistent v → Verdict v (.error .wrongFormat)
  | accepted {s : Settings} :
    ¬ IsVacant v → Conforms settingsSchema v → ¬ Inconsistent v → s.SpelledBy v → Verdict v (.ok s)

theorem isVacant_iff {v : Json} : v.isVacant = true ↔ IsVacant v := by
  unfold IsVacant
  cases v <;> simp [Json.isVacant]

/-! ### Bodies that conform to the schema -/

section Conforming

variable {v : Json} {ms : Members}

theorem conforms_settingsSchema_iff :
    Conforms settingsSchema v ↔ settingsShape.violations [] v = [] := by
  rw [List.eq_nil_iff_forall_not_mem]
  simp only [Shape.mem_violations_iff settingsShape [] v _ settingsShape_proper]
  constructor
  · rintro h x ⟨steps, b, hviolates, -⟩
    exact h steps b (violates_settingsSchema_iff.mpr hviolates)
  · intro h steps b hviolates
    exact h _ ⟨steps, b, violates_settingsSchema_iff.mp hviolates, rfl⟩

/-- A name from a written list names a value. -/
theorem exists_of_mem_names {α : Type} {names : List (String × α)} {name : α → String} {o : String}
    (hnames : ∀ m ∈ names, m.1 = name m.2) (ho : o ∈ names.map Prod.fst) : ∃ a, name a = o := by
  obtain ⟨m, hm, rfl⟩ := List.mem_map.mp ho
  exact ⟨m.2, (hnames m hm).symm⟩

/-- A member with a schema for lists is a list, if it is there. -/
theorem exists_getD_arr {key : String} {item : Shape}
    (h : ∀ x, Members.get? ms key = some x → Conforms (Shape.list 0 item).toSchema x) :
    ∃ xs, (Members.get? ms key).getD (.arr []) = .arr xs ∧ ∀ x ∈ xs, Conforms item.toSchema x := by
  cases hget : Members.get? ms key with
  | none => exact ⟨[], rfl, by simp⟩
  | some x =>
    obtain ⟨xs, rfl, -, hitems⟩ := conforms_list_iff.mp (h x hget)
    exact ⟨xs, rfl, hitems⟩

/-- **A group that conforms to its schema spells a group.** -/
theorem exists_group (h : Conforms conditionGroupShape.toSchema v) :
    ∃ g ms, v = .obj ms ∧ ConditionGroup.SpelledBy g ms := by
  obtain ⟨ms, rfl, hrequired, hproperties⟩ := (conforms_record_iff (by decide)).mp h
  obtain ⟨type, htype⟩ := hrequired "condition_type" (.head _)
  obtain ⟨name, hname, rfl⟩ := conforms_oneOf_iff.mp (hproperties _ _ _ (.head _) htype)
  obtain ⟨t, rfl⟩ := exists_of_mem_names ConditionType.names_fst hname
  obtain ⟨xs, hxs, -⟩ := exists_getD_arr fun x => hproperties _ _ x (.tail _ (.head _))
  exact ⟨⟨t, xs, Members.without ms ConditionGroup.knownKeys⟩, ms, rfl, ⟨_, htype, .inl rfl⟩, hxs, rfl⟩

theorem exists_forall₂ {α : Type} {R : α → Json → Prop} :
    ∀ {vs : List Json}, (∀ v ∈ vs, ∃ a, R a v) → ∃ as, List.Forall₂ R as vs
  | [], _ => ⟨[], .nil⟩
  | v :: vs, h => by
    obtain ⟨a, ha⟩ := h v List.mem_cons_self
    obtain ⟨as, has⟩ := exists_forall₂ fun w hw => h w (List.mem_cons_of_mem _ hw)
    exact ⟨a :: as, .cons ha has⟩

/-- A member that is missing or of a kind spells an optional value. -/
theorem exists_spellsOptional {α : Type} {key : String} {spells : Json → α → Prop}
    (h : ∀ x, Members.get? ms key = some x → x = .null ∨ ∃ a, spells x a) :
    ∃ a, Members.SpellsOptional ms key spells a := by
  cases hget : Members.get? ms key with
  | none => exact ⟨none, .inl hget⟩
  | some x =>
    rcases h x hget with rfl | ⟨a, ha⟩
    · exact ⟨none, .inr hget⟩
    · exact ⟨some a, x, hget, ha⟩

theorem conforms_text_iff : Conforms (Shape.toSchema .text) v ↔ ∃ t, v = .str t := by
  rw [Shape.toSchema, conforms_type_iff]
  cases v <;> simp [JsonType.holds]

theorem conforms_flag_iff : Conforms (Shape.toSchema .flag) v ↔ ∃ b, v = .bool b := by
  rw [Shape.toSchema, conforms_type_iff]
  cases v <;> simp [JsonType.holds]

/-- **A definition that conforms to its schema spells a definition**, but for its pattern id. -/
theorem exists_definition (h : Conforms definitionShape.toSchema v) (hid : ¬ HasStrangePatternId v) :
    ∃ d ms, v = .obj ms ∧ Definition.SpelledBy d ms := by
  obtain ⟨ms, rfl, hrequired, hproperties⟩ := (conforms_record_iff (by decide)).mp h
  obtain ⟨name, hname⟩ := hrequired "kpi_definition_name" (.head _)
  obtain ⟨main, hmain⟩ := hrequired "main_kpi" (.tail _ (.head _))
  obtain ⟨n, rfl, -⟩ := conforms_word_iff.mp (hproperties _ _ _ (.head _) hname)
  obtain ⟨b, rfl⟩ := conforms_flag_iff.mp (hproperties _ _ _ (.tail _ (.head _)) hmain)
  have htype : ∃ t, Members.SpellsOptional ms "kpi_type" (fun v (t : KpiType) => v.SpellsName t.name) t := by
    refine exists_spellsOptional fun x hx => ?_
    obtain ⟨o, ho, rfl⟩ :=
      conforms_oneOf_iff.mp (hproperties _ _ x (.tail _ (.tail _ (.head _))) hx)
    obtain ⟨t, rfl⟩ := exists_of_mem_names KpiType.names_fst ho
    exact .inr ⟨t, .inl rfl⟩
  have hpattern : ∃ t, Members.SpellsOptional ms "pattern_name" (fun v t => v = .str t) t := by
    refine exists_spellsOptional fun x hx => .inr ?_
    exact conforms_text_iff.mp (hproperties _ _ x (.tail _ (.tail _ (.tail _ (.head _)))) hx)
  have hid' : ∃ t, Members.SpellsOptional ms "pattern_id" (fun v t => v = .str t) t := by
    refine exists_spellsOptional fun x hx => ?_
    by_contra hne
    rw [not_or, not_exists] at hne
    exact hid ⟨x, hx, hne⟩
  obtain ⟨xs, hxs, hgroups⟩ := exists_getD_arr fun x =>
    hproperties _ _ x (.tail _ (.tail _ (.tail _ (.tail _ (.head _)))))
  obtain ⟨gs, hgs⟩ := exists_forall₂ fun w hw => exists_group (hgroups w hw)
  obtain ⟨t, ht⟩ := htype
  obtain ⟨p, hp⟩ := hpattern
  obtain ⟨i, hi⟩ := hid'
  exact ⟨⟨n, b, t, p, i, gs, Members.without ms Definition.knownKeys⟩, ms, rfl, hname, hmain, ht, hp, hi,
    ⟨xs, hxs, hgs⟩, rfl⟩

/-- What a body that conforms to the schema is. -/
theorem exists_parts (h : Conforms settingsSchema v) :
    ∃ ms basedOn vs, v = .obj ms ∧ Members.get? ms "based_on" = some (.str (BasedOn.name basedOn)) ∧
      Members.get? ms "kpi_definitions" = some (.arr vs) ∧ vs ≠ [] ∧
        ∀ d ∈ vs, Conforms definitionShape.toSchema d := by
  have hshape : Conforms settingsShape.toSchema v := fun steps b hviolates =>
    h steps b (violates_settingsSchema_iff.mpr hviolates)
  obtain ⟨ms, rfl, hrequired, hproperties⟩ := (conforms_record_iff (by decide)).mp hshape
  obtain ⟨unit, hunit⟩ := hrequired "based_on" (.head _)
  obtain ⟨definitions, hdefinitions⟩ := hrequired "kpi_definitions" (.tail _ (.head _))
  obtain ⟨name, hname, rfl⟩ := conforms_oneOf_iff.mp (hproperties _ _ _ (.head _) hunit)
  obtain ⟨basedOn, rfl⟩ := exists_of_mem_names BasedOn.names_fst hname
  obtain ⟨vs, rfl, hlength, hvs⟩ :=
    conforms_list_iff.mp (hproperties _ _ _ (.tail _ (.head _)) hdefinitions)
  have hne : vs ≠ [] := List.ne_nil_of_length_pos hlength
  exact ⟨ms, basedOn, vs, rfl, hunit, hdefinitions, hne, hvs⟩

theorem definitions_obj {vs : List Json}
    (hget : Members.get? ms "kpi_definitions" = some (.arr vs)) : (Json.obj ms).definitions = vs := by
  rw [Json.definitions, Json.member?, hget]

/-- **A body that conforms to the schema spells settings**, but for pattern ids. -/
theorem exists_spelledBy (h : Conforms settingsSchema v)
    (hids : ∀ d ∈ v.definitions, ¬ HasStrangePatternId d) : ∃ s, SpelledBy s v := by
  obtain ⟨ms, basedOn, vs, rfl, hunit, hdefinitions, -, hvs⟩ := exists_parts h
  rw [definitions_obj hdefinitions] at hids
  obtain ⟨ds, hds⟩ := exists_forall₂ fun w hw => exists_definition (hvs w hw) (hids w hw)
  exact ⟨⟨basedOn, ds⟩, .obj hunit hdefinitions ⟨.inl rfl, vs, rfl, hds⟩⟩

/-- What a body that conforms to the schema and spells settings has at its definitions. -/
theorem SpelledBy.exists_definitions {s : Settings} (hspelled : s.SpelledBy v)
    (h : Conforms settingsSchema v) :
    v.definitions ≠ [] ∧ List.Forall₂ (fun d w => ∃ ns, w = .obj ns ∧ Definition.SpelledBy d ns)
      s.definitions v.definitions := by
  obtain ⟨ms, basedOn, vs, rfl, -, hdefinitions, hne, -⟩ := exists_parts h
  rw [definitions_obj hdefinitions]
  cases hspelled with
  | obj _ hdefinitions' hparts =>
    obtain ⟨vs', rfl, hds⟩ := hparts.definitions
    cases hdefinitions.symm.trans hdefinitions'
    exact ⟨hne, hds⟩

end Conforming

/-! ### Faults that the schema does not see -/

section Acceptable

variable {v : Json} {s : Settings}

theorem not_hasStrangePatternId {d : Definition} {ms : Members} (h : d.SpelledBy ms) :
    ¬ HasStrangePatternId (.obj ms) := by
  rintro ⟨id, hget, hnull, htext⟩
  rw [Json.member?] at hget
  have hid := h.patternId
  cases hpattern : d.patternId with
  | none =>
    rw [hpattern] at hid
    rcases hid with hnone | hnone
    · cases hget.symm.trans hnone
    · exact hnull (Option.some.inj (hget.symm.trans hnone))
  | some t =>
    rw [hpattern] at hid
    obtain ⟨w, hw, rfl⟩ := hid
    exact htext t (Option.some.inj (hget.symm.trans hw))

theorem exists_left_of_forall₂ {α : Type} {R : α → Json → Prop} {as : List α} {vs : List Json}
    (h : List.Forall₂ R as vs) : ∀ v ∈ vs, ∃ a, R a v := by
  induction h with
  | nil => exact nofun
  | cons hhead _ ih =>
    intro v hv
    rcases List.mem_cons.mp hv with rfl | hv
    · exact ⟨_, hhead⟩
    · exact ih v hv

theorem map_eq_of_forall₂ {α β : Type} {R : α → Json → Prop} {f : α → β} {g : Json → β}
    (heq : ∀ a v, R a v → g v = f a) {as : List α} {vs : List Json} (h : List.Forall₂ R as vs) :
    vs.map g = as.map f := by
  induction h with
  | nil => rfl
  | cons hhead _ ih => rw [List.map_cons, List.map_cons, ih, heq _ _ hhead]

theorem hasProperName_iff {d : Definition} : d.HasProperName ↔ ¬ IsImproperName d.name := by
  rw [Definition.HasProperName, IsImproperName, not_or, not_or, Nat.not_lt, Nat.not_lt,
    List.any_eq_false, not_exists]
  simp only [not_and]

/-- The names of settings are those of the definitions that spell them. -/
theorem map_name_definitions (hspelled : s.SpelledBy v) (h : Conforms settingsSchema v) :
    v.definitions.map (·.member? "kpi_definition_name") =
      s.names.map fun name => some (Json.str name) := by
  rw [names, List.map_map]
  refine map_eq_of_forall₂ ?_ (hspelled.exists_definitions h).2
  rintro d _ ⟨ns, rfl, hd⟩
  exact hd.name

/-- As many definitions are the main one as in the settings. -/
theorem countP_isMainDefinition (hspelled : s.SpelledBy v) (h : Conforms settingsSchema v) :
    v.definitions.countP (·.isMainDefinition) = s.definitions.countP (·.isMain) := by
  have hmap : v.definitions.map Json.isMainDefinition = s.definitions.map Definition.isMain := by
    refine map_eq_of_forall₂ ?_ (hspelled.exists_definitions h).2
    rintro d _ ⟨ns, rfl, hd⟩
    rw [Json.isMainDefinition, Json.member?, hd.isMain]
  have hcount : ∀ {α : Type} (f : α → Bool) (as : List α), as.countP f = (as.map f).countP id :=
    fun f as => by rw [List.countP_map]; rfl
  rw [hcount Json.isMainDefinition, hmap, ← hcount]

/-- All names of settings are proper exactly if no text at the name of a definition is improper. -/
theorem forall_hasProperName_iff (hspelled : s.SpelledBy v) (h : Conforms settingsSchema v) :
    (∀ d ∈ s.definitions, d.HasProperName) ↔
      ∀ d ∈ v.definitions, ∀ name, d.member? "kpi_definition_name" = some (.str name) →
        ¬ IsImproperName name := by
  have hnames := map_name_definitions hspelled h
  constructor
  · intro hproper w hw name hname
    have hmem : some (Json.str name) ∈ s.names.map fun name => some (Json.str name) := by
      rw [← hnames, ← hname]
      exact List.mem_map_of_mem hw
    obtain ⟨name', hname', heq⟩ := List.mem_map.mp hmem
    cases heq
    obtain ⟨d, hd, rfl⟩ := List.mem_map.mp hname'
    exact hasProperName_iff.mp (hproper d hd)
  · intro hproper d hd
    have hmem : some (Json.str d.name) ∈ v.definitions.map (·.member? "kpi_definition_name") := by
      rw [hnames]
      exact List.mem_map_of_mem (List.mem_map_of_mem hd)
    obtain ⟨w, hw, hname⟩ := List.mem_map.mp hmem
    exact hasProperName_iff.mpr (hproper w hw d.name hname)

/-- **Settings are acceptable exactly if what spells them is consistent.** -/
theorem isAcceptable_iff (hspelled : s.SpelledBy v) (h : Conforms settingsSchema v) :
    s.IsAcceptable ↔ ¬ Inconsistent v := by
  have himproper := forall_hasProperName_iff hspelled h
  have hmain := countP_isMainDefinition hspelled h
  have hnodup : (v.definitions.map (·.member? "kpi_definition_name")).Nodup ↔ s.names.Nodup := by
    rw [map_name_definitions hspelled h, List.nodup_map_iff]
    intro name name' heq
    simpa using heq
  obtain ⟨hne, hds⟩ := hspelled.exists_definitions h
  constructor
  · rintro ⟨-, hproper, hdistinct, hone⟩ hinconsistent
    cases hinconsistent with
    | patternId hd hstrange =>
      obtain ⟨d, ns, rfl, hspelled⟩ := exists_left_of_forall₂ hds _ hd
      exact not_hasStrangePatternId hspelled hstrange
    | name hd hname hbad => exact himproper.mp hproper _ hd _ hname hbad
    | twice htwice => exact htwice (hnodup.mpr hdistinct)
    | main hnot => exact hnot (hmain.trans hone)
  · intro hconsistent
    refine ⟨?_, himproper.mpr fun d hd name hname hbad => ?_, ?_, ?_⟩
    · rintro hnil
      rw [hnil, List.forall₂_nil_left_iff] at hds
      exact hne hds
    · exact hconsistent (.name hd hname hbad)
    · exact hnodup.mp (by_contra fun htwice => hconsistent (.twice htwice))
    · exact hmain.symm.trans (by_contra fun hnot => hconsistent (.main hnot))

end Acceptable

/-! ### The verdict -/

section Verdicts

variable {v : Json}

theorem pairwise_shapeMessages :
    (shapeMessages v).Pairwise fun s t => Text.utf8 s ≤ Text.utf8 t := by
  have htrans : ∀ a b c : String, decide (a ≤ b) = true → decide (b ≤ c) = true →
      decide (a ≤ c) = true := by
    intro a b c hab hbc
    exact decide_eq_true (Std.le_trans (of_decide_eq_true hab) (of_decide_eq_true hbc))
  have htotal : ∀ a b : String, (decide (a ≤ b) || decide (b ≤ a)) = true := by
    intro a b
    rw [← Bool.decide_or]
    exact decide_eq_true (Std.le_total)
  have hsorted : (shapeMessages v).Pairwise fun s t => decide (s ≤ t) = true :=
    List.pairwise_mergeSort htrans htotal _
  exact hsorted.imp fun hle => Text.le_iff_utf8_le.mp (of_decide_eq_true hle)

theorem perm_shapeMessages :
    (shapeMessages v).Perm ((settingsShape.violations [] v).map Violation.message) :=
  List.mergeSort_perm _ _

/-- The violations of the shape of settings are those of their schema. -/
theorem mem_violations_settingsShape_iff {steps : List Step} {b : Broken} :
    ⟨steps.reverse, b⟩ ∈ settingsShape.violations [] v ↔ Violates settingsSchema v steps b := by
  rw [Shape.mem_violations_iff settingsShape [] v _ settingsShape_proper]
  simp only [List.append_nil, Violation.mk.injEq, List.reverse_inj, violates_settingsSchema_iff]
  constructor
  · rintro ⟨_, _, h, rfl, rfl⟩
    exact h
  · intro h
    exact ⟨_, _, h, rfl, rfl⟩

theorem validate_of_inconsistent (hw : v.WellFormed) (hfull : v.isVacant = false)
    (h : Conforms settingsSchema v) (hinconsistent : Inconsistent v) :
    validate v = .error .wrongFormat := by
  rw [validate_of_no_violation hfull (conforms_settingsSchema_iff.mp h)]
  cases hread : ofJson? v with
  | none => rfl
  | some s =>
    have hspelled := (ofJson?_iff hw).mp hread
    have hnot : ¬ s.IsAcceptable := fun haccept =>
      (isAcceptable_iff hspelled h).mp haccept hinconsistent
    simp only [check_of_not_isAcceptable hnot, Except.map]

/-- Validation gives a verdict that is right. -/
theorem verdict_validate (hw : v.WellFormed) : Verdict v (validate v) := by
  by_cases hvacant : IsVacant v
  · rw [validate_of_isVacant (isVacant_iff.mpr hvacant)]
    exact .vacant hvacant
  have hfull : v.isVacant = false := by
    rw [← Bool.not_eq_true, isVacant_iff]
    exact hvacant
  by_cases hconforms : settingsShape.violations [] v = []
  · have hschema := conforms_settingsSchema_iff.mpr hconforms
    by_cases hconsistent : Inconsistent v
    · rw [validate_of_inconsistent hw hfull hschema hconsistent]
      exact .inconsistent hvacant hschema hconsistent
    · rw [validate_of_no_violation hfull hconforms]
      obtain ⟨s, hspelled⟩ := exists_spelledBy hschema fun d hd hstrange =>
        hconsistent (.patternId hd hstrange)
      have haccept := (isAcceptable_iff hspelled hschema).mpr hconsistent
      simp only [(ofJson?_iff hw).mpr hspelled, check_ok_iff.mpr haccept, Except.map]
      exact .accepted hvacant hschema hconsistent hspelled
  · rw [validate_of_violations hfull hconforms]
    exact .schema hvacant hconforms (Shape.nodup_violations _ _ _ settingsShape_proper)
      (fun _ _ => mem_violations_settingsShape_iff) perm_shapeMessages pairwise_shapeMessages

/-- There is only one right verdict. -/
theorem Verdict.unique (hw : v.WellFormed) {result result' : Except Failure Settings}
    (h : Verdict v result) (h' : Verdict v result') : result = result' := by
  have hviolated : ∀ {violations : List Violation}, violations ≠ [] →
      (∀ steps b, ⟨steps.reverse, b⟩ ∈ violations ↔ Violates settingsSchema v steps b) →
        ¬ Conforms settingsSchema v := by
    intro violations hne hmem hconforms
    obtain ⟨⟨path, b⟩, hx⟩ := List.exists_mem_of_ne_nil violations hne
    rw [← List.reverse_reverse path] at hx
    exact hconforms _ b ((hmem _ b).mp hx)
  cases h with
  | vacant hvacant =>
    cases h' with
    | vacant _ => rfl
    | _ hfull => exact absurd hvacant hfull
  | @schema violations messages hfull hne hnodup hmem hperm hsorted =>
    cases h' with
    | vacant hvacant => exact absurd hvacant hfull
    | @schema violations' messages' _ _ hnodup' hmem' hperm' hsorted' =>
      have hsame : violations.Perm violations' := by
        refine (List.perm_ext_iff_of_nodup hnodup hnodup').mpr ?_
        rintro ⟨path, b⟩
        rw [← List.reverse_reverse path, hmem, hmem']
      have hmessages : messages.Perm messages' :=
        hperm.trans ((hsame.map _).trans hperm'.symm)
      have hanti : ∀ s t, s ∈ messages → t ∈ messages' → Text.utf8 s ≤ Text.utf8 t →
          Text.utf8 t ≤ Text.utf8 s → s = t := fun s t _ _ hst hts =>
        String.le_antisymm (Text.le_iff_utf8_le.mpr hst) (Text.le_iff_utf8_le.mpr hts)
      rw [hmessages.eq_of_pairwise hanti hsorted hsorted']
    | inconsistent _ hconforms _ => exact absurd hconforms (hviolated hne hmem)
    | accepted _ hconforms _ _ => exact absurd hconforms (hviolated hne hmem)
  | inconsistent hfull hconforms hinconsistent =>
    cases h' with
    | vacant hvacant => exact absurd hvacant hfull
    | schema _ hne _ hmem _ _ => exact absurd hconforms (hviolated hne hmem)
    | inconsistent _ _ _ => rfl
    | accepted _ _ hconsistent _ => exact absurd hinconsistent hconsistent
  | accepted hfull hconforms hconsistent hspelled =>
    cases h' with
    | vacant hvacant => exact absurd hvacant hfull
    | schema _ hne _ hmem _ _ => exact absurd hconforms (hviolated hne hmem)
    | inconsistent _ _ hinconsistent => exact absurd hinconsistent hconsistent
    | accepted _ _ _ hspelled' =>
      have hread := (ofJson?_iff hw).mpr hspelled
      rw [(ofJson?_iff hw).mpr hspelled'] at hread
      rw [Option.some.inj hread]

/-- **Validation gives the verdict on a body**: the answer to a vacant body, all violations of the schema
at once, the answer to the faults that the schema does not see, or the settings that the body spells.
No other answer is right. -/
theorem validate_eq_iff (v : Json) (hw : v.WellFormed) (result : Except Failure Settings) :
    validate v = result ↔ Verdict v result := by
  constructor
  · rintro rfl
    exact verdict_validate hw
  · exact (verdict_validate hw).unique hw

end Verdicts

/-- Settings with a blank in a name that the pattern of names does not know as one. -/
def nextLineSettings : Json :=
  .obj [("based_on", .str "session"), ("kpi_definitions",
    .arr [.obj [("kpi_definition_name", .str "next\u0085line"), ("main_kpi", .bool true)]])]

theorem validate_eq_iff_nextLine :
    nextLineSettings.WellFormed ∧ Conforms settingsSchema nextLineSettings ∧
      Verdict nextLineSettings (.error .wrongFormat) := by
  have hw : nextLineSettings.WellFormed := by
    simp [nextLineSettings, Json.WellFormed, Json.MembersWellFormed, Json.ItemsWellFormed]
  have hshape : settingsShape.violations [] nextLineSettings = [] := rfl
  have hvalidate : validate nextLineSettings = .error .wrongFormat :=
    (validate_of_no_violation rfl hshape).trans rfl
  exact ⟨hw, conforms_settingsSchema_iff.mpr hshape, (validate_eq_iff _ hw _).mp hvalidate⟩

end Settings

end ExperimentKpi

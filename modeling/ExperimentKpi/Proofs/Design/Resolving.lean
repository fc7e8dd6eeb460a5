/-
# Names of patterns

A name is looked up among the conditions of all variations, whether they nest a variation or not. In
a design whose ids are keys, what comes of it is one of three things (`Resolution`): nobody has the
name, one condition has it and gives its printed pattern, or several have it and are listed in the
order of their variations and then of their own ids. Nothing else can happen, and every pattern of the
design that has its name alone is found by it (`resolve_ofRows`).

The other way round it is not so: the condition that a name stands for may nest a variation or belong
to one that no visitor gets into, and then its printed form is none of the design's patterns
(`resolve_mem_identifiers_iff`, `resolve_unserved`).

Key definitions: `Condition.IsNamed`, `Condition.Precedes`, `Design.Resolution`.
Key theorems: `Design.resolution_resolve`, `Design.resolve_ofRows`,
`Design.resolve_mem_identifiers_iff`.
-/
import ExperimentKpi.Proofs.Design.Leaves
import ExperimentKpi.Proofs.Design.Rows

namespace ExperimentKpi

namespace Condition

/-- The condition has the name and belongs to one of the variations. -/
structure IsNamed (c : Condition) (variations : List Variation) (name : String) : Prop where
  named : c.name = name
  owned : ∃ v ∈ variations, v.id = c.variation

/-- The order by the ids of the variations, and then by the conditions' own. -/
def Precedes (c e : Condition) : Prop :=
  c.variation < e.variation ∨ c.variation = e.variation ∧ c.id < e.id

theorem Precedes.ne {c e : Condition} (h : c.Precedes e) : c ≠ e := by
  rintro rfl
  rcases h with h | ⟨-, h⟩ <;> exact lt_irrefl _ h

end Condition

namespace Design

/-- What a name stands for among the conditions of variations. -/
inductive Resolution (variations : List Variation) (conditions : List Condition) (name : String) :
    Except Failure String → Prop where
  | unknown (none : ∀ c ∈ conditions, ¬ c.IsNamed variations name) :
      Resolution variations conditions name (.error (.unknownPattern name))
  | single {v : Variation} {c : Condition} (owner : v ∈ variations) (listed : c ∈ conditions)
      (own : c.variation = v.id) (named : c.name = name)
      (only : ∀ e ∈ conditions, e.IsNamed variations name → e = c) :
      Resolution variations conditions name (.ok (Pattern.ofCondition v c.id).identifier)
  | ambiguous {cs : List Condition} (several : 1 < cs.length)
      (listed : ∀ c, c ∈ cs ↔ c ∈ conditions ∧ c.IsNamed variations name)
      (ordered : cs.Pairwise Condition.Precedes) :
      Resolution variations conditions name (.error (.ambiguousPattern name (cs.map (·.id))))

variable {d : Design} {variations : List Variation} {conditions : List Condition} {name : String}
  {result : Except Failure String} {v w : Variation} {c : Condition}

/-! ### The conditions of all variations -/

theorem mem_ownedConditions :
    c ∈ d.ownedConditions ↔ c ∈ d.conditions ∧ ∃ v ∈ d.variations, v.id = c.variation := by
  unfold ownedConditions
  simp only [List.mem_flatMap, mem_conditionsOf]
  constructor
  · rintro ⟨v, hv, hc, hown⟩
    exact ⟨hc, v, hv, hown.symm⟩
  · rintro ⟨hc, v, hv, hown⟩
    exact ⟨v, hv, hc, hown.symm⟩

theorem mem_named : c ∈ (d.ownedConditions.filter fun c => c.name == name) ↔
    c ∈ d.conditions ∧ c.IsNamed d.variations name := by
  rw [List.mem_filter, mem_ownedConditions, beq_iff_eq]
  constructor
  · rintro ⟨⟨hc, howned⟩, hname⟩
    exact ⟨hc, hname, howned⟩
  · rintro ⟨hc, hname, howned⟩
    exact ⟨⟨hc, howned⟩, hname⟩

theorem pairwise_ownedConditions
    (hvariations : d.variations.Pairwise fun v w => v.id < w.id)
    (hconditions : d.conditions.Pairwise fun c e => c.id < e.id) :
    d.ownedConditions.Pairwise Condition.Precedes := by
  unfold ownedConditions
  rw [List.pairwise_flatMap]
  constructor
  · intro v _
    have hown : ∀ c ∈ d.conditionsOf v.id, c.variation = v.id := fun c hc =>
      (mem_conditionsOf.mp hc).2
    exact (hconditions.filter _).imp_of_mem fun hc he hlt =>
      .inr ⟨(hown _ hc).trans (hown _ he).symm, hlt⟩
  · refine hvariations.imp fun hlt c hc e he => .inl ?_
    rwa [(mem_conditionsOf.mp hc).2, (mem_conditionsOf.mp he).2]

/-- If one condition only has a name, then only one variation has the id of its variation: under
another one of this id the condition would be found once more. -/
theorem eq_of_named_singleton
    (h : d.ownedConditions.filter (fun c => c.name == name) = [c]) (hv : v ∈ d.variations)
    (hw : w ∈ d.variations) (hvc : v.id = c.variation) (hwc : w.id = c.variation) : w = v := by
  by_contra hne
  obtain ⟨hc, hname, -⟩ := mem_named.mp (h ▸ List.mem_singleton_self c)
  have hfound {u : Variation} {us : List Variation} (hu : u ∈ us) (hid : u.id = c.variation) :
      0 < ((us.flatMap fun v => d.conditionsOf v.id).filter fun c => c.name == name).length := by
    apply List.length_pos_of_mem
    refine List.mem_filter.mpr ⟨List.mem_flatMap.mpr ⟨u, hu, ?_⟩, beq_iff_eq.mpr hname⟩
    exact mem_conditionsOf.mpr ⟨hc, hid.symm⟩
  obtain ⟨before, after, hsplit⟩ := List.append_of_mem hv
  have hlength := congrArg List.length h
  rw [ownedConditions, hsplit, List.flatMap_append, List.filter_append, List.length_append] at hlength
  rw [hsplit] at hw
  rcases List.mem_append.mp hw with hw | hw
  · have hfirst := hfound hw hwc
    have hsecond := hfound (List.mem_cons_self : v ∈ v :: after) hvc
    simp only [List.length_singleton] at hlength
    omega
  · have hlater := (List.mem_cons.mp hw).resolve_left hne
    have hfirst := hfound (List.mem_singleton_self v) hvc
    have hsecond := hfound hlater hwc
    rw [List.flatMap_cons, List.filter_append, List.length_append] at hlength
    rw [List.flatMap_singleton] at hfirst
    simp only [List.length_singleton] at hlength
    omega

/-! ### Looking a name up -/

/-- **Every name comes to one of three things.** -/
theorem resolution_resolve (variations : List Variation) (conditions : List Condition)
    (hids : (variations.map (·.id)).Nodup) (hconditions : (conditions.map (·.id)).Nodup)
    (name : String) :
    Resolution variations conditions name ((ofRows variations conditions).resolve name) := by
  have horders := orders_ofRows variations conditions
  generalize ofRows variations conditions = d at horders ⊢
  have hd := horders.nodup_variations hids
  have hcd := horders.nodup_conditions hconditions
  have hnamed (c : Condition) : c ∈ (d.ownedConditions.filter fun c => c.name == name) ↔
      c ∈ conditions ∧ c.IsNamed variations name := by
    rw [mem_named, horders.conditions.mem_iff]
    constructor
    · rintro ⟨hc, hname, v, hv, hown⟩
      exact ⟨hc, hname, v, horders.variations.mem_iff.mp hv, hown⟩
    · rintro ⟨hc, hname, v, hv, hown⟩
      exact ⟨hc, hname, v, horders.variations.mem_iff.mpr hv, hown⟩
  have hordered : (d.ownedConditions.filter fun c => c.name == name).Pairwise Condition.Precedes :=
    (pairwise_ownedConditions (pairwise_lt_of_nodup horders.variationIds hd)
      (pairwise_lt_of_nodup horders.conditionIds hcd)).filter _
  unfold resolve
  generalize (d.ownedConditions.filter fun c => c.name == name) = cs at hnamed hordered
  match cs with
  | [] => exact .unknown fun c hc hname => List.not_mem_nil ((hnamed c).mpr ⟨hc, hname⟩)
  | [c] =>
    obtain ⟨hc, hname, v, hv, hown⟩ := (hnamed c).mp (List.mem_singleton_self c)
    have hfound : d.variation? c.variation = some v := by
      rw [← hown]
      exact variation?_id hd (horders.variations.mem_iff.mpr hv)
    simp only [hfound]
    refine .single hv hc hown.symm hname fun e he hnamed' => ?_
    exact List.mem_singleton.mp ((hnamed e).mpr ⟨he, hnamed'⟩)
  | c :: e :: r => exact .ambiguous (by simp) hnamed hordered

/-- Among several conditions in order two differ. -/
theorem exists_ne_of_several {cs : List Condition} (several : 1 < cs.length)
    (ordered : cs.Pairwise Condition.Precedes) : ∃ c ∈ cs, ∃ e ∈ cs, c ≠ e := by
  match cs with
  | [] => exact absurd several (Nat.not_lt_zero 1)
  | [_] => exact absurd several (Nat.lt_irrefl 1)
  | c :: e :: r =>
    have hne : c ≠ e := (List.rel_of_pairwise_cons ordered List.mem_cons_self).ne
    exact ⟨c, List.mem_cons_self, e, List.mem_cons_of_mem c List.mem_cons_self, hne⟩

namespace Resolution

theorem notFound_iff (h : Resolution variations conditions name result) :
    (∃ e, result = .error e ∧ e.kind = .notFound) ↔
      ∀ c ∈ conditions, ¬ c.IsNamed variations name := by
  cases h with
  | unknown none => exact ⟨fun _ => none, fun _ => ⟨_, rfl, rfl⟩⟩
  | single owner listed own named only =>
    constructor
    · rintro ⟨e, he, -⟩
      cases he
    · exact fun hnone => absurd ⟨named, _, owner, own.symm⟩ (hnone _ listed)
  | @ambiguous cs several listed ordered =>
    constructor
    · rintro ⟨e, he, hkind⟩
      cases he
      cases hkind
    · intro hnone
      obtain ⟨c, hc⟩ := List.exists_mem_of_length_pos (Nat.lt_of_succ_lt several)
      obtain ⟨hc, hnamed⟩ := (listed c).mp hc
      exact absurd hnamed (hnone c hc)

theorem validation_iff (h : Resolution variations conditions name result) :
    (∃ e, result = .error e ∧ e.kind = .validation) ↔
      ∃ c ∈ conditions, ∃ e ∈ conditions, c ≠ e ∧ c.IsNamed variations name ∧
        e.IsNamed variations name := by
  cases h with
  | unknown none =>
    constructor
    · rintro ⟨e, he, hkind⟩
      cases he
      cases hkind
    · rintro ⟨c, hc, -, -, -, hnamed, -⟩
      exact absurd hnamed (none c hc)
  | single owner listed own named only =>
    constructor
    · rintro ⟨e, he, -⟩
      cases he
    · rintro ⟨c, hc, e, he, hne, hcn, hen⟩
      exact absurd ((only c hc hcn).trans (only e he hen).symm) hne
  | @ambiguous cs several listed ordered =>
    refine ⟨fun _ => ?_, fun _ => ⟨_, rfl, rfl⟩⟩
    obtain ⟨c, hc, e, he, hne⟩ := exists_ne_of_several several ordered
    obtain ⟨hc, hcn⟩ := (listed c).mp hc
    obtain ⟨he, hen⟩ := (listed e).mp he
    exact ⟨c, hc, e, he, hne, hcn, hen⟩

theorem kind_ne_invalidData (h : Resolution variations conditions name result) {e : Failure}
    (he : result = .error e) : e.kind ≠ .invalidData := by
  cases h with
  | unknown =>
    cases he
    nofun
  | single => cases he
  | ambiguous =>
    cases he
    nofun

/-- The one condition with the name gives its pattern. -/
theorem eq_identifier (h : Resolution variations conditions name result)
    (hids : (variations.map (·.id)).Nodup) (hv : v ∈ variations) (hc : c ∈ conditions)
    (hown : c.variation = v.id) (hname : c.name = name)
    (honly : ∀ e ∈ conditions, e.IsNamed variations name → e = c) :
    result = .ok (Pattern.ofCondition v c.id).identifier := by
  have hnamed : c.IsNamed variations name := ⟨hname, v, hv, hown.symm⟩
  cases h with
  | unknown none => exact absurd hnamed (none c hc)
  | @single w e owner listed own named only =>
    obtain rfl := only c hc hnamed
    obtain rfl : v = w := List.inj_on_of_nodup_map hids hv owner (hown.symm.trans own)
    rfl
  | @ambiguous cs several listed ordered =>
    obtain ⟨e, he, e', he', hne⟩ := exists_ne_of_several several ordered
    obtain ⟨he, hen⟩ := (listed e).mp he
    obtain ⟨he', hen'⟩ := (listed e').mp he'
    exact absurd ((honly e he hen).trans (honly e' he' hen').symm) hne

end Resolution

/-- **What a name stands for**, in a design whose ids are keys. It is not found exactly if no condition
of a variation has it, and ambiguous exactly if two have it, which are listed in the order of the
variations' ids and then of their own; the one condition that has it gives its pattern, and the data
are never invalid. A pattern of the design is found by its condition's name if that is the name of no
other. -/
theorem resolve_ofRows (variations : List Variation) (conditions : List Condition)
    (hids : (variations.map (·.id)).Nodup) (hconditions : (conditions.map (·.id)).Nodup) :
    (∀ name,
      Resolution variations conditions name ((ofRows variations conditions).resolve name) ∧
      ((∃ e, (ofRows variations conditions).resolve name = .error e ∧ e.kind = .notFound) ↔
        ∀ c ∈ conditions, ¬ c.IsNamed variations name) ∧
      ((∃ e, (ofRows variations conditions).resolve name = .error e ∧ e.kind = .validation) ↔
        ∃ c ∈ conditions, ∃ e ∈ conditions, c ≠ e ∧ c.IsNamed variations name ∧
          e.IsNamed variations name) ∧
      ∀ e, (ofRows variations conditions).resolve name = .error e → e.kind ≠ .invalidData) ∧
    ∀ ps, (ofRows variations conditions).patterns = .ok ps → ∀ p ∈ ps,
      ∃ c ∈ conditions, c.id = p.condition ∧ c.variation = p.variation ∧
        ((∀ e ∈ conditions, e.IsNamed variations c.name → e = c) →
          (ofRows variations conditions).resolve c.name = .ok p.identifier) := by
  have hresolution := resolution_resolve variations conditions hids hconditions
  refine ⟨fun name => ?_, fun ps hps p hp => ?_⟩
  · have h := hresolution name
    exact ⟨h, h.notFound_iff, h.validation_iff, fun e he => h.kind_ne_invalidData he⟩
  · have horders := orders_ofRows variations conditions
    obtain ⟨v, hv, c, hc, -, rfl⟩ := exists_of_mem_patterns hps hp
    obtain ⟨hc, hown⟩ := mem_conditionsOf.mp hc
    have hv' : v ∈ variations := horders.variations.mem_iff.mp hv.mem
    have hc' : c ∈ conditions := horders.conditions.mem_iff.mp hc
    exact ⟨c, hc', rfl, hown, fun honly =>
      (hresolution c.name).eq_identifier hids hv' hc' hown rfl honly⟩

/-- Rows in no order: a root that nests a variation, and one that nothing nests. -/
def nestingVariations : List Variation :=
  [⟨3, 1, "Other", false⟩, ⟨1, 1, "Target", true⟩, ⟨2, 1, "Target", false⟩]

/-- The conditions of `nestingVariations`, two of one name, and one of no variation. -/
def nestingConditions : List Condition :=
  [⟨15, 3, "both", none⟩, ⟨12, 1, "nest", some 2⟩, ⟨13, 1, "both", none⟩, ⟨11, 2, "inner", none⟩,
    ⟨14, 3, "spare", none⟩, ⟨16, 9, "stray", none⟩]

theorem ofRows_nesting : ofRows nestingVariations nestingConditions =
    ⟨[⟨1, 1, "Target", true⟩, ⟨2, 1, "Target", false⟩, ⟨3, 1, "Other", false⟩],
      [⟨11, 2, "inner", none⟩, ⟨12, 1, "nest", some 2⟩, ⟨13, 1, "both", none⟩,
        ⟨14, 3, "spare", none⟩, ⟨15, 3, "both", none⟩, ⟨16, 9, "stray", none⟩]⟩ := by
  simp [ofRows, nestingVariations, nestingConditions, List.mergeSort]

theorem patterns_nesting : (ofRows nestingVariations nestingConditions).patterns =
    .ok [⟨"target", 2, 11⟩, ⟨"target", 1, 13⟩] := by
  rw [ofRows_nesting]
  decide +kernel

/-- A name of no variation's condition, one of two conditions, and one of a pattern. -/
theorem resolve_ofRows_nesting :
    (nestingVariations.map (·.id)).Nodup ∧ (nestingConditions.map (·.id)).Nodup ∧
      (∃ e, (ofRows nestingVariations nestingConditions).resolve "stray" = .error e ∧
        e.kind = .notFound) ∧
      (∃ e, (ofRows nestingVariations nestingConditions).resolve "both" = .error e ∧
        e.kind = .validation) ∧
      (ofRows nestingVariations nestingConditions).resolve "inner" =
        .ok (Pattern.identifier ⟨"target", 2, 11⟩) := by
  have hids : (nestingVariations.map (·.id)).Nodup := by decide
  have hconditions : (nestingConditions.map (·.id)).Nodup := by decide
  have hstray : ∀ c ∈ nestingConditions, ¬ c.IsNamed nestingVariations "stray" := by
    have howned : ∀ c ∈ nestingConditions, c.name = "stray" →
        ∀ v ∈ nestingVariations, v.id ≠ c.variation := by decide
    rintro c hc ⟨hname, v, hv, hown⟩
    exact howned c hc hname v hv hown
  have hboth : (⟨15, 3, "both", none⟩ : Condition).IsNamed nestingVariations "both" ∧
      (⟨13, 1, "both", none⟩ : Condition).IsNamed nestingVariations "both" :=
    ⟨⟨rfl, ⟨3, 1, "Other", false⟩, by decide, rfl⟩, ⟨rfl, ⟨1, 1, "Target", true⟩, by decide, rfl⟩⟩
  have hinner : ∀ e ∈ nestingConditions, e.name = "inner" → e = ⟨11, 2, "inner", none⟩ := by decide
  obtain ⟨hnames, hpatterns⟩ := resolve_ofRows nestingVariations nestingConditions hids hconditions
  obtain ⟨c, hc, hid, -, hfound⟩ := hpatterns _ patterns_nesting _ List.mem_cons_self
  have hname : c = ⟨11, 2, "inner", none⟩ := by
    have hunique : ∀ c ∈ nestingConditions, c.id = 11 → c = ⟨11, 2, "inner", none⟩ := by decide
    exact hunique c hc hid
  subst hname
  refine ⟨hids, hconditions, (hnames "stray").2.1.mpr hstray, (hnames "both").2.2.1.mpr ?_,
    hfound fun e he hnamed => hinner e he hnamed.named⟩
  exact ⟨_, by decide, _, by decide, by decide, hboth⟩

/-! ### Names that give no pattern of the design -/

/-- A name that gives a printed pattern is that of one condition, whose variation is found. -/
theorem exists_of_resolve_ok {id : String} (h : d.resolve name = .ok id) :
    ∃ c v, d.ownedConditions.filter (fun c => c.name == name) = [c] ∧ v ∈ d.variations ∧
      v.id = c.variation ∧ id = (Pattern.ofCondition v c.id).identifier := by
  unfold resolve at h
  split at h
  · cases h
  · rename_i c hone
    cases hfound : d.variation? c.variation with
    | none =>
      rw [hfound] at h
      cases h
    | some v =>
      rw [hfound] at h
      obtain ⟨hv, hown⟩ := mem_of_variation? hfound
      exact ⟨c, v, hone, hv, hown, (Except.ok.inj h).symm⟩
  · cases h

/-- A name that stands for a condition gives one of the design's patterns exactly if a visitor can get
into the condition's variation and one of its leaves has the condition's id, as the condition itself
has if it nests nothing. -/
theorem resolve_mem_identifiers_iff {ids : List String} {id : String} (hids : d.identifiers = .ok ids)
    (hresolve : d.resolve name = .ok id) :
    id ∈ ids ↔ ∃ v, d.IsEntered v ∧ ∃ c ∈ d.conditionsOf v.id, c.name = name ∧
      ∃ leaf ∈ d.conditionsOf v.id, leaf.id = c.id ∧ leaf.nested = none := by
  obtain ⟨ps, hps, rfl⟩ := identifiers_ok_iff.mp hids
  obtain ⟨c, v, hone, hv, hown, rfl⟩ := exists_of_resolve_ok hresolve
  have honly {u : Variation} (hu : u ∈ d.variations) (hid : u.id = c.variation) : u = v :=
    eq_of_named_singleton hone hv hu hown hid
  rw [List.mem_map_of_injective Pattern.identifier_injective]
  constructor
  · intro hp
    obtain ⟨u, hu, leaf, hleaf, hnested, hsame⟩ := exists_of_mem_patterns hps hp
    obtain ⟨-, huv, hid⟩ := Pattern.mk.inj hsame
    obtain rfl : u = v := honly hu.mem (huv.symm.trans hown)
    obtain ⟨hc, hname, -⟩ := mem_named.mp (hone ▸ List.mem_singleton_self c)
    exact ⟨u, hu, c, mem_conditionsOf.mpr ⟨hc, hown.symm⟩, hname, leaf, hleaf, hid.symm, hnested⟩
  · rintro ⟨u, hu, e, he, hename, leaf, hleaf, hid, hnested⟩
    obtain ⟨he, heown⟩ := mem_conditionsOf.mp he
    have hmem := mem_named.mpr ⟨he, hename, u, hu.mem, heown.symm⟩
    rw [hone, List.mem_singleton] at hmem
    subst hmem
    obtain rfl : u = v := honly hu.mem heown.symm
    rw [← hid]
    exact mem_patterns_of_leaf hps hu (fun w hw hwid => honly hw (hwid.trans hown)) hleaf hnested

theorem identifiers_nesting : (ofRows nestingVariations nestingConditions).identifiers =
    .ok ["target__2__11", "target__1__13"] :=
  identifiers_ok_iff.mpr ⟨_, patterns_nesting, rfl⟩

/-- The name of a leaf that is nested below a root. -/
theorem resolve_mem_identifiers_inner :
    (ofRows nestingVariations nestingConditions).identifiers =
        .ok ["target__2__11", "target__1__13"] ∧
      (ofRows nestingVariations nestingConditions).resolve "inner" = .ok "target__2__11" ∧
      ∃ v, (ofRows nestingVariations nestingConditions).IsEntered v ∧
        ∃ c ∈ (ofRows nestingVariations nestingConditions).conditionsOf v.id, c.name = "inner" ∧
          ∃ leaf ∈ (ofRows nestingVariations nestingConditions).conditionsOf v.id,
            leaf.id = c.id ∧ leaf.nested = none := by
  have hresolve : (ofRows nestingVariations nestingConditions).resolve "inner" =
      .ok "target__2__11" := by
    rw [ofRows_nesting]
    decide +kernel
  exact ⟨identifiers_nesting, hresolve,
    (resolve_mem_identifiers_iff identifiers_nesting hresolve).mp (by decide)⟩

/-- The name of a condition that nests a variation, and that of a leaf of a variation that no visitor
gets into, give printed patterns that are none of the design's. -/
theorem resolve_unserved :
    (ofRows nestingVariations nestingConditions).identifiers =
        .ok ["target__2__11", "target__1__13"] ∧
      (ofRows nestingVariations nestingConditions).resolve "nest" = .ok "target__1__12" ∧
      (ofRows nestingVariations nestingConditions).resolve "spare" = .ok "other__3__14" ∧
      "target__1__12" ∉ ["target__2__11", "target__1__13"] ∧
      "other__3__14" ∉ ["target__2__11", "target__1__13"] := by
  have hnest : (ofRows nestingVariations nestingConditions).resolve "nest" =
      .ok "target__1__12" := by
    rw [ofRows_nesting]
    decide +kernel
  have hspare : (ofRows nestingVariations nestingConditions).resolve "spare" =
      .ok "other__3__14" := by
    rw [ofRows_nesting]
    decide +kernel
  exact ⟨identifiers_nesting, hnest, hspare, by decide, by decide⟩

end Design

end ExperimentKpi

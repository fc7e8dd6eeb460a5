/-
# The conditions that templates see

Templates see the groups of conditions of their definition at `params.kpi_conditions`, in the order and
with all the members that they were sent with. A click-through conversion has them in sets: one for each
click in turn, then one with all conversions; the sets hold every group once (`perm_clickSets`). So no
group is lost, repeated or changed on the way to its template (`reactionFragments_showConditions`).

Key definitions: `Json.isConversion`, `clickSets`, `ReactionFragment.shownConditions`,
`ReactionFragment.ShowsConditions`.
Key theorems: `map_toJson_clickThroughSets`, `perm_clickSets`, `reactionFragments_showConditions`.
-/
import ExperimentKpi.Proofs.Query.Parameters
import ExperimentKpi.Proofs.Settings.Conditions

namespace ExperimentKpi

open Draft4
open scoped List

/-! ### Sets of groups -/

/-- Whether the type of a group starts with `conversion`. -/
def Json.isConversion (v : Json) : Bool :=
  match v.member? "condition_type" with
  | some (.str type) => "conversion".toList.isPrefixOf type.toList
  | _ => false

/-- A named set of groups. -/
def groupSet (name : String) (groups : List Json) : Json :=
  .obj [("kpi", .str name), ("conditions", .arr groups)]

/-- The groups of a set. -/
def Json.setGroups (v : Json) : List Json :=
  match v.member? "conditions" with
  | some (.arr groups) => groups
  | _ => []

/-- The sets of a click-through conversion: `click_0`, `click_1` and so on, each with the next group that
is no conversion, and then `conversion` with the others. -/
def clickSets (groups : List Json) : List Json :=
  ((groups.filter fun v => !v.isConversion).zipIdx.map fun (v, i) => groupSet s!"click_{i}" [v]) ++
    [groupSet "conversion" (groups.filter Json.isConversion)]

theorem ConditionType.isPrefixOf_name (t : ConditionType) :
    "conversion".toList.isPrefixOf t.name.toList = t.isConversion := by
  cases t <;> decide

theorem isConversion_toJson (g : ConditionGroup) : g.toJson.isConversion = g.type.isConversion := by
  have htype : g.toJson.member? "condition_type" = some (.str g.type.name) := rfl
  unfold Json.isConversion
  rw [htype]
  exact g.type.isPrefixOf_name

/-- The sets of a definition's groups are written as the sets of what the groups are written as. -/
theorem map_toJson_clickThroughSets (gs : List ConditionGroup) :
    (clickThroughSets gs).map ConditionSet.toJson = clickSets (gs.map ConditionGroup.toJson) := by
  have hconversions : Json.isConversion ∘ ConditionGroup.toJson = fun g => g.type.isConversion :=
    funext isConversion_toJson
  have hclicks : (fun v => !v.isConversion) ∘ ConditionGroup.toJson =
      fun g => !g.type.isConversion :=
    funext fun g => congrArg Bool.not (isConversion_toJson g)
  unfold clickThroughSets clickSets
  rw [List.filter_map, List.filter_map, hconversions, hclicks, List.zipIdx_map, List.map_append,
    List.map_map, List.map_map]
  rfl

theorem setGroups_groupSet (name : String) (groups : List Json) :
    (groupSet name groups).setGroups = groups := rfl

/-- The sets hold each group once. -/
theorem perm_clickSets (groups : List Json) : (clickSets groups).flatMap Json.setGroups ~ groups := by
  have hclicks : ∀ (clicks : List Json) (index : Nat),
      ((clicks.zipIdx index).map fun (v, i) => groupSet s!"click_{i}" [v]).flatMap Json.setGroups =
        clicks := by
    intro clicks
    induction clicks with
    | nil => exact fun _ => rfl
    | cons v clicks ih =>
      intro index
      rw [List.zipIdx_cons, List.map_cons, List.flatMap_cons, ih (index + 1), setGroups_groupSet,
        List.singleton_append]
  calc (clickSets groups).flatMap Json.setGroups
    _ = (groups.filter fun v => !v.isConversion) ++ groups.filter Json.isConversion := by
      unfold clickSets
      rw [List.flatMap_append, hclicks, List.flatMap_singleton, setGroups_groupSet]
    _ ~ groups.filter Json.isConversion ++ groups.filter fun v => !v.isConversion :=
      List.perm_append_comm
    _ ~ groups := List.filter_append_perm _ _

/-! ### Fragments -/

/-- What templates see at `params.kpi_conditions`. -/
def ReactionFragment.shownConditions (f : ReactionFragment) : Option Json :=
  Template.Scope.resolve? ⟨templateContext f.parameters.toJson, []⟩
    ⟨"params.kpi_conditions", "params", [.key "kpi_conditions"]⟩

/-- The fragment's template sees the groups of a definition that was sent, each completed, in their order,
and for a click-through conversion in sets. -/
def ReactionFragment.ShowsConditions (f : ReactionFragment) (definition : Json) : Prop :=
  ∃ sent shown : List Json,
    (definition.member? "kpi_conditions").getD (.arr []) = .arr sent ∧
    List.Forall₂ Json.IsCompletedTo sent shown ∧
    (f.template ≠ .clickThrough → f.shownConditions = some (.arr shown)) ∧
    (f.template = .clickThrough → f.shownConditions = some (.arr (clickSets shown)) ∧
      (clickSets shown).flatMap Json.setGroups ~ shown)

section Fragments

variable {context : ExperimentContext} {warehouse : Warehouse} {patterns : List String}
  {isFirst : Bool} {f : ReactionFragment} {fs : List ReactionFragment}

theorem reactionFragment_conditions {d : Definition}
    (h : reactionFragment context warehouse patterns isFirst d = .ok f) :
    f.parameters.conditions = match f.template with
      | .clickThrough => .sets (clickThroughSets d.conditions)
      | _ => .plain d.conditions := by
  obtain ⟨t, -, rfl⟩ := Template.map_ok_iff.mp h
  rfl

/-- The template of a definition's fragment sees the groups as they are written. -/
theorem shownConditions_of_reactionFragment {d : Definition}
    (h : reactionFragment context warehouse patterns isFirst d = .ok f) :
    (f.template ≠ .clickThrough →
      f.shownConditions = some (.arr (d.conditions.map ConditionGroup.toJson))) ∧
    (f.template = .clickThrough →
      f.shownConditions = some (.arr (clickSets (d.conditions.map ConditionGroup.toJson)))) := by
  have hconditions := reactionFragment_conditions h
  have hshown : f.shownConditions = some f.parameters.conditions.toJson := rfl
  rw [hshown, hconditions]
  refine ⟨fun htemplate => ?_, fun htemplate => ?_⟩
  · cases ht : f.template with
    | clickThrough => exact absurd ht htemplate
    | general | r2d2 => rfl
  · rw [htemplate, ← map_toJson_clickThroughSets]
    rfl

/-- There is a fragment for each definition, in order. -/
theorem forall₂_of_fragmentsOf {ds : List Definition}
    (h : fragmentsOf context warehouse patterns isFirst ds = .ok fs) :
    List.Forall₂
      (fun f d => ∃ isFirst, reactionFragment context warehouse patterns isFirst d = .ok f) fs ds := by
  induction ds generalizing isFirst fs with
  | nil =>
    cases h
    exact .nil
  | cons d ds ih =>
    rw [fragmentsOf] at h
    obtain ⟨f, hf, h⟩ := bind_ok_iff.mp h
    obtain ⟨rest, hrest, h⟩ := bind_ok_iff.mp h
    cases h
    exact .cons ⟨isFirst, hf⟩ (ih hrest)

theorem forall₂_of_reactionFragments {settings : Settings}
    (h : reactionFragments context settings warehouse = .ok fs) :
    List.Forall₂ (fun f d => ∃ patterns isFirst,
      reactionFragment context warehouse patterns isFirst d = .ok f) fs settings.definitions := by
  unfold reactionFragments at h
  obtain ⟨patterns, -, h⟩ := bind_ok_iff.mp h
  exact (forall₂_of_fragmentsOf h).imp fun _ _ hf => ⟨patterns, hf⟩

end Fragments

theorem forall₂_comp {α β γ : Type} {R : α → β → Prop} {S : β → γ → Prop} {as : List α} {bs : List β}
    {cs : List γ} (h : List.Forall₂ R as bs) (h' : List.Forall₂ S bs cs) :
    List.Forall₂ (fun a c => ∃ b, R a b ∧ S b c) as cs := by
  induction h generalizing cs with
  | nil =>
    cases h'
    exact .nil
  | cons hab _ ih =>
    cases h' with
    | cons hbc hrest => exact .cons ⟨_, hab, hbc⟩ (ih hrest)

/-- **Templates see the conditions that were sent.** Where an accepted body has fragments, there is one for
each of its definitions, in order, and its template sees the definition's groups of conditions: all of
them, in the order of the body and with all members as they are, but for the order of a group's own
members and an empty list of conditions where a group has none. A click-through conversion has one set for
each group whose type does not start with `conversion`, named `click_0`, `click_1` and so on, and then the
set `conversion` of all others, and in these sets each group stands once. -/
theorem reactionFragments_showConditions {document : Json} {settings : Settings}
    {context : ExperimentContext} {warehouse : Warehouse} {fragments : List ReactionFragment}
    (hw : document.WellFormed) (hvalid : Settings.validate document = .ok settings)
    (hfragments : reactionFragments context settings warehouse = .ok fragments) :
    List.Forall₂ ReactionFragment.ShowsConditions fragments document.definitions := by
  obtain ⟨-, hnone, hread, -⟩ := Settings.validate_ok_iff.mp hvalid
  have hconforms := Settings.conforms_settingsSchema_iff.mpr hnone
  obtain ⟨ms, -, vs, rfl, -, hget, -, hvs⟩ := Settings.exists_parts hconforms
  obtain ⟨-, hspelled⟩ := ((Settings.ofJson?_iff hw).mp hread).exists_definitions hconforms
  rw [Settings.definitions_obj hget] at hspelled ⊢
  have hwell : ∀ v ∈ vs, v.WellFormed := Json.itemsWellFormed_iff.mp (wellFormed_of_get? hw hget)
  -- Each fragment is that of a definition that was read, which a definition of the body spells.
  refine forall₂_imp_of_mem ?_ (forall₂_comp (forall₂_of_reactionFragments hfragments) hspelled)
  rintro _ hmem f ⟨d, ⟨patterns, isFirst, hf⟩, ns, rfl, hd⟩
  obtain ⟨sent, hsent, hcompleted⟩ := hd.forall₂_isCompletedTo (hwell _ hmem) (hvs _ hmem)
  obtain ⟨hplain, hsets⟩ := shownConditions_of_reactionFragment hf
  exact ⟨sent, _, hsent, hcompleted, hplain, fun htemplate =>
    ⟨hsets htemplate, perm_clickSets _⟩⟩

/-- A click-through conversion whose groups stand in any order and have other members, and a definition
without groups. -/
def mixedBody : Json :=
  .obj [("based_on", .str "overall"),
    ("kpi_definitions", .arr [
      .obj [("kpi_definition_name", .str "clicks"), ("main_kpi", .bool true),
        ("kpi_type", .str "clickThroughConversion"),
        ("kpi_conditions", .arr [
          .obj [("weight", .int 3), ("condition_type", .str "conversion_url")],
          .obj [("conditions", .arr [.obj [("operator", .str "like"), ("depth", .null)]]),
            ("condition_type", .str "url")],
          .obj [("condition_type", .str "add_to_cart")]])],
      .obj [("kpi_definition_name", .str "orders"), ("main_kpi", .bool false)]])]

/-- What `mixedBody` reads as. -/
def mixedReading : Settings :=
  ⟨.overall, [⟨"clicks", true, some .clickThroughConversion, none, none,
      [⟨.conversionUrl, [], [("weight", .int 3)]⟩,
        ⟨.url, [.obj [("operator", .str "like"), ("depth", .null)]], []⟩, ⟨.addToCart, [], []⟩], []⟩,
    ⟨"orders", false, none, none, none, [], []⟩]⟩

/-- The clicks stand before the conversion that was sent first. -/
theorem reactionFragments_showConditions_mixed :
    mixedBody.WellFormed ∧ Settings.validate mixedBody = .ok mixedReading ∧
      ∃ clicks orders : ReactionFragment,
        reactionFragments (designedContext (oneCondition none)) mixedReading {} =
          .ok [clicks, orders] ∧
        clicks.shownConditions = some (.arr [
          groupSet "click_0" [.obj [("condition_type", .str "url"),
            ("conditions", .arr [.obj [("operator", .str "like"), ("depth", .null)]])]],
          groupSet "click_1" [.obj [("condition_type", .str "add_to_cart"), ("conditions", .arr [])]],
          groupSet "conversion" [.obj [("condition_type", .str "conversion_url"),
            ("conditions", .arr []), ("weight", .int 3)]]]) ∧
        orders.shownConditions = some (.arr []) ∧
        List.Forall₂ ReactionFragment.ShowsConditions [clicks, orders] mixedBody.definitions := by
  have hw : mixedBody.WellFormed := by
    simp [mixedBody, Json.int, Json.WellFormed, Json.ItemsWellFormed, Json.MembersWellFormed]
  have hvalid : Settings.validate mixedBody = .ok mixedReading :=
    Settings.validate_ok_iff.mpr ⟨rfl, rfl, rfl, by decide⟩
  have hfragments : ∃ clicks orders : ReactionFragment,
      reactionFragments (designedContext (oneCondition none)) mixedReading {} =
        .ok [clicks, orders] := ⟨_, _, rfl⟩
  obtain ⟨clicks, orders, hfragments⟩ := hfragments
  refine ⟨hw, hvalid, clicks, orders, hfragments, ?_, ?_,
    reactionFragments_showConditions hw hvalid hfragments⟩
  · cases hfragments
    rfl
  · cases hfragments
    rfl

end ExperimentKpi

/-
# What is shown of settings with pattern ids

A document that was accepted has its two members, and with pattern ids it has them still: the basis
is the one that was sent, and so is every definition but for the `pattern_id` of those that name a
pattern (`Json.shows_assignPatternIds`). No key is repeated on the way (`wellFormed_assignPatternIds`).

Key definitions: `Json.ShownAs`, `Json.Shows`.
Key theorems: `wellFormed_assignPatternIds`, `Json.shows_assignPatternIds`.
-/
import ExperimentKpi.Proofs.Settings.PatternId
import ExperimentKpi.Proofs.Settings.Validate

namespace ExperimentKpi

/-! ### Keys -/

namespace Json

theorem wellFormed_put {key : String} {value : Json} {ms : Members} (h : (obj ms).WellFormed)
    (hv : value.WellFormed) : (obj (Members.put key value ms)).WellFormed := by
  obtain ⟨hkeys, hvalues⟩ := h
  refine ⟨Members.nodup_keys_put hkeys, membersWellFormed_iff.mpr fun m hm => ?_⟩
  rcases Members.eq_or_mem_of_mem_put hm with rfl | hm
  · exact hv
  · exact membersWellFormed_iff.mp hvalues m hm

theorem wellFormed_withPatternId (id : String) {v : Json} (h : v.WellFormed) :
    (v.withPatternId id).WellFormed := by
  cases v with
  | obj ms => exact wellFormed_put h trivial
  | _ => exact h

end Json

theorem itemsWellFormed_assignToDefinitions {design : Design} {vs : List Json}
    (h : Json.ItemsWellFormed vs) : Json.ItemsWellFormed (assignToDefinitions design vs).1 := by
  rw [Json.itemsWellFormed_iff] at h ⊢
  intro w hw
  obtain ⟨v, hv, rfl | ⟨id, rfl⟩⟩ := exists_of_mem_assignToDefinitions hw
  · exact h w hv
  · exact Json.wellFormed_withPatternId id (h v hv)

/-- Pattern ids repeat no key. -/
theorem wellFormed_assignPatternIds {design : Design} {models : List String} {document : Json}
    (h : document.WellFormed) : (assignPatternIds design models document).1.WellFormed := by
  rcases assignPatternIds_fst design models document with hkept | ⟨ms, vs, rfl, hget, hput⟩
  · rwa [hkept]
  · have hvs : (Json.arr vs).WellFormed :=
      Json.membersWellFormed_iff.mp h.2 _ (Members.mem_of_get? hget)
    rw [hput]
    exact Json.wellFormed_put h (itemsWellFormed_assignToDefinitions hvs)

/-! ### Definitions -/

/-- A definition as it is shown: as it was sent, or, where a live model maps definitions to patterns
and the definition names one, with the pattern's identifier as `pattern_id`. -/
inductive Json.ShownAs (design : Design) (models : List String) : Json → Json → Prop where
  | asSent {v : Json} (unassigned : usesPatternMapping models = false ∨ v.patternName? = none) :
      ShownAs design models v v
  | withPatternId {ms : Members} {name id : String} (mapped : usesPatternMapping models = true)
      (named : (Json.obj ms).patternName? = some name) (resolved : design.resolve name = .ok id) :
      ShownAs design models (.obj ms) (.obj (Members.put "pattern_id" (.str id) ms))

/-- A document shows the settings that another one was sent with: the same basis, and the definitions in
their order, each as it is shown. -/
structure Json.Shows (shown : Json) (design : Design) (models : List String) (sent : Json) :
    Prop where
  basedOn : ∃ basedOn, sent.member? "based_on" = some basedOn ∧
    shown.member? "based_on" = some basedOn
  definitions : ∃ ds ds', sent.member? "kpi_definitions" = some (.arr ds) ∧
    shown.member? "kpi_definitions" = some (.arr ds') ∧
      List.Forall₂ (Json.ShownAs design models) ds ds'

section

variable {design : Design} {models : List String} {limit : Nat}

theorem Json.ShownAs.forall₂_refl (h : usesPatternMapping models = false) (vs : List Json) :
    List.Forall₂ (Json.ShownAs design models) vs vs := by
  induction vs with
  | nil => exact .nil
  | cons v vs ih => exact .cons (.asSent (.inl h)) ih

/-- A value that reads as a definition is an object. -/
theorem Definition.exists_obj_of_ofRaw? {v : Json} {d : Definition}
    (h : Definition.ofRaw? limit v.toRaw = some d) : ∃ ms, v = .obj ms := by
  simp only [Definition.ofRaw?, Option.bind_eq_bind, Option.bind_eq_some_iff] at h
  obtain ⟨raw, hraw, -⟩ := h
  cases v with
  | obj ms => exact ⟨ms, rfl⟩
  | _ => cases hraw

theorem AssignsAll.shownAs {vs vs' : List Json} {ds : List Definition}
    (hmodels : usesPatternMapping models = true) (h : AssignsAll design vs vs')
    (hds : (vs.map Json.toRaw).mapM (Definition.ofRaw? limit) = some ds) :
    List.Forall₂ (Json.ShownAs design models) vs vs' := by
  induction h generalizing ds with
  | nil => exact .nil
  | unnamed hname _ ih =>
    simp only [List.map_cons, List.mapM_cons, Option.bind_eq_bind, Option.bind_eq_some_iff] at hds
    obtain ⟨d, -, es, hes, -⟩ := hds
    exact .cons (.asSent (.inr hname)) (ih hes)
  | named hname hid _ ih =>
    simp only [List.map_cons, List.mapM_cons, Option.bind_eq_bind, Option.bind_eq_some_iff] at hds
    obtain ⟨d, hd, es, hes, -⟩ := hds
    obtain ⟨ms, rfl⟩ := Definition.exists_obj_of_ofRaw? hd
    exact .cons (.withPatternId hmodels hname hid) (ih hes)

/-- The basis of an object that reads as settings. -/
theorem Settings.exists_basedOn {ms : Members} {s : Settings}
    (hs : ofRaw? limit (Json.obj ms).toRaw = some s) :
    ∃ basedOn, Members.get? ms "based_on" = some basedOn := by
  simp only [Json.toRaw, ofRaw?, ofParts?, Option.bind_eq_bind, Option.bind_eq_some_iff] at hs
  obtain ⟨-, -, basedOn, hb, -⟩ := hs
  obtain ⟨v, hv, -⟩ := RawMembers.valuesAt_of_required? hb
  obtain ⟨value, hget, -⟩ := RawMembers.get?_of_valuesAt hv
  exact ⟨value, hget⟩

/-- **An accepted document with pattern ids is the document that was sent but for these ids.** -/
theorem Json.shows_assignPatternIds {document document' : Json} {accepted : Settings}
    {assigned : Bool} (hvalid : Settings.validate document = .ok accepted)
    (hassign : assignPatternIds design models document = (document', .ok assigned)) :
    document'.Shows design models document := by
  obtain ⟨ms, rfl⟩ := Settings.exists_obj_of_validate hvalid
  obtain ⟨-, -, hread, -⟩ := Settings.validate_ok_iff.mp hvalid
  obtain ⟨basedOn, hbasedOn⟩ := Settings.exists_basedOn hread
  obtain ⟨sent, hsent, -, hdefinitions⟩ := Settings.exists_definitions hread
  by_cases hmodels : usesPatternMapping models = true
  · obtain ⟨shown, hshown, rfl⟩ := exists_of_assignPatternIds_ok hmodels hsent hassign
    refine ⟨⟨basedOn, hbasedOn, ?_⟩, sent, shown, hsent, Members.get?_put_self _ _ _,
      (assignsAll_of_ok hshown).shownAs hmodels hdefinitions⟩
    rw [member?, Members.get?_put_of_ne _ _ (by decide)]
    exact hbasedOn
  · have hunmapped : usesPatternMapping models = false := by simpa using hmodels
    rw [assignPatternIds_of_unmapped hunmapped] at hassign
    cases hassign
    exact ⟨⟨basedOn, hbasedOn, hbasedOn⟩, sent, sent, hsent, hsent,
      ShownAs.forall₂_refl hunmapped sent⟩

end

end ExperimentKpi

/-
# What assigning pattern ids does to a document

Pattern ids go into the definitions of a document in turn. The name that counts for a definition is the
first of all its pattern names (`Json.patternNames`, `Json.patternName?_eq_head?`); the work ends at the
first definition whose name comes to a failure (`Design.Ends`). Every definition before it has its id, in
the place of an old one or behind all other members (`Members.IsPut`), and nothing else in the document
changes (`assignPatternIds_effect`).

In accepted settings no id holds a pattern name, so an id that was put in hides no name and adds none.
Ids can then be assigned again, for the same design without a change and for another one as if it were
for the first time (`assignPatternIds_again`).

Key definitions: `Members.IsPut`, `Json.patternNames`, `Design.Rejects`, `Design.Ends`,
`Json.Receives`.
Key theorems: `Members.isPut_put`, `Json.patternName?_eq_head?`, `assignToDefinitions_effect`,
`assignPatternIds_effect`, `assignPatternIds_again`.
-/
import ExperimentKpi.Proofs.Settings.PatternId
import ExperimentKpi.Proofs.Settings.Reading
import ExperimentKpi.Proofs.Settings.Validate

namespace ExperimentKpi

/-! ### Putting a value at a key -/

namespace Members

/-- Members before and after a value stands at a key: in the place of the first one there, or behind all
members if there was none. Nothing else is touched. -/
inductive IsPut (key : String) (value : Json) : Members → Members → Prop where
  | inPlace {before after : Members} {old : Json} (first : key ∉ keys before) :
      IsPut key value (before ++ (key, old) :: after) (before ++ (key, value) :: after)
  | atEnd {ms : Members} (absent : key ∉ keys ms) : IsPut key value ms (ms ++ [(key, value)])

theorem isPut_put (key : String) (value : Json) (ms : Members) :
    IsPut key value ms (put key value ms) := by
  by_cases h : key ∈ keys ms
  · obtain ⟨before, old, after, hfirst, rfl⟩ := exists_append_cons h
    rw [put_append_cons hfirst]
    exact .inPlace hfirst
  · rw [put_of_not_mem h]
    exact .atEnd h

end Members

/-! ### Pattern names -/

namespace Json

/-- The pattern name of an object itself. -/
def ownPatternNames (ms : Members) : List String :=
  match Members.get? ms "pattern_name" with
  | some (str name) => [name]
  | _ => []

mutual

/-- All pattern names in a value, in the order of the search: an object's own before those in its
members, and members and items in the order of the document. -/
def patternNames : Json → List String
  | obj ms => ownPatternNames ms ++ membersPatternNames ms
  | arr items => itemsPatternNames items
  | _ => []

/-- The pattern names in items. -/
def itemsPatternNames : List Json → List String
  | [] => []
  | x :: r => patternNames x ++ itemsPatternNames r

/-- The pattern names in the values of members. -/
def membersPatternNames : List (String × Json) → List String
  | [] => []
  | (_, v) :: r => patternNames v ++ membersPatternNames r

end

mutual

/-- The pattern name that counts is the first of all. -/
theorem patternName?_eq_head? : ∀ v : Json, v.patternName? = v.patternNames.head?
  | obj ms => by
    unfold patternName? patternNames ownPatternNames
    match Members.get? ms "pattern_name" with
    | some (str _) => rfl
    | none | some null | some (bool _) | some (num _) | some (arr _) | some (obj _) =>
      exact membersPatternName?_eq_head? ms
  | arr items => itemsPatternName?_eq_head? items
  | null => rfl
  | bool _ => rfl
  | num _ => rfl
  | str _ => rfl

theorem itemsPatternName?_eq_head? : ∀ items : List Json,
    itemsPatternName? items = (itemsPatternNames items).head?
  | [] => rfl
  | x :: r => by
    rw [itemsPatternName?, itemsPatternNames, List.head?_append, patternName?_eq_head? x,
      itemsPatternName?_eq_head? r]

theorem membersPatternName?_eq_head? : ∀ ms : Members,
    membersPatternName? ms = (membersPatternNames ms).head?
  | [] => rfl
  | (_, v) :: r => by
    rw [membersPatternName?, membersPatternNames, List.head?_append, patternName?_eq_head? v,
      membersPatternName?_eq_head? r]

end

end Json

/-! ### Definitions in turn -/

section Turns

variable {design : Design} {v : Json} {vs : List Json} {name id : String} {e : Failure}

/-- The first pattern name of the definition comes to a failure. -/
def Design.Rejects (design : Design) (v : Json) (e : Failure) : Prop :=
  ∃ name, v.patternNames.head? = some name ∧ design.resolve name = .error e

/-- How the work ends at the definitions that are left: with none, or at the first of them, whose
failure is that of the whole. -/
inductive Design.Ends {α : Type} (design : Design) (a : α) : List Json → Except Failure α → Prop where
  | finished : Ends design a [] (.ok a)
  | rejected {v : Json} {later : List Json} {e : Failure} (rejects : design.Rejects v e) :
      Ends design a (v :: later) (.error e)

/-- A definition before and after its turn. It has the id that its first pattern name comes to, if it
has such a name and is an object. -/
inductive Json.Receives (design : Design) : Json → Json → Prop where
  | unnamed {v : Json} (none : v.patternNames = []) : Receives design v v
  | noObject {v : Json} {name id : String} (named : v.patternNames.head? = some name)
      (resolved : design.resolve name = .ok id) (shape : ∀ ms, v ≠ .obj ms) : Receives design v v
  | id {ms ms' : Members} {name id : String} (named : (Json.obj ms).patternNames.head? = some name)
      (resolved : design.resolve name = .ok id) (put : ms.IsPut "pattern_id" (.str id) ms') :
      Receives design (.obj ms) (.obj ms')

theorem Json.receives_withPatternId (h : v.patternName? = some name)
    (hid : design.resolve name = .ok id) : v.Receives design (v.withPatternId id) := by
  rw [Json.patternName?_eq_head?] at h
  cases v with
  | obj ms => exact .id h hid (Members.isPut_put ..)
  | _ => exact .noObject h hid nofun

theorem Json.Receives.not_rejects {v' : Json} (h : v.Receives design v') : ¬ design.Rejects v e := by
  rintro ⟨name, hname, hrejected⟩
  cases h with
  | unnamed hnone =>
    rw [hnone] at hname
    cases hname
  | noObject hnamed hresolved =>
    obtain rfl := Option.some.inj (hnamed.symm.trans hname)
    cases hresolved.symm.trans hrejected
  | id hnamed hresolved =>
    obtain rfl := Option.some.inj (hnamed.symm.trans hname)
    cases hresolved.symm.trans hrejected

/-- The definitions are those that had their turn and those that are left as they were. -/
theorem assignToDefinitions_effect (design : Design) (vs : List Json) :
    ∃ done done' rest : List Json, vs = done ++ rest ∧
      (assignToDefinitions design vs).1 = done' ++ rest ∧
      List.Forall₂ (Json.Receives design) done done' ∧
      design.Ends () rest (assignToDefinitions design vs).2 := by
  induction vs with
  | nil => exact ⟨[], [], [], rfl, rfl, .nil, .finished⟩
  | cons v vs ih =>
    obtain ⟨done, done', rest, hvs, hafter, hdone, hends⟩ := ih
    cases hname : v.patternName? with
    | none =>
      rw [assignToDefinitions_unnamed hname, hafter]
      rw [Json.patternName?_eq_head?, List.head?_eq_none_iff] at hname
      refine ⟨v :: done, v :: done', rest, ?_, rfl, .cons (.unnamed hname) hdone, hends⟩
      rw [hvs, List.cons_append]
    | some name =>
      cases hid : design.resolve name with
      | error e =>
        rw [assignToDefinitions_rejected hname hid]
        rw [Json.patternName?_eq_head?] at hname
        exact ⟨[], [], v :: vs, rfl, rfl, .nil, .rejected ⟨name, hname, hid⟩⟩
      | ok id =>
        rw [assignToDefinitions_named hname hid, hafter]
        refine ⟨v :: done, v.withPatternId id :: done', rest, ?_, rfl, ?_, hends⟩
        · rw [hvs, List.cons_append]
        · exact .cons (Json.receives_withPatternId hname hid) hdone

theorem Json.forall_not_rejects {done done' : List Json}
    (h : List.Forall₂ (Json.Receives design) done done') : ∀ v ∈ done, ∀ e, ¬ design.Rejects v e := by
  induction h with
  | nil => exact nofun
  | cons hv _ ih => exact List.forall_mem_cons.mpr ⟨fun _ => hv.not_rejects, ih⟩

/-- The work fails exactly if some definition is rejected. -/
theorem Design.Ends.error_iff {α : Type} {a : α} {done done' rest : List Json}
    {result : Except Failure α} (hends : design.Ends a rest result)
    (hdone : List.Forall₂ (Json.Receives design) done done') :
    (∃ e, result = .error e) ↔ ∃ v ∈ done ++ rest, ∃ e, design.Rejects v e := by
  cases hends with
  | finished =>
    rw [List.append_nil]
    constructor
    · rintro ⟨e, he⟩
      cases he
    · rintro ⟨v, hv, e, he⟩
      exact absurd he (Json.forall_not_rejects hdone v hv e)
  | @rejected v later e hrejects =>
    constructor
    · intro _
      exact ⟨v, List.mem_append_right _ List.mem_cons_self, e, hrejects⟩
    · intro _
      exact ⟨e, rfl⟩

end Turns

/-! ### Documents -/

section Documents

variable {design : Design} {models : List String} {document : Json} {ms : Members} {vs : List Json}

theorem usesPatternMapping_iff :
    usesPatternMapping models = true ↔ ∃ model ∈ models, model ∈ patternMappedModels := by
  unfold usesPatternMapping
  simp only [List.any_eq_true, decide_eq_true_eq]

theorem Design.Ends.map {α β : Type} {a : α} {rest : List Json} {result : Except Failure α}
    (h : design.Ends a rest result) (f : α → β) : design.Ends (f a) rest (result.map f) := by
  cases h with
  | finished => exact .finished
  | rejected hrejects => exact .rejected hrejects

/-- **What assigning pattern ids changes**, whether it succeeds or fails. Where no model maps definitions
to patterns, or the document has no list of definitions, nothing. Otherwise the definitions up to the
first whose pattern name comes to a failure have their ids, and the rest of them and of the document is
as it was; the work fails exactly if there is such a definition, and then with its failure. -/
theorem assignPatternIds_effect (design : Design) (models : List String) (document : Json) :
    ((∀ model ∈ models, model ∉ patternMappedModels) →
      assignPatternIds design models document = (document, .ok false)) ∧
    ((∃ model ∈ models, model ∈ patternMappedModels) →
      ((∀ items, document.member? "kpi_definitions" ≠ some (.arr items)) →
        assignPatternIds design models document = (document, .ok true)) ∧
      ∀ items, document.member? "kpi_definitions" = some (.arr items) →
        ∃ (before after : Members) (done done' rest : List Json) (result : Except Failure Bool),
          items = done ++ rest ∧ "kpi_definitions" ∉ Members.keys before ∧
          document = .obj (before ++ ("kpi_definitions", .arr (done ++ rest)) :: after) ∧
          assignPatternIds design models document =
            (.obj (before ++ ("kpi_definitions", .arr (done' ++ rest)) :: after), result) ∧
          List.Forall₂ (Json.Receives design) done done' ∧ design.Ends true rest result ∧
          ((∃ e, result = .error e) ↔ ∃ v ∈ items, ∃ e, design.Rejects v e)) := by
  constructor
  · intro hnone
    apply assignPatternIds_of_unmapped
    rw [← Bool.not_eq_true, usesPatternMapping_iff]
    rintro ⟨model, hmodel, hmapped⟩
    exact hnone model hmodel hmapped
  intro hmapped
  have huses : usesPatternMapping models = true := usesPatternMapping_iff.mpr hmapped
  refine ⟨assignPatternIds_of_unlisted huses, fun items hitems => ?_⟩
  cases document with
  | obj ms =>
    have hkey : "kpi_definitions" ∈ Members.keys ms :=
      List.mem_map_of_mem (f := Prod.fst) (Members.mem_of_get? hitems)
    obtain ⟨before, old, after, hfirst, rfl⟩ := Members.exists_append_cons hkey
    obtain rfl : old = .arr items :=
      Option.some.inj ((Members.get?_append_cons hfirst).symm.trans hitems)
    obtain ⟨done, done', rest, rfl, hafter, hdone, hends⟩ := assignToDefinitions_effect design items
    have hends' := hends.map fun _ => true
    refine ⟨before, after, done, done', rest, _, rfl, hfirst, rfl, ?_, hdone, hends',
      hends'.error_iff hdone⟩
    rw [assignPatternIds_of_listed huses hitems, hafter, Members.put_append_cons hfirst]
  | _ => cases hitems

/-- Settings with two definitions: one has its pattern name behind an old id, and the other one has its
pattern name in a condition and may have further members. -/
def twoPatterns (id : String) (further : Members) : Json :=
  .obj [("based_on", .str "overall"),
    ("kpi_definitions", .arr [
      .obj [("kpi_definition_name", .str "orders"), ("main_kpi", .bool true), ("pattern_id", .str id),
        ("pattern_name", .str "outer")],
      .obj ([("kpi_definition_name", .str "clicks"), ("main_kpi", .bool false),
        ("kpi_conditions", .arr [.obj [("condition_type", .str "url"),
          ("meta", .obj [("pattern_name", .str "inner")])]])] ++ further)])]

/-- A variation with a condition for each of the names. -/
def leavesNamed (names : List String) : Design where
  variations := [⟨1, 1, "Target", true⟩]
  conditions := names.zipIdx.map fun (name, i) => ⟨i, 1, name, none⟩

/-- The first of two definitions has its id when the second one's name is found to be unknown. -/
theorem assignPatternIds_effect_stopped :
    (∃ model ∈ ["MPB_MODEL"], model ∈ patternMappedModels) ∧
      (∃ items, (twoPatterns "stale" []).member? "kpi_definitions" = some (.arr items) ∧
        ∃ done done' rest, items = done ++ rest ∧
          List.Forall₂ (Json.Receives (leavesNamed ["outer"])) done done' ∧
          (leavesNamed ["outer"]).Ends true rest (.error (.unknownPattern "inner"))) ∧
      assignPatternIds (leavesNamed ["outer"]) ["MPB_MODEL"] (twoPatterns "stale" []) =
        (twoPatterns "target__1__0" [], .error (.unknownPattern "inner")) := by
  have hmodel : ∃ model ∈ ["MPB_MODEL"], model ∈ patternMappedModels :=
    ⟨"MPB_MODEL", by decide, by decide⟩
  have hstopped : assignPatternIds (leavesNamed ["outer"]) ["MPB_MODEL"] (twoPatterns "stale" []) =
      (twoPatterns "target__1__0" [], .error (.unknownPattern "inner")) := rfl
  obtain ⟨_, _, done, done', rest, result, hitems, -, -, hafter, hdone, hends, -⟩ :=
    ((assignPatternIds_effect _ _ (twoPatterns "stale" [])).2 hmodel).2 _ rfl
  obtain rfl : .error (.unknownPattern "inner") = result :=
    (Prod.mk.inj (hstopped.symm.trans hafter)).2
  exact ⟨hmodel, ⟨_, rfl, done, done', rest, hitems, hdone, hends⟩, hstopped⟩

end Documents

/-! ### Assigning again -/

section Again

variable {design : Design} {models : List String} {v value : Json} {vs vs' : List Json}
  {key name id : String} {ms : Members} {document document' : Json} {s : Settings} {assigned : Bool}

/-- What stands at `pattern_id` in the value holds no pattern name. -/
def Json.HasNamelessId (v : Json) : Prop :=
  ∀ old, v.member? "pattern_id" = some old → old.patternName? = none

/-- A value without pattern names in the place of another such value leaves the search as it was. -/
theorem Json.membersPatternName?_put (hvalue : value.patternName? = none)
    (hold : ∀ old, Members.get? ms key = some old → old.patternName? = none) :
    membersPatternName? (Members.put key value ms) = membersPatternName? ms := by
  induction ms with
  | nil =>
    show (value.patternName?).or (membersPatternName? []) = none
    rw [hvalue]
    rfl
  | cons m r ih =>
    obtain ⟨k, v⟩ := m
    by_cases hk : k = key
    · have hv : v.patternName? = none := by
        apply hold
        rw [hk, Members.get?_cons_self]
      rw [Members.put, if_pos hk, membersPatternName?, membersPatternName?, hvalue, hv]
    · have hr : membersPatternName? (Members.put key value r) = membersPatternName? r := by
        apply ih
        intro old hget
        apply hold
        rwa [Members.get?_cons_of_ne hk]
      rw [Members.put, if_neg hk, membersPatternName?, membersPatternName?, hr]

/-- With a pattern id a definition has the pattern name it had. -/
theorem Json.patternName?_withPatternId (h : v.HasNamelessId) (id : String) :
    (v.withPatternId id).patternName? = v.patternName? := by
  cases v with
  | obj ms =>
    have hparts : membersPatternName? (Members.put "pattern_id" (.str id) ms) =
        membersPatternName? ms := membersPatternName?_put rfl h
    unfold withPatternId patternName?
    rw [Members.get?_put_of_ne _ _ (by decide), hparts]
  | _ => rfl

theorem Json.withPatternId_withPatternId (old id : String) (v : Json) :
    (v.withPatternId old).withPatternId id = v.withPatternId id := by
  cases v with
  | obj ms => exact congrArg Json.obj (Members.put_put ..)
  | _ => rfl

/-- Definitions that have ids fail as those without them, and where they do not fail they receive the
same ids in the same places. -/
theorem AssignsAll.again (h : AssignsAll design vs vs') (other : Design)
    (hnameless : ∀ v ∈ vs, v.HasNamelessId) :
    (assignToDefinitions other vs').2 = (assignToDefinitions other vs).2 ∧
      ((assignToDefinitions other vs).2 = .ok () →
        assignToDefinitions other vs' = assignToDefinitions other vs) := by
  induction h with
  | nil => exact ⟨rfl, fun _ => rfl⟩
  | unnamed hname _ ih =>
    obtain ⟨-, hvs⟩ := List.forall_mem_cons.mp hnameless
    obtain ⟨hresult, hsame⟩ := ih hvs
    rw [assignToDefinitions_unnamed hname, assignToDefinitions_unnamed hname]
    exact ⟨hresult, fun hdone => by rw [hsame hdone]⟩
  | @named v vs vs' name id hname _ _ ih =>
    obtain ⟨hv, hvs⟩ := List.forall_mem_cons.mp hnameless
    obtain ⟨hresult, hsame⟩ := ih hvs
    -- with the id of the first time it has the same name, so it fails or not as without
    have hname' : (v.withPatternId id).patternName? = some name := by
      rw [Json.patternName?_withPatternId hv, hname]
    cases hid : other.resolve name with
    | error e =>
      rw [assignToDefinitions_rejected hname hid, assignToDefinitions_rejected hname' hid]
      exact ⟨rfl, nofun⟩
    | ok id' =>
      rw [assignToDefinitions_named hname hid, assignToDefinitions_named hname' hid,
        Json.withPatternId_withPatternId]
      exact ⟨hresult, fun hdone => by rw [hsame hdone]⟩

/-- A definition that can be read has a text or null for an id, if any. -/
theorem Definition.hasNamelessId_of_ofRaw? {limit : Nat} {d : Definition}
    (h : ofRaw? limit v.toRaw = some d) : v.HasNamelessId := by
  cases v with
  | obj ms =>
    simp only [ofRaw?, Option.bind_eq_bind, Option.bind_eq_some_iff] at h
    obtain ⟨ms', hms, -, -, -, -, -, -, -, -, patternId, hid, -⟩ := h
    cases hms
    intro old hold
    have hflat : old.nesting = 0 := nesting_of_optional_text? hid hold
    cases old with
    | arr => cases hflat
    | obj => cases hflat
    | _ => rfl
  | _ => exact nofun

theorem Settings.exists_definitions_of_validate (h : Settings.validate (.obj ms) = .ok s) :
    ∃ vs, Members.get? ms "kpi_definitions" = some (.arr vs) ∧ ∀ v ∈ vs, v.HasNamelessId := by
  obtain ⟨-, -, hread, -⟩ := validate_ok_iff.mp h
  obtain ⟨vs, hget, -, hds⟩ := exists_definitions hread
  refine ⟨vs, hget, fun v hv => ?_⟩
  clear hget
  generalize s.definitions = ds at hds
  rw [RawJson.mapM_map_toRaw_eq_some_iff] at hds
  induction hds with
  | nil => cases hv
  | cons hd _ ih =>
    rcases List.mem_cons.mp hv with rfl | hv
    · exact Definition.hasNamelessId_of_ofRaw? hd
    · exact ih hv

/-- **Pattern ids can be assigned again.** To accepted settings that have ids for a design the same ids
are assigned without a change; and for any other design the work comes to the same failure as on the
settings without ids, or to the same document. -/
theorem assignPatternIds_again (hvalid : Settings.validate document = .ok s)
    (h : assignPatternIds design models document = (document', .ok assigned)) :
    assignPatternIds design models document' = (document', .ok assigned) ∧
      ∀ other : Design,
        (assignPatternIds other models document').2 = (assignPatternIds other models document).2 ∧
        ∀ again, (assignPatternIds other models document).2 = .ok again →
          assignPatternIds other models document' = assignPatternIds other models document := by
  -- the first part is the second one with the same design, which is known not to fail
  suffices hother : ∀ other : Design,
      (assignPatternIds other models document').2 = (assignPatternIds other models document).2 ∧
      ∀ again, (assignPatternIds other models document).2 = .ok again →
        assignPatternIds other models document' = assignPatternIds other models document by
    refine ⟨?_, hother⟩
    rw [(hother design).2 assigned (by rw [h]), h]
  intro other
  by_cases hmodels : usesPatternMapping models = true
  · obtain ⟨ms, rfl⟩ := Settings.exists_obj_of_validate hvalid
    obtain ⟨vs, hget, hnameless⟩ := Settings.exists_definitions_of_validate hvalid
    obtain ⟨vs', hassign, rfl⟩ := exists_of_assignPatternIds_ok hmodels hget h
    obtain ⟨hresult, hsame⟩ := (assignsAll_of_ok hassign).again other hnameless
    have hagain : assignPatternIds other models
        (.obj (Members.put "kpi_definitions" (.arr vs') ms)) =
          (.obj (Members.put "kpi_definitions" (.arr (assignToDefinitions other vs').1) ms),
            (assignToDefinitions other vs').2.map fun _ => true) := by
      rw [assignPatternIds_of_listed hmodels (Members.get?_put_self ..), Members.put_put]
    rw [hagain]
    refine ⟨?_, fun again hok => ?_⟩
    · rw [assignPatternIds_of_listed hmodels hget, hresult]
    · obtain ⟨ws, hws, -⟩ := exists_of_assignPatternIds_ok hmodels hget (Prod.ext rfl hok)
      rw [assignPatternIds_of_listed hmodels hget, hsame (by rw [hws])]
  · rw [assignPatternIds_of_unmapped (by simpa using hmodels)] at h
    obtain rfl : document = document' := (Prod.mk.inj h).1
    exact ⟨rfl, fun _ _ => rfl⟩

/-- Ids of one design, and then those of another one. -/
theorem assignPatternIds_again_twoPatterns :
    (∃ s, Settings.validate (twoPatterns "stale" []) = .ok s) ∧
      assignPatternIds (leavesNamed ["outer", "inner"]) ["CMO_MODEL"] (twoPatterns "stale" []) =
        (twoPatterns "target__1__0" [("pattern_id", .str "target__1__1")], .ok true) ∧
      assignPatternIds (leavesNamed ["inner", "outer"]) ["CMO_MODEL"]
          (twoPatterns "target__1__0" [("pattern_id", .str "target__1__1")]) =
        (twoPatterns "target__1__1" [("pattern_id", .str "target__1__0")], .ok true) := by
  have hvalid : Settings.validate (twoPatterns "stale" []) =
      .ok ⟨.overall, [⟨"orders", true, none, some "outer", some "stale", [], []⟩,
        ⟨"clicks", false, none, none, none,
          [⟨.url, [], [("meta", .obj [("pattern_name", .str "inner")])]⟩], []⟩]⟩ :=
    Settings.validate_ok_iff.mpr ⟨rfl, rfl, rfl, by decide⟩
  have hfirst : assignPatternIds (leavesNamed ["outer", "inner"]) ["CMO_MODEL"]
      (twoPatterns "stale" []) =
        (twoPatterns "target__1__0" [("pattern_id", .str "target__1__1")], .ok true) := rfl
  have hsecond : assignPatternIds (leavesNamed ["inner", "outer"]) ["CMO_MODEL"]
      (twoPatterns "stale" []) =
        (twoPatterns "target__1__1" [("pattern_id", .str "target__1__0")], .ok true) := rfl
  refine ⟨⟨_, hvalid⟩, hfirst, ?_⟩
  rw [((assignPatternIds_again hvalid hfirst).2 (leavesNamed ["inner", "outer"])).2 true
    (by rw [hsecond]), hsecond]

end Again

end ExperimentKpi

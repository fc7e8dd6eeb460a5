/-
# Settings are written in plain form

Settings that are read from a value are read again from what they are written as
(`Settings.ofJson?_toJson`). A definition and a group are written as their members with a meaning,
followed by those that they were read with at other keys; no key with a meaning is among the latter, so
what is written spells the same definition or group (`Definition.SpelledBy.written`,
`ConditionGroup.SpelledBy.written`) and has no key twice.

What is written is the plain form of what was read, but for the order of members: an object with the
two parts and nothing else, names as texts, no null where a value may be missing, and a list where a
list may be missing. The plain form leaves the values at all other keys of definitions and groups
(`Members.get?_plainDefinition_of_not_mem`, `Members.get?_plainGroup_of_not_mem`).

Key definitions: `Members.alter`, `Json.Reordered`, `Members.plainGroup`, `Members.plainDefinition`,
`Json.plainSettings`.
Key theorems: `ConditionGroup.SpelledBy.plain`, `Definition.SpelledBy.plain`,
`Settings.SpelledBy.plain`, `Settings.ofJson?_toJson`, `Settings.ofText?_compact_toJson`.
-/
import ExperimentKpi.Proofs.Settings.Conditions

namespace ExperimentKpi

open scoped List

/-! ### Members at a key -/

namespace Members

variable {ms front : Members} {key : String} {keys : List String}

/-- The members with what is at a key changed: a value, or that there is none. -/
def alter (key : String) (f : Option Json → Option Json) (ms : Members) : Members :=
  match f (ms.get? key) with
  | some v => put key v ms
  | none => ms.without [key]

theorem not_mem_keys_without (h : key ∈ keys) : key ∉ (ms.without keys).keys := by
  intro hmem
  obtain ⟨m, hm, rfl⟩ := List.mem_map.mp hmem
  have hkept : m.1 ∉ keys := by simpa using (List.mem_filter.mp hm).2
  exact hkept h

theorem get?_alter (ms : Members) (key key' : String) (f : Option Json → Option Json) :
    (ms.alter key f).get? key' = if key' = key then f (ms.get? key) else ms.get? key' := by
  unfold alter
  split_ifs with hkey
  · subst hkey
    cases hf : f (ms.get? key') with
    | some v => exact get?_put_self key' v ms
    | none => exact get?_eq_none_of_not_mem (not_mem_keys_without List.mem_cons_self)
  · cases hf : f (ms.get? key) with
    | some v => exact get?_put_of_ne v ms hkey
    | none => exact get?_without (by simpa using hkey)

/-! Some members with keys from a list, then those of others at other keys. -/

theorem get?_append_without_of_mem (h : key ∈ keys) :
    get? (front ++ ms.without keys) key = front.get? key := by
  have hrest : (ms.without keys).get? key = none := get?_eq_none_of_not_mem (not_mem_keys_without h)
  rw [get?_append, hrest, Option.or_none]

theorem get?_append_without_of_not_mem (hfront : front.keys <+ keys) (h : key ∉ keys) :
    get? (front ++ ms.without keys) key = ms.get? key := by
  have hnone : front.get? key = none :=
    get?_eq_none_of_not_mem fun hmem => h (hfront.subset hmem)
  rw [get?_append, hnone, Option.none_or, get?_without h]

theorem without_append_without (hfront : front.keys <+ keys) :
    without (front ++ ms.without keys) keys = ms.without keys := by
  have hnil : front.without keys = [] := by
    refine List.filter_eq_nil_iff.mpr fun m hm => ?_
    have hmem : m.1 ∈ keys := hfront.subset (List.mem_map_of_mem hm)
    simpa using hmem
  have hrest : without (ms.without keys) keys = ms.without keys :=
    List.filter_eq_self.mpr fun m hm => (List.mem_filter.mp hm).2
  calc without (front ++ ms.without keys) keys
    _ = front.without keys ++ without (ms.without keys) keys := List.filter_append ..
    _ = ms.without keys := by rw [hnil, hrest, List.nil_append]

theorem nodup_keys_append_without (hfront : front.keys <+ keys) (hkeys : keys.Nodup)
    (hms : ms.keys.Nodup) : (Members.keys (front ++ ms.without keys)).Nodup := by
  have hrest : (ms.without keys).keys.Nodup := hms.sublist (List.filter_sublist.map _)
  rw [Members.keys, List.map_append]
  refine List.nodup_append'.mpr ⟨hkeys.sublist hfront, hrest, fun key hmem => ?_⟩
  exact not_mem_keys_without (hfront.subset hmem)

end Members

section WellFormed

variable {ms front : Members} {key : String} {keys : List String}

theorem wellFormed_append_without (hw : (Json.obj ms).WellFormed) (hfront : front.keys <+ keys)
    (hkeys : keys.Nodup) (hvalues : Json.MembersWellFormed front) :
    (Json.obj (front ++ ms.without keys)).WellFormed := by
  have hrest : Json.MembersWellFormed (ms.without keys) :=
    Json.membersWellFormed_iff.mpr fun m hm =>
      Json.membersWellFormed_iff.mp hw.2 m (List.mem_filter.mp hm).1
  exact ⟨Members.nodup_keys_append_without hfront hkeys hw.1,
    Json.membersWellFormed_append.mpr ⟨hvalues, hrest⟩⟩

theorem wellFormed_getD_arr (hw : (Json.obj ms).WellFormed) :
    ((Members.get? ms key).getD (.arr [])).WellFormed := by
  cases hget : Members.get? ms key with
  | none => trivial
  | some v => exact wellFormed_of_get? hw hget

end WellFormed

/-! ### Plain forms -/

/-- Two values are equal but for the order of members: an object is what it has at each key. -/
inductive Json.Reordered : Json → Json → Prop
  | refl (v : Json) : Reordered v v
  | arr {vs ws : List Json} : List.Forall₂ Reordered vs ws → Reordered (.arr vs) (.arr ws)
  | obj {ms ns : Members} :
    (∀ key, Option.Rel Reordered (ms.get? key) (ns.get? key)) → Reordered (.obj ms) (.obj ns)

theorem Json.Reordered.rel_refl (v : Option Json) : Option.Rel Json.Reordered v v := by
  cases v with
  | none => exact .none
  | some v => exact .some (.refl v)

/-! Lists of definitions or groups, where each is written by itself. -/

section Lists

variable {α : Type} {spelledBy : α → Members → Prop} {write : α → Json} {as : List α} {vs : List Json}

theorem forall₂_map_written
    (hwritten : ∀ a ms, spelledBy a ms → ∃ ns, write a = .obj ns ∧ spelledBy a ns)
    (h : List.Forall₂ (fun a v => ∃ ns, v = .obj ns ∧ spelledBy a ns) as vs) :
    List.Forall₂ (fun a v => ∃ ns, v = .obj ns ∧ spelledBy a ns) as (as.map write) := by
  induction h with
  | nil => exact .nil
  | cons hhead _ ih =>
    obtain ⟨ms, -, ha⟩ := hhead
    exact .cons (hwritten _ ms ha) ih

theorem wellFormed_map_written
    (hwritten : ∀ a ms, (Json.obj ms).WellFormed → spelledBy a ms → (write a).WellFormed)
    (h : List.Forall₂ (fun a v => ∃ ns, v = .obj ns ∧ spelledBy a ns) as vs)
    (hw : (Json.arr vs).WellFormed) : (Json.arr (as.map write)).WellFormed := by
  induction h with
  | nil => trivial
  | cons hhead _ ih =>
    obtain ⟨ms, rfl, ha⟩ := hhead
    obtain ⟨hms, hrest⟩ := hw
    exact ⟨hwritten _ ms hms ha, ih hrest⟩

theorem reordered_map_written {plain : Json → Json}
    (hplain : ∀ a ms, spelledBy a ms → (plain (.obj ms)).Reordered (write a))
    (h : List.Forall₂ (fun a v => ∃ ns, v = .obj ns ∧ spelledBy a ns) as vs) :
    (Json.arr (vs.map plain)).Reordered (.arr (as.map write)) := by
  refine .arr ?_
  induction h with
  | nil => exact .nil
  | cons hhead _ ih =>
    obtain ⟨ms, rfl, ha⟩ := hhead
    exact .cons (hplain _ ms ha) ih

end Lists

/-- The plain form of a name is its text. -/
def Json.plainName : Json → Json
  | .obj [(name, .null)] => .str name
  | v => v

theorem Json.SpellsName.plainName {v : Json} {name : String} (h : v.SpellsName name) :
    v.plainName = .str name := by
  rcases h with rfl | rfl <;> rfl

/-- A value that may be missing is missing where it is null. -/
def Json.present : Option Json → Option Json
  | some .null => none
  | v => v

/-- The items of an array, each in another form. -/
def Json.mapItems (f : Json → Json) : Json → Json
  | .arr vs => .arr (vs.map f)
  | v => v

namespace Members

/-- The plain form of the members of a group. -/
def plainGroup (ms : Members) : Members :=
  (ms.alter "condition_type" (·.map Json.plainName)).alter "conditions" fun v =>
    some (v.getD (.arr []))

end Members

/-- The plain form of a group. -/
def Json.plainGroup : Json → Json
  | .obj ms => .obj (Members.plainGroup ms)
  | v => v

namespace Members

/-- The plain form of the members of a definition. -/
def plainDefinition (ms : Members) : Members :=
  (((ms.alter "kpi_type" fun v => (Json.present v).map Json.plainName).alter
    "pattern_name" Json.present).alter "pattern_id" Json.present).alter "kpi_conditions" fun v =>
      some ((v.getD (.arr [])).mapItems Json.plainGroup)

end Members

/-- The plain form of a definition. -/
def Json.plainDefinition : Json → Json
  | .obj ms => .obj (Members.plainDefinition ms)
  | v => v

/-- The plain form of settings with a unit and definitions. -/
def Json.plainParts (basedOn definitions : Json) : Json :=
  .obj [("based_on", basedOn.plainName), ("kpi_definitions", definitions.mapItems plainDefinition)]

/-- The plain form of settings. -/
def Json.plainSettings : Json → Json
  | .arr [basedOn, definitions] => plainParts basedOn definitions
  | .obj ms =>
    match Members.get? ms "based_on", Members.get? ms "kpi_definitions" with
    | some basedOn, some definitions => plainParts basedOn definitions
    | _, _ => .obj ms
  | v => v

namespace Members

variable {ms : Members} {key : String}

/-- The values at other keys of a group stay. -/
theorem get?_plainGroup_of_not_mem (h : key ∉ ConditionGroup.knownKeys) :
    ms.plainGroup.get? key = ms.get? key := by
  have hne : ∀ k ∈ ConditionGroup.knownKeys, key ≠ k := fun k hk heq => h (heq ▸ hk)
  rw [plainGroup, get?_alter, if_neg (hne _ (by decide)), get?_alter, if_neg (hne _ (by decide))]

/-- The values at other keys of a definition stay. -/
theorem get?_plainDefinition_of_not_mem (h : key ∉ Definition.knownKeys) :
    ms.plainDefinition.get? key = ms.get? key := by
  have hne : ∀ k ∈ Definition.knownKeys, key ≠ k := fun k hk heq => h (heq ▸ hk)
  rw [plainDefinition, get?_alter, if_neg (hne _ (by decide)), get?_alter, if_neg (hne _ (by decide)),
    get?_alter, if_neg (hne _ (by decide)), get?_alter, if_neg (hne _ (by decide))]

theorem spellsOptional_of_get? {α : Type} {spells : Json → α → Prop} {a : Option α} {g : α → Json}
    (hget : ms.get? key = a.map g) (hspells : ∀ a, spells (g a) a) :
    ms.SpellsOptional key spells a := by
  cases a with
  | none => exact .inl hget
  | some a => exact ⟨g a, hget, hspells a⟩

theorem SpellsOptional.map_present {α : Type} {spells : Json → α → Prop} {a : Option α}
    {f : Json → Json} {g : α → Json} (h : ms.SpellsOptional key spells a)
    (hnull : ∀ a, ¬ spells .null a) (hspells : ∀ v a, spells v a → f v = g a) :
    (Json.present (ms.get? key)).map f = a.map g := by
  cases a with
  | none =>
    rcases h with h | h <;> rw [h] <;> rfl
  | some a =>
    obtain ⟨v, hget, hv⟩ := h
    have hpresent : Json.present (some v) = some v := by
      cases v with
      | null => exact absurd hv (hnull a)
      | _ => rfl
    rw [hget, hpresent, Option.map_some, Option.map_some, hspells v a hv]

end Members

/-! ### Groups -/

namespace ConditionGroup

variable {g : ConditionGroup} {ms : Members}

/-- The members of a group that have a meaning, as they are written. -/
def knownMembers (g : ConditionGroup) : Members :=
  [("condition_type", .str g.type.name), ("conditions", .arr g.conditions)]

theorem toJson_eq (g : ConditionGroup) : g.toJson = .obj (g.knownMembers ++ g.extra) := rfl

theorem keys_knownMembers (g : ConditionGroup) : g.knownMembers.keys <+ knownKeys := .refl _

/-- **What a group is written as spells it**, if any members do. -/
theorem SpelledBy.written (h : g.SpelledBy ms) : g.SpelledBy (g.knownMembers ++ g.extra) := by
  rw [h.extra]
  refine ⟨⟨.str g.type.name, rfl, .inl rfl⟩, ?_, ?_⟩
  · rw [Members.get?_append_without_of_mem (by decide)]
    rfl
  · rw [Members.without_append_without g.keys_knownMembers, h.extra]

theorem SpelledBy.wellFormed_toJson (h : g.SpelledBy ms) (hw : (Json.obj ms).WellFormed) :
    g.toJson.WellFormed := by
  have hconditions : (Json.arr g.conditions).WellFormed := h.conditions ▸ wellFormed_getD_arr hw
  rw [toJson_eq, h.extra]
  exact wellFormed_append_without hw g.keys_knownMembers (by decide) ⟨trivial, hconditions, trivial⟩

/-- **A group is written in plain form.** -/
theorem SpelledBy.plain (h : g.SpelledBy ms) : (Json.obj ms).plainGroup.Reordered g.toJson := by
  rw [toJson_eq, h.extra]
  refine .obj fun key => ?_
  by_cases hknown : key ∈ knownKeys
  · rw [Members.get?_append_without_of_mem hknown]
    obtain ⟨v, hget, hname⟩ := h.type
    have htype : Members.get? ms.plainGroup "condition_type" = some (.str g.type.name) := by
      rw [Members.plainGroup, Members.get?_alter, if_neg (by decide), Members.get?_alter, if_pos rfl,
        hget, Option.map_some, hname.plainName]
    have hconditions : Members.get? ms.plainGroup "conditions" = some (.arr g.conditions) := by
      rw [Members.plainGroup, Members.get?_alter, if_pos rfl, Members.get?_alter,
        if_neg (by decide), h.conditions]
    rcases List.mem_pair.mp hknown with rfl | rfl
    · rw [htype]
      exact .some (.refl _)
    · rw [hconditions]
      exact .some (.refl _)
  · rw [Members.get?_append_without_of_not_mem g.keys_knownMembers hknown,
      Members.get?_plainGroup_of_not_mem hknown]
    exact Json.Reordered.rel_refl _

end ConditionGroup

/-! ### Definitions -/

section OptionalMembers

theorem get?_optionalMember (key key' : String) (text : Option String) :
    Members.get? (optionalMember key text) key' = if key' = key then text.map Json.str else none := by
  cases text with
  | none => simp [optionalMember, Members.get?_nil]
  | some text => simp [optionalMember, Members.get?_cons, Members.get?_nil, eq_comm]

theorem wellFormed_optionalMember (key : String) (text : Option String) :
    Json.MembersWellFormed (optionalMember key text) := by
  cases text with
  | none => trivial
  | some text => exact ⟨trivial, trivial⟩

theorem keys_optionalMember (key : String) (text : Option String) :
    Members.keys (optionalMember key text) <+ [key] := by
  cases text with
  | none => exact List.nil_sublist _
  | some text => exact .refl _

end OptionalMembers

namespace Definition

variable {d : Definition} {ms : Members}

/-- The members of a definition that have a meaning, as they are written. -/
def knownMembers (d : Definition) : Members :=
  [("kpi_definition_name", .str d.name), ("main_kpi", .bool d.isMain)]
    ++ optionalMember "kpi_type" (d.type.map KpiType.name)
    ++ optionalMember "pattern_name" d.patternName
    ++ optionalMember "pattern_id" d.patternId
    ++ [("kpi_conditions", .arr (d.conditions.map ConditionGroup.toJson))]

theorem toJson_eq (d : Definition) : d.toJson = .obj (d.knownMembers ++ d.extra) := rfl

theorem keys_knownMembers (d : Definition) : d.knownMembers.keys <+ knownKeys := by
  simp only [knownMembers, Members.keys, List.map_append]
  exact ((((List.Sublist.refl _).append (keys_optionalMember _ _)).append
    (keys_optionalMember _ _)).append (keys_optionalMember _ _)).append (.refl _)

/-- What a definition is written with at each key with a meaning. -/
def writtenAt (d : Definition) : String → Option Json
  | "kpi_definition_name" => some (.str d.name)
  | "main_kpi" => some (.bool d.isMain)
  | "kpi_type" => d.type.map fun t => .str t.name
  | "pattern_name" => d.patternName.map .str
  | "pattern_id" => d.patternId.map .str
  | "kpi_conditions" => some (.arr (d.conditions.map ConditionGroup.toJson))
  | _ => none

theorem get?_knownMembers (d : Definition) {key : String} (h : key ∈ knownKeys) :
    d.knownMembers.get? key = d.writtenAt key := by
  simp only [knownKeys, List.mem_cons, List.not_mem_nil, or_false] at h
  rcases h with rfl | rfl | rfl | rfl | rfl | rfl <;>
    simp [knownMembers, writtenAt, Members.get?_append, Members.get?_cons, Members.get?_nil,
      get?_optionalMember, Function.comp_def]

/-- **What a definition is written as spells it**, if any members do. -/
theorem SpelledBy.written (h : d.SpelledBy ms) : d.SpelledBy (d.knownMembers ++ d.extra) := by
  have hget : ∀ key ∈ knownKeys,
      Members.get? (d.knownMembers ++ d.extra) key = d.writtenAt key := by
    intro key hkey
    rw [h.extra, Members.get?_append_without_of_mem hkey, get?_knownMembers d hkey]
  obtain ⟨vs, -, hgroups⟩ := h.conditions
  refine ⟨hget _ (by decide), hget _ (by decide), ?_, ?_, ?_, ?_, ?_⟩
  · exact Members.spellsOptional_of_get? (hget _ (by decide)) fun _ => .inl rfl
  · exact Members.spellsOptional_of_get? (hget _ (by decide)) fun _ => rfl
  · exact Members.spellsOptional_of_get? (hget _ (by decide)) fun _ => rfl
  · refine ⟨d.conditions.map ConditionGroup.toJson, ?_, ?_⟩
    · rw [hget _ (by decide)]
      rfl
    · exact forall₂_map_written (fun g _ hg => ⟨_, g.toJson_eq, hg.written⟩) hgroups
  · rw [h.extra, Members.without_append_without d.keys_knownMembers]

theorem SpelledBy.wellFormed_toJson (h : d.SpelledBy ms) (hw : (Json.obj ms).WellFormed) :
    d.toJson.WellFormed := by
  obtain ⟨vs, hvs, hgroups⟩ := h.conditions
  have hconditions : (Json.arr (d.conditions.map ConditionGroup.toJson)).WellFormed :=
    wellFormed_map_written (fun _ _ hms hg => hg.wellFormed_toJson hms) hgroups
      (hvs ▸ wellFormed_getD_arr hw)
  have hvalues : Json.MembersWellFormed d.knownMembers := by
    simp only [knownMembers, Json.membersWellFormed_append]
    exact ⟨⟨⟨⟨⟨trivial, trivial, trivial⟩, wellFormed_optionalMember _ _⟩,
      wellFormed_optionalMember _ _⟩, wellFormed_optionalMember _ _⟩, hconditions, trivial⟩
  rw [toJson_eq, h.extra]
  exact wellFormed_append_without hw d.keys_knownMembers (by decide) hvalues

/-- At all keys with a meaning but the one of its groups, the plain form has what a definition is
written with. -/
theorem SpelledBy.get?_plainDefinition (h : d.SpelledBy ms) {key : String} (hknown : key ∈ knownKeys)
    (hkey : key ≠ "kpi_conditions") : Members.get? ms.plainDefinition key = d.writtenAt key := by
  have htype : (Json.present (ms.get? "kpi_type")).map Json.plainName = d.writtenAt "kpi_type" :=
    h.type.map_present (fun t ht => by rcases ht with ht | ht <;> cases ht) fun _ _ ht => ht.plainName
  have htext : ∀ {key text}, ms.SpellsOptional key (fun v t => v = .str t) text →
      Json.present (ms.get? key) = text.map .str := by
    intro key text htext
    rw [← htext.map_present (f := id) nofun fun _ _ ht => ht, Option.map_id, id]
  simp only [knownKeys, List.mem_cons, List.not_mem_nil, or_false] at hknown
  rcases hknown with rfl | rfl | rfl | rfl | rfl | rfl <;>
    simp [Members.plainDefinition, Members.get?_alter, writtenAt, h.name, h.isMain, htype,
      htext h.patternName, htext h.patternId] at hkey ⊢

/-- **A definition is written in plain form.** -/
theorem SpelledBy.plain (h : d.SpelledBy ms) : (Json.obj ms).plainDefinition.Reordered d.toJson := by
  have hconditions : Option.Rel Json.Reordered (Members.get? ms.plainDefinition "kpi_conditions")
      (d.writtenAt "kpi_conditions") := by
    obtain ⟨vs, hvs, hgroups⟩ := h.conditions
    rw [Members.plainDefinition, Members.get?_alter, if_pos rfl]
    simp only [Members.get?_alter, String.reduceEq, if_false, hvs]
    exact .some (reordered_map_written (fun _ _ hg => hg.plain) hgroups)
  rw [toJson_eq, h.extra]
  refine .obj fun key => ?_
  by_cases hknown : key ∈ knownKeys
  · rw [Members.get?_append_without_of_mem hknown, get?_knownMembers d hknown]
    by_cases hkey : key = "kpi_conditions"
    · rw [hkey]
      exact hconditions
    · rw [h.get?_plainDefinition hknown hkey]
      exact Json.Reordered.rel_refl _
  · rw [Members.get?_append_without_of_not_mem d.keys_knownMembers hknown,
      Members.get?_plainDefinition_of_not_mem hknown]
    exact Json.Reordered.rel_refl _

end Definition

/-! ### Settings -/

namespace Settings

variable {s : Settings} {v basedOn definitions : Json}

/-- What settings are written as spells them, if anything does. -/
theorem PartsSpelledBy.written (h : s.PartsSpelledBy basedOn definitions) : s.SpelledBy s.toJson := by
  obtain ⟨vs, -, hds⟩ := h.definitions
  refine .obj rfl rfl ⟨.inl rfl, s.definitions.map Definition.toJson, rfl, ?_⟩
  exact forall₂_map_written (fun d _ hd => ⟨_, d.toJson_eq, hd.written⟩) hds

theorem PartsSpelledBy.wellFormed_toJson (h : s.PartsSpelledBy basedOn definitions)
    (hw : definitions.WellFormed) : s.toJson.WellFormed := by
  obtain ⟨vs, rfl, hds⟩ := h.definitions
  have hkeys : ["based_on", "kpi_definitions"].Nodup := by decide
  have hdefinitions : (Json.arr (s.definitions.map Definition.toJson)).WellFormed :=
    wellFormed_map_written (fun _ _ hms hd => hd.wellFormed_toJson hms) hds hw
  exact ⟨hkeys, trivial, hdefinitions, trivial⟩

theorem PartsSpelledBy.plain (h : s.PartsSpelledBy basedOn definitions) :
    (Json.plainParts basedOn definitions).Reordered s.toJson := by
  obtain ⟨vs, rfl, hds⟩ := h.definitions
  have hdefinitions : (Json.arr (vs.map Json.plainDefinition)).Reordered
      (.arr (s.definitions.map Definition.toJson)) :=
    reordered_map_written (fun _ _ hd => hd.plain) hds
  rw [Json.plainParts, h.basedOn.plainName]
  refine .obj fun key => ?_
  simp only [Members.get?_cons]
  split_ifs
  · exact .some (.refl _)
  · exact .some hdefinitions
  · exact .none

theorem SpelledBy.exists_parts (h : s.SpelledBy v) (hw : v.WellFormed) :
    ∃ basedOn definitions, s.PartsSpelledBy basedOn definitions ∧ definitions.WellFormed ∧
      v.plainSettings = Json.plainParts basedOn definitions := by
  cases h with
  | obj hbasedOn hdefinitions hparts =>
    refine ⟨_, _, hparts, wellFormed_of_get? hw hdefinitions, ?_⟩
    simp only [Json.plainSettings, hbasedOn, hdefinitions]
  | arr hparts => exact ⟨_, _, hparts, hw.2.1, rfl⟩

theorem SpelledBy.written (h : s.SpelledBy v) (hw : v.WellFormed) :
    s.toJson.WellFormed ∧ s.SpelledBy s.toJson := by
  obtain ⟨basedOn, definitions, hparts, hdefinitions, -⟩ := h.exists_parts hw
  exact ⟨hparts.wellFormed_toJson hdefinitions, hparts.written⟩

/-- **Settings are written in plain form.** -/
theorem SpelledBy.plain (h : s.SpelledBy v) (hw : v.WellFormed) :
    v.plainSettings.Reordered s.toJson := by
  obtain ⟨basedOn, definitions, hparts, -, hplain⟩ := h.exists_parts hw
  rw [hplain]
  exact hparts.plain

/-- **Settings that are read are read again from what they are written as**, so they are written in the
same way ever after. That is the plain form of the value that they were read from, with the members of
objects in some order: the ignored members of the top level are left out, and so are nulls where a value
may be missing; names are texts, and missing lists are empty ones; all else is as it was. -/
theorem ofJson?_toJson (v : Json) (s : Settings) (hw : v.WellFormed) (h : ofJson? v = some s) :
    ofJson? s.toJson = some s ∧ (ofJson? s.toJson).map toJson = some s.toJson ∧
      s.toJson.WellFormed ∧ v.plainSettings.Reordered s.toJson := by
  have hspelled : s.SpelledBy v := (ofJson?_iff hw).mp h
  obtain ⟨hwell, hwritten⟩ := hspelled.written hw
  have hread : ofJson? s.toJson = some s := (ofJson?_iff hwell).mpr hwritten
  refine ⟨hread, ?_, hwell, hspelled.plain hw⟩
  rw [hread, Option.map_some]

/-- Settings in no plain form: an ignored member, names as objects, nulls and missing lists. -/
def looseSettings : Json :=
  .obj [("comment", .str "none"), ("kpi_definitions", .arr [
    .obj [("label", .obj [("kpi_type", .null)]), ("main_kpi", .bool true),
      ("kpi_type", .obj [("click", .null)]), ("kpi_definition_name", .str "clicks"),
      ("pattern_id", .null),
      ("kpi_conditions", .arr [.obj [("op", .str "any"), ("condition_type", .obj [("url", .null)])]])],
    .obj [("kpi_definition_name", .str "orders"), ("main_kpi", .bool false)]]),
    ("based_on", .obj [("easy_id", .null)])]

/-- What `looseSettings` reads as. -/
def looseReading : Settings :=
  ⟨.easyId, [
    ⟨"clicks", true, some .click, none, none, [⟨.url, [], [("op", .str "any")]⟩],
      [("label", .obj [("kpi_type", .null)])]⟩,
    ⟨"orders", false, none, none, none, [], []⟩]⟩

theorem ofJson?_toJson_loose :
    looseSettings.WellFormed ∧ ofJson? looseSettings = some looseReading ∧
      ofJson? looseReading.toJson = some looseReading ∧
      looseSettings.plainSettings.Reordered looseReading.toJson := by
  have hw : looseSettings.WellFormed := by
    simp [looseSettings, Json.WellFormed, Json.MembersWellFormed, Json.ItemsWellFormed]
  have hread : ofJson? looseSettings = some looseReading := rfl
  obtain ⟨hagain, -, -, hplain⟩ := ofJson?_toJson looseSettings looseReading hw hread
  exact ⟨hw, hread, hagain, hplain⟩

/-- The text of settings that were read reads as them, where their numbers are read back from it. -/
theorem ofText?_compact_toJson (hw : v.WellFormed) (h : ofJson? v = some s)
    (hnest : s.toJson.nesting ≤ Json.nestingLimit) (hnum : ∀ n ∈ s.toJson.numbers, n.ReadsBack) :
    ofText? s.toJson.compact = some s := by
  obtain ⟨hwell, hwritten⟩ := ((ofJson?_iff hw).mp h).written hw
  have hread : ofRaw? s.toJson.nesting s.toJson.toRaw = some s := (ofJson?_iff hwell).mpr hwritten
  rw [ofText?, RawJson.parse?_compact hnum, Option.bind_some]
  exact ofRaw?_mono hnest hread

end Settings

end ExperimentKpi

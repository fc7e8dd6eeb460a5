/-
# What settings are read from

A well-formed value is read as settings exactly if it spells them (`Settings.ofJson?_iff`): the members
with a meaning spell the fields, a member that may be missing may also be null, and what is kept of a
definition or a condition group is its other members.

Key definitions: `Json.SpellsName`, `Members.SpellsOptional`, `ConditionGroup.SpelledBy`,
`Definition.SpelledBy`, `Settings.SpelledBy`.
Key theorems: `ConditionGroup.ofRaw?_iff`, `Definition.ofRaw?_iff`, `Settings.ofJson?_iff`.
-/
import ExperimentKpi.Proofs.Json.RoundTrip
import ExperimentKpi.Proofs.Settings.PatternId

namespace ExperimentKpi

/-! ### Spellings -/

/-- The two ways to write a name of a fixed list. -/
def Json.SpellsName (v : Json) (name : String) : Prop :=
  v = .str name ∨ v = .obj [(name, .null)]

namespace Members

/-- The members at other keys than the given ones. -/
def without (ms : Members) (keys : List String) : Members :=
  ms.filter fun m => !keys.contains m.1

/-- The member at a key spells a value, or it is missing or null where there is no value. -/
def SpellsOptional {α : Type} (ms : Members) (key : String) (spells : Json → α → Prop) :
    Option α → Prop
  | none => ms.get? key = none ∨ ms.get? key = some .null
  | some a => ∃ v, ms.get? key = some v ∧ spells v a

end Members

/-- The members that spell a group of conditions. -/
structure ConditionGroup.SpelledBy (g : ConditionGroup) (ms : Members) : Prop where
  type : ∃ v, ms.get? "condition_type" = some v ∧ v.SpellsName g.type.name
  conditions : (ms.get? "conditions").getD (.arr []) = .arr g.conditions
  extra : g.extra = ms.without knownKeys

/-- The members that spell a definition. -/
structure Definition.SpelledBy (d : Definition) (ms : Members) : Prop where
  name : ms.get? "kpi_definition_name" = some (.str d.name)
  isMain : ms.get? "main_kpi" = some (.bool d.isMain)
  type : ms.SpellsOptional "kpi_type" (fun v t => v.SpellsName t.name) d.type
  patternName : ms.SpellsOptional "pattern_name" (fun v t => v = .str t) d.patternName
  patternId : ms.SpellsOptional "pattern_id" (fun v t => v = .str t) d.patternId
  conditions : ∃ vs, (ms.get? "kpi_conditions").getD (.arr []) = .arr vs ∧
    List.Forall₂ (fun g v => ∃ ns, v = .obj ns ∧ ConditionGroup.SpelledBy g ns) d.conditions vs
  extra : d.extra = ms.without knownKeys

/-- The values that spell a unit and definitions. -/
structure Settings.PartsSpelledBy (s : Settings) (basedOn definitions : Json) : Prop where
  basedOn : basedOn.SpellsName s.basedOn.name
  definitions : ∃ vs, definitions = .arr vs ∧
    List.Forall₂ (fun d v => ∃ ns, v = .obj ns ∧ Definition.SpelledBy d ns) s.definitions vs

/-- The values that spell settings: an object, or an array of the two parts. -/
inductive Settings.SpelledBy (s : Settings) : Json → Prop
  | obj {ms : Members} {basedOn definitions : Json} :
    ms.get? "based_on" = some basedOn → ms.get? "kpi_definitions" = some definitions →
      s.PartsSpelledBy basedOn definitions → s.SpelledBy (.obj ms)
  | arr {basedOn definitions : Json} :
    s.PartsSpelledBy basedOn definitions → s.SpelledBy (.arr [basedOn, definitions])

/-! ### Names -/

theorem BasedOn.names_fst : ∀ m ∈ BasedOn.names, m.1 = m.2.name := by decide

theorem BasedOn.lookup_name (b : BasedOn) : BasedOn.names.lookup b.name = some b := by
  cases b <;> rfl

theorem KpiType.names_fst : ∀ m ∈ KpiType.names, m.1 = m.2.name := by decide

theorem KpiType.lookup_name (t : KpiType) : KpiType.names.lookup t.name = some t := by
  cases t <;> rfl

theorem ConditionType.names_fst : ∀ m ∈ ConditionType.names, m.1 = m.2.name := by decide

theorem ConditionType.lookup_name (t : ConditionType) : ConditionType.names.lookup t.name = some t := by
  cases t <;> rfl

/-! ### Members of well-formed objects -/

namespace RawMembers

open Json (membersToRaw)

variable {key : String} {ms : Members}

/-- A well-formed object has at most one value at a key. -/
theorem valuesAt_membersToRaw (hkeys : (ms.map Prod.fst).Nodup) :
    valuesAt (membersToRaw ms) key = (ms.get? key).toList.map Json.toRaw := by
  induction ms with
  | nil => rfl
  | cons m r ih =>
    obtain ⟨k, v⟩ := m
    obtain ⟨hk, hr⟩ := List.nodup_cons.mp hkeys
    by_cases hkey : k = key
    · subst hkey
      have hrest : Members.get? r k = none := Members.get?_eq_none_of_not_mem hk
      have hnil : valuesAt (membersToRaw r) k = [] := valuesAt_eq_nil hrest
      rw [membersToRaw, valuesAt, List.filter_cons_of_pos (by simp), List.map_cons, ← valuesAt, hnil]
      simp [Members.get?]
    · have hne : (key == k) = false := by simpa using fun h => hkey h.symm
      have hskip : valuesAt (membersToRaw ((k, v) :: r)) key = valuesAt (membersToRaw r) key := by
        rw [membersToRaw, valuesAt, List.filter_cons_of_neg (by simpa using hkey), valuesAt]
      rw [hskip, ih hr, Members.get?, Members.get?, List.lookup_cons, hne]

variable {α : Type} {read : RawJson → Option α} {a : α}

theorem required?_eq_some_iff (hkeys : (ms.map Prod.fst).Nodup) :
    required? (membersToRaw ms) key read = some a ↔
      ∃ v, ms.get? key = some v ∧ read v.toRaw = some a := by
  rw [required?, valuesAt_membersToRaw hkeys]
  cases ms.get? key <;> simp

theorem withDefault?_eq_some_iff {absent : α} (hkeys : (ms.map Prod.fst).Nodup) :
    withDefault? (membersToRaw ms) key absent read = some a ↔
      ms.get? key = none ∧ absent = a ∨ ∃ v, ms.get? key = some v ∧ read v.toRaw = some a := by
  rw [withDefault?, valuesAt_membersToRaw hkeys]
  cases ms.get? key <;> simp

theorem optional?_eq_some_iff {a : Option α} {spells : Json → α → Prop}
    (hkeys : (ms.map Prod.fst).Nodup)
    (hread : ∀ v a, ms.get? key = some v → (read v.toRaw = some a ↔ spells v a))
    (hnull : ∀ a, ¬ spells .null a) :
    optional? (membersToRaw ms) key read = some a ↔ ms.SpellsOptional key spells a := by
  rw [optional?, withDefault?_eq_some_iff hkeys]
  cases hget : ms.get? key with
  | none => cases a <;> simp [Members.SpellsOptional, hget]
  | some v =>
    cases v with
    | null => cases a <;> simp [Members.SpellsOptional, hget, hnull, Json.toRaw]
    | _ => cases a <;> simp [Members.SpellsOptional, hget, ← hread _ _ hget, Json.toRaw]

theorem filter_membersToRaw (known : List String) :
    (membersToRaw ms).filter (fun m => !(m.1.any (known.contains ·))) =
      membersToRaw (ms.without known) := by
  induction ms with
  | nil => rfl
  | cons m r ih =>
    obtain ⟨k, v⟩ := m
    have hwithout : Members.without ((k, v) :: r) known =
        if k ∈ known then Members.without r known else (k, v) :: Members.without r known := by
      by_cases hk : k ∈ known <;> simp [Members.without, hk]
    rw [membersToRaw, List.filter_cons, ih, hwithout]
    by_cases hk : k ∈ known <;> simp [hk, membersToRaw]

/-- The members at other keys of a well-formed object are kept as they are. -/
theorem others?_membersToRaw {known : List String} {limit : Nat} (hw : (Json.obj ms).WellFormed)
    (hnest : Json.membersNesting ms ≤ limit) :
    others? (membersToRaw ms) known limit = some (ms.without known) := by
  have hkept : ∀ m ∈ ms.without known, m ∈ ms := fun m hm => (List.mem_filter.mp hm).1
  have hwkept : Json.MembersWellFormed (ms.without known) :=
    Json.membersWellFormed_iff.mpr fun m hm => Json.membersWellFormed_iff.mp hw.2 m (hkept m hm)
  have hnkept : Json.membersNesting (ms.without known) ≤ limit :=
    Json.membersNesting_le_iff.mpr fun m hm => Json.membersNesting_le_iff.mp hnest m (hkept m hm)
  have hkeys : ((ms.without known).map Prod.fst).Nodup :=
    hw.1.sublist (List.Sublist.map _ List.filter_sublist)
  rw [others?, filter_membersToRaw, RawJson.membersToJson?_membersToRaw hwkept hnkept,
    Option.map_some, Members.ofEntries_of_nodup hkeys]

end RawMembers

/-! ### Parts of trees -/

namespace RawJson

variable {v : Json}

theorem text?_toRaw_eq_some_iff {t : String} : text? v.toRaw = some t ↔ v = .str t := by
  cases v <;> simp [Json.toRaw, text?]

theorem bool?_toRaw_eq_some_iff {b : Bool} : bool? v.toRaw = some b ↔ v = .bool b := by
  cases v <;> simp [Json.toRaw, bool?]

theorem items?_toRaw_eq_some_iff {xs : List RawJson} :
    items? v.toRaw = some xs ↔ ∃ vs, v = .arr vs ∧ xs = vs.map Json.toRaw := by
  cases v <;> simp [Json.toRaw, items?, itemsToRaw_eq_map, eq_comm]

theorem name?_toRaw_eq_some_iff {name : String} : name? v.toRaw = some name ↔ v.SpellsName name := by
  unfold Json.SpellsName
  match v with
  | .null | .bool _ | .num _ | .arr _ => simp [Json.toRaw, name?]
  | .str s => simp [Json.toRaw, name?]
  | .obj [] => simp [Json.toRaw, Json.membersToRaw, name?]
  | .obj (_ :: _ :: _) => simp [Json.toRaw, Json.membersToRaw, name?]
  | .obj [(k, w)] =>
    cases w <;> simp [Json.toRaw, Json.membersToRaw, name?]

theorem named?_toRaw_eq_some_iff {α : Type} {names : List (String × α)} {name : α → String} {a : α}
    (hnames : ∀ m ∈ names, m.1 = name m.2) (hall : ∀ a, names.lookup (name a) = some a) :
    named? names v.toRaw = some a ↔ v.SpellsName (name a) := by
  have hlookup : ∀ n, names.lookup n = some a ↔ n = name a := by
    intro n
    constructor
    · intro h
      obtain ⟨before, after, rfl, -⟩ := List.lookup_eq_some_iff.mp h
      exact hnames _ (List.mem_append_right _ List.mem_cons_self)
    · rintro rfl
      exact hall a
  rw [named?, Option.bind_eq_some_iff]
  simp only [name?_toRaw_eq_some_iff, hlookup, exists_eq_right]

theorem mapM_map_toRaw_eq_some_iff {β : Type} {f : RawJson → Option β} :
    ∀ {vs : List Json} {bs : List β},
      (vs.map Json.toRaw).mapM f = some bs ↔ List.Forall₂ (fun b v => f v.toRaw = some b) bs vs
  | [], bs => by simp [eq_comm]
  | v :: vs, bs => by
    rw [List.map_cons, List.mapM_cons]
    simp only [Option.bind_eq_bind, Option.pure_def, Option.bind_eq_some_iff,
      mapM_map_toRaw_eq_some_iff, Option.some.injEq]
    constructor
    · rintro ⟨b, hb, bs, hbs, rfl⟩
      exact .cons hb hbs
    · intro h
      cases h with
      | cons hb hbs => exact ⟨_, hb, _, hbs, rfl⟩

end RawJson

/-! ### Groups, definitions and settings -/

section Readers

variable {ms : Members} {limit : Nat}

/-- What a member of a well-formed object is. -/
theorem wellFormed_of_get? {key : String} {v : Json} (hw : (Json.obj ms).WellFormed)
    (hget : Members.get? ms key = some v) : v.WellFormed :=
  Json.membersWellFormed_iff.mp hw.2 _ (Members.mem_of_get? hget)

theorem nesting_le_of_get? {key : String} {v : Json} (hnest : Json.membersNesting ms ≤ limit)
    (hget : Members.get? ms key = some v) : v.nesting ≤ limit :=
  Json.membersNesting_le_iff.mp hnest _ (Members.mem_of_get? hget)

theorem forall₂_imp_of_mem {α : Type} {R S : α → Json → Prop} {as : List α} {vs : List Json}
    (himp : ∀ v ∈ vs, ∀ a, R a v → S a v) (h : List.Forall₂ R as vs) : List.Forall₂ S as vs := by
  induction h with
  | nil => exact .nil
  | cons hhead _ ih =>
    refine .cons (himp _ List.mem_cons_self _ hhead) (ih ?_)
    exact fun v hv => himp v (List.mem_cons_of_mem _ hv)

theorem item_of_arr {vs : List Json} {w : Json} (hw : (Json.arr vs).WellFormed)
    (hnest : (Json.arr vs).nesting ≤ limit) (hmem : w ∈ vs) : w.WellFormed ∧ w.nesting < limit :=
  ⟨Json.itemsWellFormed_iff.mp hw w hmem,
    Nat.lt_of_le_of_lt (Json.itemsNesting_le_iff.mp (Nat.le_refl _) w hmem) hnest⟩

theorem item_of_get? {key : String} {vs : List Json} {w : Json} (hw : (Json.obj ms).WellFormed)
    (hnest : Json.membersNesting ms ≤ limit) (hget : Members.get? ms key = some (.arr vs))
    (hmem : w ∈ vs) : w.WellFormed ∧ w.nesting < limit :=
  item_of_arr (wellFormed_of_get? hw hget) (nesting_le_of_get? hnest hget) hmem

/-- A list that may be missing. -/
theorem getD_arr_eq_iff {key : String} {vs : List Json} :
    (Members.get? ms key).getD (.arr []) = .arr vs ↔
      Members.get? ms key = none ∧ [] = vs ∨ Members.get? ms key = some (.arr vs) := by
  cases Members.get? ms key <;> simp

/-- A list whose items are kept as they are. -/
theorem itemsToJson?_bind_items?_iff {v : Json} {xs : List Json} (hw : v.WellFormed)
    (hnest : v.nesting ≤ limit) :
    v.toRaw.items?.bind (RawJson.itemsToJson? (limit - 1)) = some xs ↔ v = .arr xs := by
  rw [Option.bind_eq_some_iff]
  simp only [RawJson.items?_toRaw_eq_some_iff]
  constructor
  · rintro ⟨_, ⟨vs, rfl, rfl⟩, h⟩
    have hvs : Json.itemsNesting vs ≤ limit - 1 := Nat.le_sub_one_of_lt hnest
    rw [← itemsToRaw_eq_map, RawJson.itemsToJson?_itemsToRaw hw hvs] at h
    rw [Option.some.inj h]
  · rintro rfl
    have hxs : Json.itemsNesting xs ≤ limit - 1 := Nat.le_sub_one_of_lt hnest
    refine ⟨_, ⟨xs, rfl, rfl⟩, ?_⟩
    rw [← itemsToRaw_eq_map, RawJson.itemsToJson?_itemsToRaw hw hxs]

/-- A list of objects, each read by itself. -/
theorem mapM_bind_items?_iff {α : Type} {read : RawJson → Option α} {spelledBy : α → Members → Prop}
    {v : Json} {as : List α}
    (hitem : ∀ vs, v = .arr vs → ∀ w ∈ vs, ∀ a,
      (read w.toRaw = some a ↔ ∃ ns, w = .obj ns ∧ spelledBy a ns)) :
    v.toRaw.items?.bind (·.mapM read) = some as ↔
      ∃ vs, v = .arr vs ∧ List.Forall₂ (fun a w => ∃ ns, w = .obj ns ∧ spelledBy a ns) as vs := by
  rw [Option.bind_eq_some_iff]
  simp only [RawJson.items?_toRaw_eq_some_iff]
  constructor
  · rintro ⟨_, ⟨vs, rfl, rfl⟩, h⟩
    have hread := RawJson.mapM_map_toRaw_eq_some_iff.mp h
    refine ⟨vs, rfl, ?_⟩
    exact forall₂_imp_of_mem (fun w hw a => (hitem vs rfl w hw a).mp) hread
  · rintro ⟨vs, rfl, h⟩
    refine ⟨_, ⟨vs, rfl, rfl⟩, RawJson.mapM_map_toRaw_eq_some_iff.mpr ?_⟩
    exact forall₂_imp_of_mem (fun w hw a => (hitem vs rfl w hw a).mpr) h

theorem ConditionGroup.ofRaw?_obj_iff {g : ConditionGroup} (hw : (Json.obj ms).WellFormed)
    (hnest : Json.membersNesting ms ≤ limit) :
    ConditionGroup.ofRaw? limit (Json.obj ms).toRaw = some g ↔ g.SpelledBy ms := by
  have htype : ∀ t, RawMembers.required? (Json.membersToRaw ms) "condition_type"
      (RawJson.named? ConditionType.names) = some t ↔
        ∃ v, Members.get? ms "condition_type" = some v ∧ v.SpellsName t.name := by
    intro t
    rw [RawMembers.required?_eq_some_iff hw.1]
    simp only [RawJson.named?_toRaw_eq_some_iff ConditionType.names_fst ConditionType.lookup_name]
  have hconditions : ∀ xs, RawMembers.withDefault? (Json.membersToRaw ms) "conditions" []
      (fun c => c.items?.bind (RawJson.itemsToJson? (limit - 1))) = some xs ↔
        (Members.get? ms "conditions").getD (.arr []) = .arr xs := by
    intro xs
    rw [RawMembers.withDefault?_eq_some_iff hw.1, getD_arr_eq_iff]
    refine or_congr_right ?_
    constructor
    · rintro ⟨v, hv, h⟩
      rw [itemsToJson?_bind_items?_iff (wellFormed_of_get? hw hv) (nesting_le_of_get? hnest hv)] at h
      rw [hv, h]
    · intro hv
      refine ⟨_, hv, ?_⟩
      rw [itemsToJson?_bind_items?_iff (wellFormed_of_get? hw hv) (nesting_le_of_get? hnest hv)]
  rw [ConditionGroup.ofRaw?, Json.toRaw, RawJson.members?]
  simp only [Option.bind_eq_bind, Option.bind_some, Option.bind_eq_some_iff, Option.pure_def,
    Option.some.injEq, htype, hconditions, RawMembers.others?_membersToRaw hw hnest]
  constructor
  · rintro ⟨type, htype, conditions, hconditions, rfl⟩
    exact ⟨htype, hconditions, rfl⟩
  · intro h
    exact ⟨g.type, h.type, g.conditions, h.conditions, by rw [← h.extra]⟩

/-- **A well-formed value is read as the group that it spells.** -/
theorem ConditionGroup.ofRaw?_iff {g : ConditionGroup} {v : Json} (hw : v.WellFormed)
    (hnest : v.nesting ≤ limit + 1) :
    ConditionGroup.ofRaw? limit v.toRaw = some g ↔ ∃ ms, v = .obj ms ∧ g.SpelledBy ms := by
  cases v with
  | obj ms =>
    rw [ofRaw?_obj_iff hw (Nat.le_of_succ_le_succ hnest)]
    simp only [Json.obj.injEq, exists_eq_left']
  | _ => simp [ConditionGroup.ofRaw?, Json.toRaw, RawJson.members?]

theorem Definition.ofRaw?_obj_iff {d : Definition} (hw : (Json.obj ms).WellFormed)
    (hnest : Json.membersNesting ms ≤ limit) :
    Definition.ofRaw? limit (Json.obj ms).toRaw = some d ↔ d.SpelledBy ms := by
  have htext : ∀ key a, RawMembers.optional? (Json.membersToRaw ms) key RawJson.text? = some a ↔
      Members.SpellsOptional ms key (fun v t => v = .str t) a := fun key a =>
    RawMembers.optional?_eq_some_iff hw.1 (fun _ _ _ => RawJson.text?_toRaw_eq_some_iff) nofun
  have htype : ∀ a, RawMembers.optional? (Json.membersToRaw ms) "kpi_type"
      (RawJson.named? KpiType.names) = some a ↔
        Members.SpellsOptional ms "kpi_type" (fun v t => v.SpellsName t.name) a := fun a =>
    RawMembers.optional?_eq_some_iff hw.1
      (fun _ _ _ => RawJson.named?_toRaw_eq_some_iff KpiType.names_fst KpiType.lookup_name)
      fun t h => by rcases h with h | h <;> cases h
  have hconditions : ∀ gs, RawMembers.withDefault? (Json.membersToRaw ms) "kpi_conditions" []
      (fun c => c.items?.bind (·.mapM (ConditionGroup.ofRaw? (limit - 2)))) = some gs ↔
        ∃ vs, (Members.get? ms "kpi_conditions").getD (.arr []) = .arr vs ∧
          List.Forall₂ (fun g v => ∃ ns, v = .obj ns ∧ ConditionGroup.SpelledBy g ns) gs vs := by
    intro gs
    have hitem : ∀ v, Members.get? ms "kpi_conditions" = some v → ∀ vs, v = .arr vs → ∀ w ∈ vs, ∀ g,
        (ConditionGroup.ofRaw? (limit - 2) w.toRaw = some g ↔
          ∃ ns, w = .obj ns ∧ ConditionGroup.SpelledBy g ns) := by
      rintro v hv vs rfl w hmem g
      obtain ⟨hww, hwn⟩ := item_of_get? hw hnest hv hmem
      exact ConditionGroup.ofRaw?_iff hww (by omega)
    rw [RawMembers.withDefault?_eq_some_iff hw.1]
    constructor
    · rintro (⟨hnone, rfl⟩ | ⟨v, hv, h⟩)
      · exact ⟨[], by rw [hnone]; rfl, .nil⟩
      · obtain ⟨vs, rfl, hgs⟩ := (mapM_bind_items?_iff (hitem v hv)).mp h
        exact ⟨vs, by rw [hv]; rfl, hgs⟩
    · rintro ⟨vs, hvs, hgs⟩
      rcases getD_arr_eq_iff.mp hvs with ⟨hnone, rfl⟩ | hv
      · cases hgs
        exact .inl ⟨hnone, rfl⟩
      · exact .inr ⟨_, hv, (mapM_bind_items?_iff (hitem _ hv)).mpr ⟨vs, rfl, hgs⟩⟩
  rw [Definition.ofRaw?, Json.toRaw, RawJson.members?]
  simp only [Option.bind_eq_bind, Option.bind_some, Option.bind_eq_some_iff, Option.pure_def,
    Option.some.injEq, htext, htype, hconditions, RawMembers.others?_membersToRaw hw hnest,
    RawMembers.required?_eq_some_iff hw.1, RawJson.text?_toRaw_eq_some_iff,
    RawJson.bool?_toRaw_eq_some_iff]
  constructor
  · rintro ⟨name, ⟨_, hname, rfl⟩, isMain, ⟨_, hmain, rfl⟩, type, htype, patternName, hpattern,
      patternId, hid, conditions, hconditions, rfl⟩
    exact ⟨hname, hmain, htype, hpattern, hid, hconditions, rfl⟩
  · intro h
    exact ⟨d.name, ⟨_, h.name, rfl⟩, d.isMain, ⟨_, h.isMain, rfl⟩, d.type, h.type, d.patternName,
      h.patternName, d.patternId, h.patternId, d.conditions, h.conditions, by rw [← h.extra]⟩

/-- **A well-formed value is read as the definition that it spells.** -/
theorem Definition.ofRaw?_iff {d : Definition} {v : Json} (hw : v.WellFormed)
    (hnest : v.nesting ≤ limit + 1) :
    Definition.ofRaw? limit v.toRaw = some d ↔ ∃ ms, v = .obj ms ∧ d.SpelledBy ms := by
  cases v with
  | obj ms =>
    rw [ofRaw?_obj_iff hw (Nat.le_of_succ_le_succ hnest)]
    simp only [Json.obj.injEq, exists_eq_left']
  | _ =>
    constructor
    · intro h
      cases (h : none = some d)
    · rintro ⟨ms, hms, -⟩
      cases hms

theorem Settings.ofParts?_iff {basedOn definitions : Json} {s : Settings}
    (hw : definitions.WellFormed) (hnest : definitions.nesting < limit) :
    Settings.ofParts? limit basedOn.toRaw definitions.toRaw = some s ↔
      s.PartsSpelledBy basedOn definitions := by
  have hdefinitions : ∀ ds, definitions.toRaw.items?.bind
      (·.mapM (Definition.ofRaw? (limit - 3))) = some ds ↔
        ∃ vs, definitions = .arr vs ∧
          List.Forall₂ (fun d v => ∃ ns, v = .obj ns ∧ Definition.SpelledBy d ns) ds vs := by
    intro ds
    refine mapM_bind_items?_iff ?_
    rintro vs rfl w hmem d
    obtain ⟨hww, hwn⟩ := item_of_arr hw (Nat.le_refl _) hmem
    exact Definition.ofRaw?_iff hww (by omega)
  rw [Settings.ofParts?]
  simp only [Option.bind_eq_bind, Option.bind_eq_some_iff, Option.pure_def, Option.some.injEq,
    RawJson.named?_toRaw_eq_some_iff BasedOn.names_fst BasedOn.lookup_name, hdefinitions]
  constructor
  · rintro ⟨basedOn, hbasedOn, ds, hds, rfl⟩
    exact ⟨hbasedOn, hds⟩
  · intro h
    exact ⟨s.basedOn, h.basedOn, s.definitions, h.definitions, rfl⟩

end Readers

/-- **A well-formed value is read as the settings that it spells.** -/
theorem Settings.ofJson?_iff {v : Json} {s : Settings} (hw : v.WellFormed) :
    Settings.ofJson? v = some s ↔ s.SpelledBy v := by
  unfold Settings.ofJson?
  match v with
  | .null | .bool _ | .num _ | .str _ | .arr [] | .arr [_] | .arr (_ :: _ :: _ :: _) =>
    refine ⟨fun h => ?_, fun h => by cases h⟩
    simp [Json.toRaw, Json.itemsToRaw, Settings.ofRaw?] at h
  | .arr [basedOn, definitions] =>
    have hitem : definitions.WellFormed ∧ definitions.nesting < (Json.arr [basedOn, definitions]).nesting :=
      item_of_arr hw (Nat.le_refl _) (by simp)
    rw [Json.toRaw, Json.itemsToRaw, Json.itemsToRaw, Json.itemsToRaw, Settings.ofRaw?,
      Settings.ofParts?_iff hitem.1 hitem.2]
    constructor
    · exact .arr
    · intro h
      cases h with
      | arr h => exact h
  | .obj ms =>
    have hparts : ∀ basedOn definitions, Members.get? ms "kpi_definitions" = some definitions →
        (Settings.ofParts? (Json.obj ms).nesting basedOn.toRaw definitions.toRaw = some s ↔
          s.PartsSpelledBy basedOn definitions) := fun basedOn definitions hget =>
      Settings.ofParts?_iff (wellFormed_of_get? hw hget)
        (Nat.lt_succ_of_le (nesting_le_of_get? (Nat.le_refl _) hget))
    rw [Json.toRaw, Settings.ofRaw?]
    simp only [Option.bind_eq_bind, Option.bind_eq_some_iff, all_isSome_membersToRaw, guard_true,
      RawMembers.required?_eq_some_iff hw.1]
    constructor
    · rintro ⟨-, -, _, ⟨basedOn, hbasedOn, heq⟩, _, ⟨definitions, hdefinitions, heq'⟩, h⟩
      cases heq
      cases heq'
      exact .obj hbasedOn hdefinitions ((hparts _ _ hdefinitions).mp h)
    · intro h
      cases h with
      | obj hbasedOn hdefinitions h =>
        exact ⟨(), rfl, _, ⟨_, hbasedOn, rfl⟩, _, ⟨_, hdefinitions, rfl⟩,
          (hparts _ _ hdefinitions).mpr h⟩

end ExperimentKpi

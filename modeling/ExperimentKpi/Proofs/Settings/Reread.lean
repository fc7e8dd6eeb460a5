/-
# Settings read again

Reading settings looks at no number: a tree with other numbers reads as the settings with these numbers
(`Settings.ofRaw?_mapNumbers`), and the checks on settings look at none either
(`Settings.isAcceptable_mapNumbers`). So the text of a document that reads as acceptable settings is
accepted, whether its floats read back or not (`Settings.revalidate_compact_of_fits`).

Key definition: `Settings.mapNumbers`.
Key theorems: `Settings.ofRaw?_mapNumbers`, `Settings.revalidate_compact_of_fits`.
-/
import ExperimentKpi.Proofs.Json.Reread
import ExperimentKpi.Proofs.Settings.PatternId
import ExperimentKpi.Proofs.Settings.Validate

namespace ExperimentKpi

variable {f : Number → Number}

/-! ### Values -/

namespace RawJson

theorem text?_mapNumbers (v : RawJson) : (v.mapNumbers f).text? = v.text? := by
  cases v <;> rfl

theorem bool?_mapNumbers (v : RawJson) : (v.mapNumbers f).bool? = v.bool? := by
  cases v <;> rfl

theorem items?_mapNumbers (v : RawJson) : (v.mapNumbers f).items? = v.items?.map (itemsMapNumbers f) := by
  cases v <;> rfl

theorem bind_items?_mapNumbers {α : Type} {read : List RawJson → Option (List α)}
    {g : List α → List α} (h : ∀ xs, read (itemsMapNumbers f xs) = (read xs).map g) (v : RawJson) :
    (v.mapNumbers f).items?.bind read = (v.items?.bind read).map g := by
  rw [items?_mapNumbers]
  cases v.items? with
  | none => rfl
  | some xs => exact h xs

theorem members?_mapNumbers (v : RawJson) :
    (v.mapNumbers f).members? = v.members?.map (membersMapNumbers f) := by
  cases v <;> rfl

theorem name?_mapNumbers (v : RawJson) : (v.mapNumbers f).name? = v.name? := by
  cases v with
  | obj ms =>
    cases ms with
    | nil => rfl
    | cons m r =>
      obtain ⟨k, x⟩ := m
      cases r with
      | nil => cases x <;> rfl
      | cons => cases x <;> rfl
  | _ => rfl

theorem named?_mapNumbers {α : Type} (names : List (String × α)) (v : RawJson) :
    named? names (v.mapNumbers f) = named? names v := by
  rw [named?, named?, name?_mapNumbers]

end RawJson

/-! ### Members -/

namespace RawMembers

open RawJson (membersMapNumbers)

variable {α : Type}

theorem valuesAt_mapNumbers (ms : RawMembers) (key : String) :
    valuesAt (membersMapNumbers f ms) key = (ms.valuesAt key).map (RawJson.mapNumbers f) := by
  induction ms with
  | nil => rfl
  | cons m r ih =>
    obtain ⟨k, v⟩ := m
    unfold valuesAt at ih ⊢
    rw [membersMapNumbers, List.filter_cons, List.filter_cons]
    split_ifs
    · rw [List.map_cons, List.map_cons, List.map_cons, ih]
    · exact ih

theorem required?_mapNumbers {read : RawJson → Option α} (h : ∀ v, read (v.mapNumbers f) = read v)
    (ms : RawMembers) (key : String) :
    required? (membersMapNumbers f ms) key read = ms.required? key read := by
  rw [required?, required?, valuesAt_mapNumbers]
  rcases ms.valuesAt key with _ | ⟨v, _ | ⟨w, vs⟩⟩
  · rfl
  · exact h v
  · rfl

theorem required?_some_mapNumbers (ms : RawMembers) (key : String) :
    required? (membersMapNumbers f ms) key some =
      (ms.required? key some).map (RawJson.mapNumbers f) := by
  rw [required?, required?, valuesAt_mapNumbers]
  rcases ms.valuesAt key with _ | ⟨v, _ | ⟨w, vs⟩⟩ <;> rfl

theorem all_isSome_mapNumbers (ms : RawMembers) :
    (membersMapNumbers f ms).all (fun m => m.1.isSome) = ms.all fun m => m.1.isSome := by
  induction ms with
  | nil => rfl
  | cons m r ih =>
    obtain ⟨k, v⟩ := m
    rw [membersMapNumbers, List.all_cons, List.all_cons, ih]

theorem optional?_mapNumbers {read : RawJson → Option α} (h : ∀ v, read (v.mapNumbers f) = read v)
    (ms : RawMembers) (key : String) :
    optional? (membersMapNumbers f ms) key read = ms.optional? key read := by
  rw [optional?, optional?, withDefault?, withDefault?, valuesAt_mapNumbers]
  rcases ms.valuesAt key with _ | ⟨v, _ | ⟨w, vs⟩⟩
  · rfl
  · have hv := h v
    simp only [List.map_cons, List.map_nil, hv]
    cases v <;> rfl
  · rfl

theorem others?_mapNumbers (ms : RawMembers) (known : List String) (limit : Nat) :
    others? (membersMapNumbers f ms) known limit =
      (ms.others? known limit).map (Json.membersMapNumbers f) := by
  have hfilter : (membersMapNumbers f ms).filter (fun m => !(m.1.any (known.contains ·))) =
      membersMapNumbers f (ms.filter fun m => !(m.1.any (known.contains ·))) := by
    induction ms with
    | nil => rfl
    | cons m r ih =>
      obtain ⟨k, v⟩ := m
      rw [membersMapNumbers, List.filter_cons, List.filter_cons, ih]
      split_ifs <;> rfl
  rw [others?, others?, hfilter, RawJson.membersToJson?_mapNumbers, Option.map_map, Option.map_map]
  congr 1
  funext es
  exact (Json.membersMapNumbers_ofEntries es).symm

theorem items_mapNumbers {read : List RawJson → Option (List α)} {g : List α → List α} (hg : g [] = [])
    (h : ∀ xs, read (RawJson.itemsMapNumbers f xs) = (read xs).map g) (ms : RawMembers) (key : String) :
    withDefault? (membersMapNumbers f ms) key [] (fun c => c.items?.bind read) =
      (ms.withDefault? key [] fun c => c.items?.bind read).map g := by
  rw [withDefault?, withDefault?, valuesAt_mapNumbers]
  rcases ms.valuesAt key with _ | ⟨v, _ | ⟨w, vs⟩⟩
  · exact congrArg some hg.symm
  · exact RawJson.bind_items?_mapNumbers h v
  · rfl

end RawMembers

variable {α : Type} {g : α → α}

theorem mapM_itemsMapNumbers {read : RawJson → Option α}
    (h : ∀ v, read (v.mapNumbers f) = (read v).map g) (xs : List RawJson) :
    (RawJson.itemsMapNumbers f xs).mapM read = (xs.mapM read).map (List.map g) := by
  induction xs with
  | nil => rfl
  | cons x xs ih =>
    rw [RawJson.itemsMapNumbers, List.mapM_cons, List.mapM_cons, h, ih]
    cases read x with
    | none => rfl
    | some a => cases xs.mapM read <;> rfl

/-! ### Settings -/

/-- A condition group with other numbers. -/
def ConditionGroup.mapNumbers (f : Number → Number) (g : ConditionGroup) : ConditionGroup :=
  ⟨g.type, Json.itemsMapNumbers f g.conditions, Json.membersMapNumbers f g.extra⟩

/-- A definition with other numbers. -/
def Definition.mapNumbers (f : Number → Number) (d : Definition) : Definition :=
  ⟨d.name, d.isMain, d.type, d.patternName, d.patternId, d.conditions.map (.mapNumbers f),
    Json.membersMapNumbers f d.extra⟩

/-- Settings with other numbers. -/
def Settings.mapNumbers (f : Number → Number) (s : Settings) : Settings :=
  ⟨s.basedOn, s.definitions.map (.mapNumbers f)⟩

theorem ConditionGroup.ofRaw?_mapNumbers (limit : Nat) (v : RawJson) :
    ofRaw? limit (v.mapNumbers f) = (ofRaw? limit v).map (mapNumbers f) := by
  unfold ofRaw?
  rw [RawJson.members?_mapNumbers]
  cases v.members? with
  | none => rfl
  | some ms =>
    simp only [Option.map_some, Option.bind_eq_bind, Option.bind_some]
    rw [RawMembers.required?_mapNumbers (RawJson.named?_mapNumbers _),
      RawMembers.items_mapNumbers rfl (RawJson.itemsToJson?_mapNumbers (limit - 1)),
      RawMembers.others?_mapNumbers]
    cases RawMembers.required? ms "condition_type" (RawJson.named? ConditionType.names) with
    | none => rfl
    | some type =>
      cases RawMembers.withDefault? ms "conditions" [] fun c =>
          c.items?.bind (RawJson.itemsToJson? (limit - 1)) with
      | none => rfl
      | some conditions => cases RawMembers.others? ms knownKeys limit <;> rfl

theorem Definition.ofRaw?_mapNumbers (limit : Nat) (v : RawJson) :
    ofRaw? limit (v.mapNumbers f) = (ofRaw? limit v).map (mapNumbers f) := by
  unfold ofRaw?
  rw [RawJson.members?_mapNumbers]
  cases v.members? with
  | none => rfl
  | some ms =>
    have hgroups : ∀ xs : List RawJson,
        (RawJson.itemsMapNumbers f xs).mapM (ConditionGroup.ofRaw? (limit - 2)) =
          (xs.mapM (ConditionGroup.ofRaw? (limit - 2))).map (List.map (.mapNumbers f)) :=
      mapM_itemsMapNumbers (ConditionGroup.ofRaw?_mapNumbers (limit - 2))
    simp only [Option.map_some, Option.bind_eq_bind, Option.bind_some]
    rw [RawMembers.required?_mapNumbers RawJson.text?_mapNumbers,
      RawMembers.required?_mapNumbers RawJson.bool?_mapNumbers,
      RawMembers.optional?_mapNumbers (RawJson.named?_mapNumbers _),
      RawMembers.optional?_mapNumbers RawJson.text?_mapNumbers,
      RawMembers.optional?_mapNumbers RawJson.text?_mapNumbers,
      RawMembers.items_mapNumbers rfl hgroups, RawMembers.others?_mapNumbers]
    -- The conditions and the other members are the only parts with numbers.
    generalize RawMembers.withDefault? ms "kpi_conditions" [] _ = conditions
    generalize RawMembers.others? ms knownKeys limit = extra
    cases RawMembers.required? ms "kpi_definition_name" RawJson.text? <;> try rfl
    cases RawMembers.required? ms "main_kpi" RawJson.bool? <;> try rfl
    cases RawMembers.optional? ms "kpi_type" (RawJson.named? KpiType.names) <;> try rfl
    cases RawMembers.optional? ms "pattern_name" RawJson.text? <;> try rfl
    cases RawMembers.optional? ms "pattern_id" RawJson.text? <;> try rfl
    cases conditions <;> try rfl
    cases extra <;> rfl

namespace Settings

theorem ofParts?_mapNumbers (limit : Nat) (basedOn definitions : RawJson) :
    ofParts? limit (basedOn.mapNumbers f) (definitions.mapNumbers f) =
      (ofParts? limit basedOn definitions).map (mapNumbers f) := by
  have hdefinitions : ∀ xs : List RawJson,
      (RawJson.itemsMapNumbers f xs).mapM (Definition.ofRaw? (limit - 3)) =
        (xs.mapM (Definition.ofRaw? (limit - 3))).map (List.map (.mapNumbers f)) :=
    mapM_itemsMapNumbers (Definition.ofRaw?_mapNumbers (limit - 3))
  unfold ofParts?
  rw [RawJson.named?_mapNumbers, RawJson.bind_items?_mapNumbers hdefinitions]
  cases RawJson.named? BasedOn.names basedOn with
  | none => rfl
  | some b => cases definitions.items?.bind (·.mapM (Definition.ofRaw? (limit - 3))) <;> rfl

/-- **A tree with other numbers reads as the settings with these numbers.** -/
theorem ofRaw?_mapNumbers (limit : Nat) (v : RawJson) :
    ofRaw? limit (v.mapNumbers f) = (ofRaw? limit v).map (mapNumbers f) := by
  cases v with
  | obj ms =>
    rw [RawJson.mapNumbers]
    simp only [ofRaw?, RawMembers.all_isSome_mapNumbers, RawMembers.required?_some_mapNumbers]
    cases (ms : RawMembers).all fun m => m.1.isSome with
    | false => rfl
    | true =>
      simp only [guard_true, Option.bind_eq_bind, Option.pure_def, Option.bind_some]
      cases RawMembers.required? ms "based_on" some with
      | none => rfl
      | some basedOn =>
        cases RawMembers.required? ms "kpi_definitions" some with
        | none => rfl
        | some definitions => exact ofParts?_mapNumbers limit basedOn definitions
  | arr xs =>
    rcases xs with _ | ⟨basedOn, _ | ⟨definitions, _ | ⟨x, xs⟩⟩⟩
    · rfl
    · rfl
    · exact ofParts?_mapNumbers limit basedOn definitions
    · rfl
  | _ => rfl

/-! ### Checks -/

theorem names_mapNumbers (s : Settings) : (s.mapNumbers f).names = s.names := by
  simp only [names, mapNumbers, List.map_map]
  rfl

/-- No check looks at a number. -/
theorem isAcceptable_mapNumbers {s : Settings} (h : s.IsAcceptable) :
    (s.mapNumbers f).IsAcceptable := by
  obtain ⟨hne, hnames, hnodup, hmain⟩ := h
  refine ⟨fun hnil => hne (List.map_eq_nil_iff.mp hnil), fun d hd => ?_, ?_, ?_⟩
  · obtain ⟨d', hd', rfl⟩ := List.mem_map.mp hd
    exact hnames d' hd'
  · rw [names_mapNumbers]
    exact hnodup
  · rw [mapNumbers, List.countP_map]
    exact hmain

/-- The text of a document that reads as acceptable settings is accepted as the settings with the
numbers that are read. -/
theorem revalidate_compact_of_fits {document : Json} {s : Settings}
    (hfits : ∀ n ∈ document.numbers, n.Fits)
    (hread : ofRaw? Json.nestingLimit document.toRaw = some s) (haccept : s.IsAcceptable) :
    revalidate document.compact = .ok (s.mapNumbers Number.reread) := by
  refine revalidate_ok_iff.mpr ⟨?_, isAcceptable_mapNumbers haccept⟩
  rw [ofText?, RawJson.parse?_compact_of_fits hfits, Option.bind_some, ofRaw?_mapNumbers, hread,
    Option.map_some]

end Settings

end ExperimentKpi

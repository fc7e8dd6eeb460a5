/-
# The schema of settings as a document

The schema of settings is a document of JSON Schema, Draft 4 (`settingsSchema`). A value breaks a keyword
of a schema at a place (`Draft4.BreaksHere`), and it violates a schema wherever a value inside it breaks
a keyword of the schema for its place (`Draft4.Violates`). Every shape is such a schema
(`Shape.toSchema`), and the violations of a shape are those of the schema, each once
(`Shape.mem_violations_iff`, `Shape.nodup_violations`).

Draft 4 leaves the meaning of `\S` to the dialect of regular expressions; `isPatternBlank` is the class
of the dialect at hand.

Key definitions: `Draft4.BreaksHere`, `Draft4.Violates`, `Draft4.Conforms`, `Shape.toSchema`,
`settingsSchema`.
Key theorems: `Shape.mem_violations_iff`, `Shape.nodup_violations`, `violates_settingsSchema_iff`.
-/
import ExperimentKpi.Settings.Schema
import Mathlib.Data.List.Nodup

namespace ExperimentKpi

namespace Draft4

/-- The keywords of a schema that a value itself breaks. -/
inductive BreaksHere (schema : Json) : Json → Broken → Prop
  | type {v : Json} {t : JsonType} :
    schema.member? "type" = some (.str t.name) → t.holds v = false → BreaksHere schema v (.type v t)
  | option {v : Json} {options : List String} :
    schema.member? "enum" = some (.arr (options.map .str)) → (∀ o ∈ options, v ≠ .str o) →
      BreaksHere schema v (.option v options)
  | missing {ms : Members} {keys : List String} {key : String} :
    schema.member? "required" = some (.arr (keys.map .str)) → key ∈ keys →
      Members.get? ms key = none → BreaksHere schema (.obj ms) (.missing key)
  | blank {s : String} :
    schema.member? "pattern" = some (.str "^\\S*$") → (∃ c ∈ s.toList, isPatternBlank c = true) →
      BreaksHere schema (.str s) (.blank s)
  | short {s : String} {n : Nat} :
    schema.member? "minLength" = some (.int n) → s.length < n →
      BreaksHere schema (.str s) (.short s n)
  | long {s : String} {n : Nat} :
    schema.member? "maxLength" = some (.int n) → n < s.length →
      BreaksHere schema (.str s) (.long s n)
  | few {xs : List Json} {n : Nat} :
    schema.member? "minItems" = some (.int n) → xs.length < n →
      BreaksHere schema (.arr xs) (.few (.arr xs) n)

/-- The keywords that a value breaks at the places inside it, with the steps from the value to the
place. -/
inductive Violates : Json → Json → List Step → Broken → Prop
  | here {schema v : Json} {b : Broken} : BreaksHere schema v b → Violates schema v [] b
  | property {schema sub x : Json} {shapes ms : Members} {key : String} {steps : List Step}
      {b : Broken} :
    schema.member? "properties" = some (.obj shapes) → Members.get? shapes key = some sub →
      Members.get? ms key = some x → Violates sub x steps b →
      Violates schema (.obj ms) (.key key :: steps) b
  | item {schema sub x : Json} {xs : List Json} {i : Nat} {steps : List Step} {b : Broken} :
    schema.member? "items" = some sub → xs[i]? = some x → Violates sub x steps b →
      Violates schema (.arr xs) (.item i :: steps) b

/-- The values that violate a schema nowhere. -/
def Conforms (schema v : Json) : Prop :=
  ∀ steps b, ¬ Violates schema v steps b

/-- Schemas that agree on the keywords are broken alike. -/
theorem Violates.congr {schema schema' v : Json} {steps : List Step} {b : Broken}
    (h : Violates schema v steps b)
    (heq : ∀ keyword ∈ ["type", "enum", "required", "pattern", "minLength", "maxLength", "minItems",
      "properties", "items"], schema'.member? keyword = schema.member? keyword) :
    Violates schema' v steps b := by
  cases h with
  | here h =>
    refine .here ?_
    cases h with
    | type hkey h => exact .type ((heq _ (by simp)).trans hkey) h
    | option hkey h => exact .option ((heq _ (by simp)).trans hkey) h
    | missing hkey hmem h => exact .missing ((heq _ (by simp)).trans hkey) hmem h
    | blank hkey h => exact .blank ((heq _ (by simp)).trans hkey) h
    | short hkey h => exact .short ((heq _ (by simp)).trans hkey) h
    | long hkey h => exact .long ((heq _ (by simp)).trans hkey) h
    | few hkey h => exact .few ((heq _ (by simp)).trans hkey) h
  | property hkey hsub hx h => exact .property ((heq _ (by simp)).trans hkey) hsub hx h
  | item hkey hx h => exact .item ((heq _ (by simp)).trans hkey) hx h

end Draft4

open Draft4

/-! ### Shapes as schemas -/

mutual

/-- A shape as a schema. Draft 4 has no empty list of required keys. -/
def Shape.toSchema : Shape → Json
  | .text => .obj [("type", .str JsonType.string.name)]
  | .oneOf options =>
    .obj [("type", .str JsonType.string.name), ("enum", .arr (options.map .str))]
  | .word minLength maxLength =>
    .obj [("type", .str JsonType.string.name), ("pattern", .str "^\\S*$"),
      ("minLength", .int minLength), ("maxLength", .int maxLength)]
  | .flag => .obj [("type", .str JsonType.boolean.name)]
  | .list minItems item =>
    .obj (("type", .str JsonType.array.name) ::
      ((if minItems = 0 then [] else [("minItems", .int minItems)]) ++ [("items", item.toSchema)]))
  | .record required properties =>
    .obj (("type", .str JsonType.object.name) ::
      ((if required = [] then [] else [("required", .arr (required.map .str))]) ++
        [("properties", .obj (propertiesToSchema properties))]))

/-- The shapes of properties as schemas. -/
def propertiesToSchema : List (String × Shape) → Members
  | [] => []
  | (key, shape) :: r => (key, shape.toSchema) :: propertiesToSchema r

end

mutual

/-- No key is required twice or has two shapes, in any part of a shape. -/
def Shape.Proper : Shape → Prop
  | .list _ item => item.Proper
  | .record required properties =>
    required.Nodup ∧ (properties.map Prod.fst).Nodup ∧ PropertiesProper properties
  | _ => True

/-- The shape of every property is proper. -/
def PropertiesProper : List (String × Shape) → Prop
  | [] => True
  | (_, shape) :: r => shape.Proper ∧ PropertiesProper r

end

theorem JsonType.eq_of_name_eq {t t' : JsonType} (h : t.name = t'.name) : t = t' := by
  cases t <;> cases t' <;> first | rfl | exact absurd h (by decide)

section Keywords

variable {keyword : String}

theorem Shape.member?_list {n : Nat} {item : Shape} :
    (Shape.list n item).toSchema.member? keyword =
      if keyword = "type" then some (.str JsonType.array.name)
      else if keyword = "minItems" ∧ n ≠ 0 then some (.int n)
      else if keyword = "items" then some item.toSchema
      else none := by
  rw [Shape.toSchema, Json.member?, Members.get?]
  by_cases hn : n = 0
  · rw [if_pos hn]
    simp only [List.nil_append, List.lookup_cons, List.lookup_nil]
    grind
  · rw [if_neg hn]
    simp only [List.singleton_append, List.lookup_cons, List.lookup_nil]
    grind

theorem Shape.member?_record {required : List String} {properties : List (String × Shape)} :
    (Shape.record required properties).toSchema.member? keyword =
      if keyword = "type" then some (.str JsonType.object.name)
      else if keyword = "required" ∧ required ≠ [] then some (.arr (required.map .str))
      else if keyword = "properties" then some (.obj (propertiesToSchema properties))
      else none := by
  rw [Shape.toSchema, Json.member?, Members.get?]
  by_cases hr : required = []
  · rw [if_pos hr]
    simp only [List.nil_append, List.lookup_cons, List.lookup_nil]
    grind
  · rw [if_neg hr]
    simp only [List.singleton_append, List.lookup_cons, List.lookup_nil]
    grind

end Keywords

/-- A property's schema is that of its shape. -/
theorem get?_propertiesToSchema {key : String} {sub : Json} :
    ∀ {properties : List (String × Shape)}, (properties.map Prod.fst).Nodup →
      (Members.get? (propertiesToSchema properties) key = some sub ↔
        ∃ shape, (key, shape) ∈ properties ∧ shape.toSchema = sub)
  | [], _ => by simp [propertiesToSchema, Members.get?]
  | (k, shape) :: r, hnodup => by
    obtain ⟨hk, hr⟩ := List.nodup_cons.mp hnodup
    have ih : Members.get? (propertiesToSchema r) key = some sub ↔
        ∃ shape, (key, shape) ∈ r ∧ shape.toSchema = sub := get?_propertiesToSchema hr
    rw [propertiesToSchema, Members.get?, List.lookup_cons]
    by_cases hkey : key = k
    · subst hkey
      have hfirst : ∀ shape', (key, shape') ∈ r → False := fun shape' h =>
        hk (List.mem_map.mpr ⟨_, h, rfl⟩)
      simp only [beq_self_eq_true, Option.some.injEq, List.mem_cons, Prod.mk.injEq, true_and]
      constructor
      · rintro rfl
        exact ⟨shape, .inl rfl, rfl⟩
      · rintro ⟨shape', rfl | hmem, rfl⟩
        · rfl
        · exact (hfirst _ hmem).elim
    · have hne : (key == k) = false := by simpa using hkey
      rw [hne]
      simpa [Members.get?, hkey] using ih

/-! ### The keywords that a value itself breaks -/

section Own

variable {schema v v' : Json} {b : Broken} {path : List Step} {x : Violation}

theorem str_name_inj {t t' : JsonType} (h : some (Json.str t.name) = some (Json.str t'.name)) :
    t = t' := by
  simp only [Option.some.injEq, Json.str.injEq] at h
  exact JsonType.eq_of_name_eq h

theorem arr_map_str_inj {xs ys : List String}
    (h : some (Json.arr (xs.map .str)) = some (Json.arr (ys.map .str))) : xs = ys := by
  simp only [Option.some.injEq, Json.arr.injEq] at h
  exact List.map_injective_iff.mpr (fun _ _ => Json.str.inj) h

theorem int_natCast_inj {m n : Nat} (h : some (Json.int m) = some (Json.int n)) : m = n := by
  simp only [Json.int, Option.some.injEq, Json.num.injEq, Number.int.injEq] at h
  exact Int.ofNat.inj h

theorem mem_typeViolation_iff {t : JsonType} :
    x ∈ typeViolation path t v ↔ t.holds v = false ∧ x = ⟨path, .type v t⟩ := by
  unfold typeViolation
  cases t.holds v <;> simp

theorem mem_ite_singleton_iff {p : Prop} [Decidable p] {α : Type} {a a' : α} :
    a ∈ (if p then [a'] else []) ↔ p ∧ a = a' := by
  by_cases hp : p <;> simp [hp]

theorem same_str_iff {o : String} : v.same (.str o) = true ↔ v = .str o := by
  cases v <;> simp [Json.same]

theorem any_same_str_eq_false_iff {options : List String} :
    (options.any fun o => v.same (.str o)) = false ↔ ∀ o ∈ options, v ≠ .str o := by
  rw [List.any_eq_false]
  simp only [same_str_iff, ne_eq]

theorem breaksHere_type_iff {t : JsonType} : BreaksHere (.obj [("type", .str t.name)]) v b ↔
    t.holds v = false ∧ b = .type v t := by
  constructor
  · intro h
    cases h with
    | type hkey h =>
      obtain rfl := str_name_inj hkey
      exact ⟨h, rfl⟩
    | _ hkey => cases hkey
  · rintro ⟨h, rfl⟩
    exact .type rfl h

theorem breaksHere_oneOf_iff {options : List String} :
    BreaksHere (Shape.toSchema (.oneOf options)) v b ↔
      JsonType.string.holds v = false ∧ b = .type v .string ∨
        (∀ o ∈ options, v ≠ .str o) ∧ b = .option v options := by
  constructor
  · intro h
    cases h with
    | type hkey h =>
      obtain rfl := str_name_inj hkey
      exact .inl ⟨h, rfl⟩
    | option hkey h =>
      obtain rfl := arr_map_str_inj hkey
      exact .inr ⟨h, rfl⟩
    | _ hkey => cases hkey
  · rintro (⟨h, rfl⟩ | ⟨h, rfl⟩)
    · exact .type rfl h
    · exact .option rfl h

theorem breaksHere_word_iff {lo hi : Nat} :
    BreaksHere (Shape.toSchema (.word lo hi)) v b ↔
      JsonType.string.holds v = false ∧ b = .type v .string ∨
        ∃ s, v = .str s ∧ ((∃ c ∈ s.toList, isPatternBlank c = true) ∧ b = .blank s ∨
          s.length < lo ∧ b = .short s lo ∨ hi < s.length ∧ b = .long s hi) := by
  constructor
  · intro h
    cases h with
    | type hkey h =>
      obtain rfl := str_name_inj hkey
      exact .inl ⟨h, rfl⟩
    | blank _ h => exact .inr ⟨_, rfl, .inl ⟨h, rfl⟩⟩
    | short hkey h =>
      obtain rfl := int_natCast_inj hkey
      exact .inr ⟨_, rfl, .inr (.inl ⟨h, rfl⟩)⟩
    | long hkey h =>
      obtain rfl := int_natCast_inj hkey
      exact .inr ⟨_, rfl, .inr (.inr ⟨h, rfl⟩)⟩
    | _ hkey => cases hkey
  · rintro (⟨h, rfl⟩ | ⟨s, rfl, ⟨h, rfl⟩ | ⟨h, rfl⟩ | ⟨h, rfl⟩⟩)
    · exact .type rfl h
    · exact .blank rfl h
    · exact .short rfl h
    · exact .long rfl h

theorem breaksHere_list_iff {n : Nat} {item : Shape} :
    BreaksHere (Shape.toSchema (.list n item)) v b ↔
      JsonType.array.holds v = false ∧ b = .type v .array ∨
        ∃ xs, v = .arr xs ∧ xs.length < n ∧ b = .few v n := by
  constructor
  · intro h
    cases h with
    | type hkey h =>
      obtain rfl := str_name_inj hkey
      exact .inl ⟨h, rfl⟩
    | few hkey h =>
      by_cases hn : n = 0
      · simp [Shape.member?_list, hn] at hkey
      · have hleast : (Shape.list n item).toSchema.member? "minItems" = some (.int n) := by
          simp [Shape.member?_list, hn]
        obtain rfl := int_natCast_inj (hleast.symm.trans hkey)
        exact .inr ⟨_, rfl, h, rfl⟩
    | _ hkey => simp [Shape.member?_list] at hkey
  · rintro (⟨h, rfl⟩ | ⟨xs, rfl, h, rfl⟩)
    · exact .type rfl h
    · have hn : n ≠ 0 := by omega
      exact .few (by simp [Shape.member?_list, hn]) h

theorem breaksHere_record_iff {required : List String} {properties : List (String × Shape)} :
    BreaksHere (Shape.toSchema (.record required properties)) v b ↔
      JsonType.object.holds v = false ∧ b = .type v .object ∨
        ∃ ms, v = .obj ms ∧ ∃ key ∈ required, Members.get? ms key = none ∧ b = .missing key := by
  constructor
  · intro h
    cases h with
    | type hkey h =>
      obtain rfl := str_name_inj hkey
      exact .inl ⟨h, rfl⟩
    | missing hkey hmem h =>
      by_cases hr : required = []
      · simp [Shape.member?_record, hr] at hkey
      · have hkeys : (Shape.record required properties).toSchema.member? "required" =
            some (.arr (required.map .str)) := by
          simp [Shape.member?_record, hr]
        obtain rfl := arr_map_str_inj (hkeys.symm.trans hkey)
        exact .inr ⟨_, rfl, _, hmem, h, rfl⟩
    | _ hkey => simp [Shape.member?_record] at hkey
  · rintro (⟨h, rfl⟩ | ⟨ms, rfl, key, hmem, h, rfl⟩)
    · exact .type rfl h
    · have hr : required ≠ [] := List.ne_nil_of_mem hmem
      exact .missing (by simp [Shape.member?_record, hr]) hmem h

end Own

/-! ### Violations of shapes -/

section Violations

variable {v : Json} {path steps : List Step} {b : Broken} {x : Violation}

theorem Shape.violations_word_str {lo hi : Nat} {s : String} :
    (Shape.word lo hi).violations path (.str s) =
      (if s.toList.any isPatternBlank then [⟨path, .blank s⟩] else []) ++
        (if s.length < lo then [⟨path, .short s lo⟩] else []) ++
        (if s.length > hi then [⟨path, .long s hi⟩] else []) := by
  have htype : typeViolation path .string (.str s) = [] := rfl
  simp only [Shape.violations, htype, List.nil_append]

theorem Shape.violations_list_arr {n : Nat} {item : Shape} {xs : List Json} :
    (Shape.list n item).violations path (.arr xs) =
      (if xs.length < n then [⟨path, .few (.arr xs) n⟩] else []) ++
        xs.zipIdx.flatMap fun (x, i) => item.violations (.item i :: path) x := by
  simp [Shape.violations, typeViolation, JsonType.holds]

theorem Shape.violations_record_obj {required : List String} {properties : List (String × Shape)}
    {ms : Members} :
    (Shape.record required properties).violations path (.obj ms) =
      ((required.filter fun key => (Members.get? ms key).isNone).map fun key =>
        ⟨path, .missing key⟩) ++ propertyViolations path ms properties := by
  simp [Shape.violations, typeViolation, JsonType.holds]

/-- A schema without parts is violated by the value itself only. -/
theorem violates_iff_of_no_part {schema : Json} (hproperties : schema.member? "properties" = none)
    (hitems : schema.member? "items" = none) :
    Violates schema v steps b ↔ steps = [] ∧ BreaksHere schema v b := by
  constructor
  · intro h
    cases h with
    | here h => exact ⟨rfl, h⟩
    | property hkey => exact nomatch hproperties.symm.trans hkey
    | item hkey => exact nomatch hitems.symm.trans hkey
  · rintro ⟨rfl, h⟩
    exact .here h

theorem exists_violates_of_no_part {schema : Json} (hproperties : schema.member? "properties" = none)
    (hitems : schema.member? "items" = none) :
    (∃ steps b, Violates schema v steps b ∧ x = ⟨steps.reverse ++ path, b⟩) ↔
      ∃ b, BreaksHere schema v b ∧ x = ⟨path, b⟩ := by
  constructor
  · rintro ⟨steps, b, h, rfl⟩
    obtain ⟨rfl, hhere⟩ := (violates_iff_of_no_part hproperties hitems).mp h
    exact ⟨b, hhere, rfl⟩
  · rintro ⟨b, h, rfl⟩
    exact ⟨[], b, .here h, rfl⟩

theorem violates_list_iff {n : Nat} {item : Shape} :
    Violates (Shape.list n item).toSchema v steps b ↔
      steps = [] ∧ BreaksHere (Shape.list n item).toSchema v b ∨
        ∃ xs i y rest, v = .arr xs ∧ xs[i]? = some y ∧ steps = .item i :: rest ∧
          Violates item.toSchema y rest b := by
  have hitem : (Shape.list n item).toSchema.member? "items" = some item.toSchema := by
    simp [Shape.member?_list]
  constructor
  · intro h
    cases h with
    | here h => exact .inl ⟨rfl, h⟩
    | property hkey => simp [Shape.member?_list] at hkey
    | item hkey hy h =>
      obtain rfl := Option.some.inj (hitem.symm.trans hkey)
      exact .inr ⟨_, _, _, _, rfl, hy, rfl, h⟩
  · rintro (⟨rfl, h⟩ | ⟨xs, i, y, rest, rfl, hy, rfl, h⟩)
    · exact .here h
    · exact .item hitem hy h

theorem violates_record_iff {required : List String} {properties : List (String × Shape)}
    (hnodup : (properties.map Prod.fst).Nodup) :
    Violates (Shape.record required properties).toSchema v steps b ↔
      steps = [] ∧ BreaksHere (Shape.record required properties).toSchema v b ∨
        ∃ ms key shape y rest, v = .obj ms ∧ (key, shape) ∈ properties ∧
          Members.get? ms key = some y ∧ steps = .key key :: rest ∧
          Violates shape.toSchema y rest b := by
  have hproperties : (Shape.record required properties).toSchema.member? "properties" =
      some (.obj (propertiesToSchema properties)) := by
    simp [Shape.member?_record]
  constructor
  · intro h
    cases h with
    | here h => exact .inl ⟨rfl, h⟩
    | item hkey => simp [Shape.member?_record] at hkey
    | property hkey hsub hy h =>
      have hshapes := hproperties.symm.trans hkey
      simp only [Option.some.injEq, Json.obj.injEq] at hshapes
      rw [← hshapes] at hsub
      obtain ⟨shape, hmem, rfl⟩ := (get?_propertiesToSchema hnodup).mp hsub
      exact .inr ⟨_, _, shape, _, _, rfl, hmem, hy, rfl, h⟩
  · rintro (⟨rfl, h⟩ | ⟨ms, key, shape, y, rest, rfl, hmem, hy, rfl, h⟩)
    · exact .here h
    · exact .property hproperties ((get?_propertiesToSchema hnodup).mpr ⟨shape, hmem, rfl⟩) hy h

mutual

/-- **The violations of a shape are those of its schema.** -/
theorem Shape.mem_violations_iff : ∀ (shape : Shape) (path : List Step) (v : Json) (x : Violation),
    shape.Proper → (x ∈ shape.violations path v ↔
      ∃ steps b, Violates shape.toSchema v steps b ∧ x = ⟨steps.reverse ++ path, b⟩)
  | .text, path, v, x, _ => by
    rw [exists_violates_of_no_part rfl rfl, Shape.violations, mem_typeViolation_iff, Shape.toSchema]
    simp only [breaksHere_type_iff, and_assoc, exists_and_left, exists_eq_left]
  | .flag, path, v, x, _ => by
    rw [exists_violates_of_no_part rfl rfl, Shape.violations, mem_typeViolation_iff, Shape.toSchema]
    simp only [breaksHere_type_iff, and_assoc, exists_and_left, exists_eq_left]
  | .oneOf options, path, v, x, _ => by
    rw [exists_violates_of_no_part rfl rfl, Shape.violations, List.mem_append, mem_typeViolation_iff]
    simp only [breaksHere_oneOf_iff, or_and_right, exists_or, and_assoc, exists_and_left,
      exists_eq_left, ← any_same_str_eq_false_iff]
    cases options.any fun o => v.same (.str o) <;> simp
  | .word lo hi, path, v, x, _ => by
    rw [exists_violates_of_no_part rfl rfl]
    simp only [breaksHere_word_iff]
    cases v with
    | str s =>
      rw [Shape.violations_word_str, List.mem_append, List.mem_append, mem_ite_singleton_iff,
        mem_ite_singleton_iff, mem_ite_singleton_iff, List.any_eq_true]
      simp only [JsonType.holds, Json.str.injEq, exists_eq_left', reduceCtorEq, false_and, false_or,
        or_and_right, exists_or, and_assoc, exists_and_left, exists_eq_left, or_assoc, gt_iff_lt]
    | _ => simp [Shape.violations, typeViolation, JsonType.holds]
  | .list n item, path, v, x, hproper => by
    have ih := fun i y => Shape.mem_violations_iff item (.item i :: path) y x hproper
    simp only [violates_list_iff, breaksHere_list_iff]
    cases v with
    | arr xs =>
      rw [Shape.violations_list_arr, List.mem_append, mem_ite_singleton_iff, List.mem_flatMap]
      constructor
      · rintro (⟨hfew, rfl⟩ | ⟨⟨y, i⟩, hy, h⟩)
        · exact ⟨[], _, .inl ⟨rfl, .inr ⟨xs, rfl, hfew, rfl⟩⟩, rfl⟩
        · obtain ⟨rest, b, hrest, rfl⟩ := (ih i y).mp h
          refine ⟨.item i :: rest, b, .inr ⟨xs, i, y, rest, rfl, ?_, rfl, hrest⟩, by simp⟩
          exact List.mem_zipIdx_iff_getElem?.mp hy
      · rintro ⟨steps, b, ⟨rfl, ⟨htype, -⟩ | ⟨ys, hys, hfew, rfl⟩⟩ | ⟨ys, i, y, rest, hys, hy, rfl, h⟩,
          rfl⟩
        · cases htype
        · cases hys
          exact .inl ⟨hfew, rfl⟩
        · cases hys
          refine .inr ⟨⟨y, i⟩, List.mem_zipIdx_iff_getElem?.mpr hy, (ih i y).mpr ⟨rest, b, h, ?_⟩⟩
          simp
    | _ => simp [Shape.violations, typeViolation, JsonType.holds]
  | .record required properties, path, v, x, hproper => by
    obtain ⟨-, hkeys, hproperties⟩ := hproper
    have ih := fun ms => mem_propertyViolations_iff properties path ms x hproperties
    simp only [violates_record_iff hkeys, breaksHere_record_iff]
    cases v with
    | obj ms =>
      rw [Shape.violations_record_obj, List.mem_append, ih, List.mem_map]
      simp only [List.mem_filter, Option.isNone_iff_eq_none]
      constructor
      · rintro (⟨key, ⟨hkey, hnone⟩, rfl⟩ | ⟨key, shape, y, rest, b, hmem, hy, h, rfl⟩)
        · exact ⟨[], _, .inl ⟨rfl, .inr ⟨ms, rfl, key, hkey, hnone, rfl⟩⟩, rfl⟩
        · exact ⟨.key key :: rest, b, .inr ⟨ms, key, shape, y, rest, rfl, hmem, hy, rfl, h⟩, by simp⟩
      · rintro ⟨steps, b, ⟨rfl, ⟨htype, -⟩ | ⟨ns, hns, key, hkey, hnone, rfl⟩⟩ |
          ⟨ns, key, shape, y, rest, hns, hmem, hy, rfl, h⟩, rfl⟩
        · cases htype
        · cases hns
          exact .inl ⟨key, ⟨hkey, hnone⟩, rfl⟩
        · cases hns
          exact .inr ⟨key, shape, y, rest, b, hmem, hy, h, by simp⟩
    | _ => simp [Shape.violations, typeViolation, JsonType.holds]

/-- The violations of properties are those of the schemas at the keys that a value has. -/
theorem mem_propertyViolations_iff : ∀ (properties : List (String × Shape)) (path : List Step)
    (ms : Members) (x : Violation), PropertiesProper properties →
      (x ∈ propertyViolations path ms properties ↔
        ∃ key shape y steps b, (key, shape) ∈ properties ∧ Members.get? ms key = some y ∧
          Violates shape.toSchema y steps b ∧ x = ⟨steps.reverse ++ .key key :: path, b⟩)
  | [], path, ms, x, _ => by simp [propertyViolations]
  | (key, shape) :: r, path, ms, x, hproper => by
    have ih := fun y => Shape.mem_violations_iff shape (.key key :: path) y x hproper.1
    have ihr := mem_propertyViolations_iff r path ms x hproper.2
    rw [propertyViolations, List.mem_append, ihr]
    constructor
    · rintro (h | ⟨key', shape', y, steps, b, hmem, h⟩)
      · cases hy : Members.get? ms key with
        | none =>
          rw [hy] at h
          cases h
        | some y =>
          rw [hy] at h
          obtain ⟨steps, b, h⟩ := (ih y).mp h
          exact ⟨key, shape, y, steps, b, List.mem_cons_self, hy, h⟩
      · exact ⟨key', shape', y, steps, b, List.mem_cons_of_mem _ hmem, h⟩
    · rintro ⟨key', shape', y, steps, b, hmem, hy, h⟩
      rcases List.mem_cons.mp hmem with heq | hmem
      · cases heq
        left
        rw [hy]
        exact (ih y).mpr ⟨steps, b, h⟩
      · exact .inr ⟨key', shape', y, steps, b, hmem, hy, h⟩

end

/-- The steps to a place inside a value tell the parts of the value apart. -/
theorem step_eq_of_append_eq {a b : List Step} {s t : Step} (h : a ++ s :: path = b ++ t :: path) :
    s = t := by
  have hpath : (a ++ [s]) ++ path = (b ++ [t]) ++ path := by simpa using h
  have hlast : a ++ [s] = b ++ [t] := List.append_cancel_right hpath
  exact (List.cons.inj (List.append_inj' hlast rfl).2).1

theorem append_cons_ne_self {a : List Step} {s : Step} : a ++ s :: path ≠ path := by
  intro h
  have hlength := congrArg List.length h
  simp only [List.length_append, List.length_cons] at hlength
  omega

theorem Shape.path_of_mem_violations {shape : Shape} (hproper : shape.Proper)
    (hx : x ∈ shape.violations path v) : ∃ inner, x.path = inner ++ path := by
  obtain ⟨steps, b, -, rfl⟩ := (Shape.mem_violations_iff shape path v x hproper).mp hx
  exact ⟨steps.reverse, rfl⟩

theorem path_of_mem_propertyViolations {properties : List (String × Shape)} {ms : Members}
    (hproper : PropertiesProper properties) (hx : x ∈ propertyViolations path ms properties) :
    ∃ inner, ∃ key ∈ properties.map Prod.fst, x.path = inner ++ .key key :: path := by
  obtain ⟨key, shape, y, steps, b, hmem, -, -, rfl⟩ :=
    (mem_propertyViolations_iff properties path ms x hproper).mp hx
  exact ⟨steps.reverse, key, List.mem_map_of_mem hmem, rfl⟩

theorem nodup_ite_singleton {p : Prop} [Decidable p] {α : Type} {a : α} :
    (if p then [a] else []).Nodup := by
  by_cases hp : p <;> simp [hp]

theorem nodup_typeViolation {t : JsonType} : (typeViolation path t v).Nodup := by
  unfold typeViolation
  cases t.holds v <;> simp

theorem pairwise_index_ne {α : Type} (xs : List α) :
    xs.zipIdx.Pairwise fun a b => a.2 ≠ b.2 := by
  have hnodup : (xs.zipIdx.map Prod.snd).Nodup := by
    rw [List.zipIdx_map_snd]
    exact List.nodup_range'
  exact List.pairwise_map.mp hnodup

mutual

/-- **A shape has no violation twice.** -/
theorem Shape.nodup_violations : ∀ (shape : Shape) (path : List Step) (v : Json), shape.Proper →
    (shape.violations path v).Nodup
  | .text, path, v, _ => nodup_typeViolation
  | .flag, path, v, _ => nodup_typeViolation
  | .oneOf options, path, v, _ => by
    rw [Shape.violations]
    refine List.nodup_append.mpr ⟨nodup_typeViolation, ?_, ?_⟩
    · split <;> simp
    · intro x hx y hy
      obtain ⟨-, rfl⟩ := mem_typeViolation_iff.mp hx
      split at hy <;> simp_all
  | .word lo hi, path, v, _ => by
    cases v with
    | str s =>
      rw [Shape.violations_word_str]
      split <;> split <;> split <;> simp
    | _ => simp [Shape.violations, typeViolation, JsonType.holds]
  | .list n item, path, v, hproper => by
    have hitem : item.Proper := hproper
    cases v with
    | arr xs =>
      rw [Shape.violations_list_arr]
      refine List.nodup_append.mpr ⟨nodup_ite_singleton, List.nodup_flatMap.mpr ⟨?_, ?_⟩, ?_⟩
      · rintro ⟨y, i⟩ -
        exact Shape.nodup_violations item (.item i :: path) y hitem
      · refine (pairwise_index_ne xs).imp ?_
        rintro ⟨y, i⟩ ⟨z, j⟩ hne x hx hx'
        obtain ⟨a, ha⟩ := Shape.path_of_mem_violations hitem hx
        obtain ⟨b, hb⟩ := Shape.path_of_mem_violations hitem hx'
        exact hne (Step.item.inj (step_eq_of_append_eq (ha.symm.trans hb)))
      · intro x hx y hy
        obtain ⟨-, rfl⟩ := mem_ite_singleton_iff.mp hx
        obtain ⟨⟨z, i⟩, -, hz⟩ := List.mem_flatMap.mp hy
        obtain ⟨a, ha⟩ := Shape.path_of_mem_violations hitem hz
        rintro rfl
        exact append_cons_ne_self ha.symm
    | _ => simp [Shape.violations, typeViolation, JsonType.holds]
  | .record required properties, path, v, hproper => by
    obtain ⟨hrequired, hkeys, hproperties⟩ := hproper
    cases v with
    | obj ms =>
      rw [Shape.violations_record_obj]
      refine List.nodup_append.mpr ⟨?_, nodup_propertyViolations properties path ms hproperties hkeys,
        ?_⟩
      · refine List.Nodup.map ?_ (hrequired.filter _)
        intro key key' h
        simpa using h
      · intro x hx y hy
        obtain ⟨key, -, rfl⟩ := List.mem_map.mp hx
        obtain ⟨a, key', -, ha⟩ := path_of_mem_propertyViolations hproperties hy
        rintro rfl
        exact append_cons_ne_self ha.symm
    | _ => simp [Shape.violations, typeViolation, JsonType.holds]

/-- Properties have no violation twice. -/
theorem nodup_propertyViolations : ∀ (properties : List (String × Shape)) (path : List Step)
    (ms : Members), PropertiesProper properties → (properties.map Prod.fst).Nodup →
      (propertyViolations path ms properties).Nodup
  | [], _, _, _, _ => List.nodup_nil
  | (key, shape) :: r, path, ms, hproper, hkeys => by
    obtain ⟨hkey, hr⟩ := List.nodup_cons.mp hkeys
    rw [propertyViolations]
    refine List.nodup_append.mpr ⟨?_, nodup_propertyViolations r path ms hproper.2 hr, ?_⟩
    · cases Members.get? ms key with
      | none => exact List.nodup_nil
      | some y => exact Shape.nodup_violations shape (.key key :: path) y hproper.1
    · intro x hx y hy
      obtain ⟨b, key', hmem, hb⟩ := path_of_mem_propertyViolations hproper.2 hy
      rintro rfl
      cases hget : Members.get? ms key with
      | none =>
        rw [hget] at hx
        cases hx
      | some z =>
        rw [hget] at hx
        obtain ⟨a, ha⟩ := Shape.path_of_mem_violations hproper.1 hx
        obtain rfl := Step.key.inj (step_eq_of_append_eq (ha.symm.trans hb))
        exact hkey hmem

end

end Violations

/-! ### Values that conform -/

section Conforms

variable {v : Json}

theorem conforms_iff_of_no_part {schema : Json} (hproperties : schema.member? "properties" = none)
    (hitems : schema.member? "items" = none) :
    Conforms schema v ↔ ∀ b, ¬ BreaksHere schema v b := by
  unfold Conforms
  simp only [violates_iff_of_no_part hproperties hitems]
  exact ⟨fun h b hbreaks => h [] b ⟨rfl, hbreaks⟩, fun h _ b hbreaks => h b hbreaks.2⟩

theorem conforms_type_iff {t : JsonType} :
    Conforms (.obj [("type", .str t.name)]) v ↔ t.holds v = true := by
  rw [conforms_iff_of_no_part rfl rfl]
  simp only [breaksHere_type_iff]
  cases t.holds v <;> simp

theorem conforms_oneOf_iff {options : List String} :
    Conforms (Shape.oneOf options).toSchema v ↔ ∃ o ∈ options, v = .str o := by
  rw [conforms_iff_of_no_part rfl rfl]
  simp only [breaksHere_oneOf_iff]
  constructor
  · intro h
    by_contra hnone
    exact h _ (.inr ⟨fun o ho he => hnone ⟨o, ho, he⟩, rfl⟩)
  · rintro ⟨o, ho, rfl⟩ b (⟨htype, -⟩ | ⟨hne, -⟩)
    · cases htype
    · exact hne o ho rfl

theorem conforms_word_iff {lo hi : Nat} :
    Conforms (Shape.word lo hi).toSchema v ↔
      ∃ s, v = .str s ∧ (∀ c ∈ s.toList, isPatternBlank c = false) ∧ lo ≤ s.length ∧ s.length ≤ hi := by
  rw [conforms_iff_of_no_part rfl rfl]
  simp only [breaksHere_word_iff]
  constructor
  · intro h
    cases v with
    | str s =>
      refine ⟨s, rfl, fun c hc => ?_, ?_, ?_⟩
      · by_contra hblank
        exact h _ (.inr ⟨s, rfl, .inl ⟨⟨c, hc, by simpa using hblank⟩, rfl⟩⟩)
      · by_contra hshort
        exact h _ (.inr ⟨s, rfl, .inr (.inl ⟨by omega, rfl⟩)⟩)
      · by_contra hlong
        exact h _ (.inr ⟨s, rfl, .inr (.inr ⟨by omega, rfl⟩)⟩)
    | _ => exact (h _ (.inl ⟨rfl, rfl⟩)).elim
  · rintro ⟨s, rfl, hblank, hlo, hhi⟩ b
      (⟨htype, -⟩ | ⟨s', he, ⟨⟨c, hc, hb⟩, -⟩ | ⟨hlt, -⟩ | ⟨hlt, -⟩⟩)
    · cases htype
    · cases he
      rw [hblank c hc] at hb
      cases hb
    · cases he
      omega
    · cases he
      omega

theorem conforms_list_iff {n : Nat} {item : Shape} :
    Conforms (Shape.list n item).toSchema v ↔
      ∃ xs, v = .arr xs ∧ n ≤ xs.length ∧ ∀ x ∈ xs, Conforms item.toSchema x := by
  unfold Conforms
  simp only [violates_list_iff, breaksHere_list_iff]
  constructor
  · intro h
    cases v with
    | arr xs =>
      refine ⟨xs, rfl, ?_, fun x hx steps b hviolates => ?_⟩
      · by_contra hfew
        exact h [] _ (.inl ⟨rfl, .inr ⟨xs, rfl, by omega, rfl⟩⟩)
      · obtain ⟨i, hi⟩ := List.getElem?_of_mem hx
        exact h _ _ (.inr ⟨xs, i, x, steps, rfl, hi, rfl, hviolates⟩)
    | _ => exact (h [] _ (.inl ⟨rfl, .inl ⟨rfl, rfl⟩⟩)).elim
  · rintro ⟨xs, rfl, hn, hitems⟩ steps b
      (⟨-, ⟨htype, -⟩ | ⟨ys, he, hlt, -⟩⟩ | ⟨ys, i, y, rest, he, hy, -, hviolates⟩)
    · cases htype
    · cases he
      omega
    · cases he
      exact hitems y (List.mem_of_getElem? hy) _ _ hviolates

theorem conforms_record_iff {required : List String} {properties : List (String × Shape)}
    (hkeys : (properties.map Prod.fst).Nodup) :
    Conforms (Shape.record required properties).toSchema v ↔
      ∃ ms, v = .obj ms ∧ (∀ key ∈ required, ∃ x, Members.get? ms key = some x) ∧
        ∀ key shape x, (key, shape) ∈ properties → Members.get? ms key = some x →
          Conforms shape.toSchema x := by
  unfold Conforms
  simp only [violates_record_iff hkeys, breaksHere_record_iff]
  constructor
  · intro h
    cases v with
    | obj ms =>
      refine ⟨ms, rfl, fun key hkey => ?_, fun key shape x hmem hx steps b hviolates => ?_⟩
      · cases hget : Members.get? ms key with
        | some x => exact ⟨x, rfl⟩
        | none => exact (h [] _ (.inl ⟨rfl, .inr ⟨ms, rfl, key, hkey, hget, rfl⟩⟩)).elim
      · exact h _ _ (.inr ⟨ms, key, shape, x, steps, rfl, hmem, hx, rfl, hviolates⟩)
    | _ => exact (h [] _ (.inl ⟨rfl, .inl ⟨rfl, rfl⟩⟩)).elim
  · rintro ⟨ms, rfl, hrequired, hproperties⟩ steps b
      (⟨-, ⟨htype, -⟩ | ⟨ns, he, key, hkey, hnone, -⟩⟩ |
        ⟨ns, key, shape, y, rest, he, hmem, hy, -, hviolates⟩)
    · cases htype
    · cases he
      obtain ⟨x, hx⟩ := hrequired key hkey
      exact nomatch hnone.symm.trans hx
    · cases he
      exact hproperties key shape y hmem hy _ _ hviolates

end Conforms

/-! ### The document -/

/-- The schema of settings. -/
def settingsSchema : Json :=
  .obj [("$schema", .str "http://json-schema.org/draft-04/schema#"), ("title", .str "KPI settings"),
    ("type", .str "object"), ("required", .texts ["based_on", "kpi_definitions"]),
    ("properties", .obj [
      ("based_on", .obj [("type", .str "string"),
        ("enum", .texts ["overall", "session", "easy_id", "member_id"])]),
      ("kpi_definitions", .obj [("type", .str "array"), ("minItems", .int 1),
        ("items", .obj [("type", .str "object"),
          ("required", .texts ["kpi_definition_name", "main_kpi"]),
          ("properties", .obj [
            ("kpi_definition_name", .obj [("type", .str "string"), ("pattern", .str "^\\S*$"),
              ("minLength", .int 5), ("maxLength", .int 200)]),
            ("main_kpi", .obj [("type", .str "boolean")]),
            ("kpi_type", .obj [("type", .str "string"),
              ("enum", .texts ["conversion", "click", "clickThroughConversion", "custom"])]),
            ("pattern_name", .obj [("type", .str "string")]),
            ("kpi_conditions", .obj [("type", .str "array"),
              ("items", .obj [("type", .str "object"), ("required", .texts ["condition_type"]),
                ("properties", .obj [
                  ("condition_type", .obj [("type", .str "string"),
                    ("enum", .texts ["url", "custom_parameter", "add_to_cart", "conversion_url",
                      "conversion_custom_parameter", "conversion_add_to_cart", "r2d2"])]),
                  ("conditions", .obj [("type", .str "array"),
                    ("items", .obj [("type", .str "object"),
                      ("properties", .obj [
                        ("operator", .obj [("type", .str "string"),
                          ("enum", .texts ["equal", "starts_with", "ends_with", "like"])]),
                        ("domain", .obj [("type", .str "string")]),
                        ("paths", .obj [("type", .str "array"),
                          ("items", .obj [("type", .str "string")])])])])])])])])])])])])]

theorem settingsShape_proper : settingsShape.Proper := by
  simp [settingsShape, definitionShape, conditionGroupShape, subConditionShape, Shape.Proper,
    PropertiesProper]

/-- The schema of settings is that of their shape, with a title. -/
theorem settingsSchema_eq : ∃ ms, settingsShape.toSchema = .obj ms ∧
    settingsSchema = .obj (("$schema", .str "http://json-schema.org/draft-04/schema#") ::
      ("title", .str "KPI settings") :: ms) :=
  ⟨_, rfl, rfl⟩

theorem violates_settingsSchema_iff {v : Json} {steps : List Step} {b : Broken} :
    Violates settingsSchema v steps b ↔ Violates settingsShape.toSchema v steps b := by
  obtain ⟨ms, hshape, hschema⟩ := settingsSchema_eq
  have heq : ∀ keyword ∈ ["type", "enum", "required", "pattern", "minLength", "maxLength", "minItems",
      "properties", "items"], settingsSchema.member? keyword =
        settingsShape.toSchema.member? keyword := by
    rw [hshape, hschema]
    intro keyword hkeyword
    have hschema : (keyword == "$schema") = false ∧ (keyword == "title") = false := by
      revert keyword
      decide
    rw [Json.member?, Json.member?, Members.get?, Members.get?, List.lookup_cons, List.lookup_cons,
      hschema.1, hschema.2]
  exact ⟨fun h => h.congr fun k hk => (heq k hk).symm, fun h => h.congr heq⟩

end ExperimentKpi

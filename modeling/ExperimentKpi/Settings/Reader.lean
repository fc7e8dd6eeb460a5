/-
# Reading settings

Settings are read from a document's tree. Members without a meaning are ignored at the top level and
kept in definitions and condition groups. A member with a meaning may stand only once; a name from a
fixed list may also be written as an object with that one key and null; and the two members of the
top level may also stand in an array.

A limit bounds the nesting of the whole document, of which only the kept values need to be looked
at: what is ignored may nest as it likes.

Key definitions: `Settings.ofRaw?`, `Settings.ofJson?`, `Settings.ofText?`.
-/
import ExperimentKpi.Json.Raw
import ExperimentKpi.Settings.Basic

namespace ExperimentKpi

namespace RawJson

/-- The text of a string. -/
def text? : RawJson → Option String
  | str s => s
  | _ => none

/-- The truth value of a boolean. -/
def bool? : RawJson → Option Bool
  | bool b => some b
  | _ => none

/-- The items of an array. -/
def items? : RawJson → Option (List RawJson)
  | arr items => some items
  | _ => none

/-- The members of an object. -/
def members? : RawJson → Option (List (Option String × RawJson))
  | obj ms => some ms
  | _ => none

/-- The name in a string, or in an object with that one key and null. -/
def name? : RawJson → Option String
  | str s => s
  | obj [(k, null)] => k
  | _ => none

/-- A value of a fixed list of named ones. -/
def named? {α : Type} (names : List (String × α)) (v : RawJson) : Option α :=
  v.name?.bind fun name => names.lookup name

end RawJson

/-- The members of an object that has not yet been read. -/
abbrev RawMembers := List (Option String × RawJson)

namespace RawMembers

/-- The values at a key, one per occurrence. -/
def valuesAt (ms : RawMembers) (key : String) : List RawJson :=
  (ms.filter fun m => m.1 == some key).map Prod.snd

/-- The value of a member that must stand exactly once. -/
def required? {α : Type} (ms : RawMembers) (key : String) (read : RawJson → Option α) : Option α :=
  match ms.valuesAt key with
  | [v] => read v
  | _ => none

/-- The value of a member that may be missing, where `absent` stands for it. -/
def withDefault? {α : Type} (ms : RawMembers) (key : String) (absent : α)
    (read : RawJson → Option α) : Option α :=
  match ms.valuesAt key with
  | [] => some absent
  | [v] => read v
  | _ => none

/-- The value of a member that may be missing or null. -/
def optional? {α : Type} (ms : RawMembers) (key : String) (read : RawJson → Option α) :
    Option (Option α) :=
  ms.withDefault? key none fun v =>
    match v with
    | .null => some none
    | _ => (read v).map some

/-- The members at other keys than the given ones, as values that nest at most `limit` deep. -/
def others? (ms : RawMembers) (known : List String) (limit : Nat) : Option Members :=
  (RawJson.membersToJson? limit
    (ms.filter fun m => !(m.1.any (known.contains ·)))).map Members.ofEntries

end RawMembers

namespace ConditionGroup

/-- The keys that have a meaning in a group. -/
def knownKeys : List String := ["condition_type", "conditions"]

/-- The group that a tree spells, its kept values nesting at most `limit` deep. -/
def ofRaw? (limit : Nat) (v : RawJson) : Option ConditionGroup := do
  let ms : RawMembers ← v.members?
  let type ← ms.required? "condition_type" (RawJson.named? ConditionType.names)
  let conditions ← ms.withDefault? "conditions" [] fun c =>
    c.items?.bind (RawJson.itemsToJson? (limit - 1))
  let extra ← ms.others? knownKeys limit
  return ⟨type, conditions, extra⟩

end ConditionGroup

namespace Definition

/-- The keys that have a meaning in a definition. -/
def knownKeys : List String :=
  ["kpi_definition_name", "main_kpi", "kpi_type", "pattern_name", "pattern_id", "kpi_conditions"]

/-- The definition that a tree spells, its kept values nesting at most `limit` deep. -/
def ofRaw? (limit : Nat) (v : RawJson) : Option Definition := do
  let ms : RawMembers ← v.members?
  let name ← ms.required? "kpi_definition_name" RawJson.text?
  let isMain ← ms.required? "main_kpi" RawJson.bool?
  let type ← ms.optional? "kpi_type" (RawJson.named? KpiType.names)
  let patternName ← ms.optional? "pattern_name" RawJson.text?
  let patternId ← ms.optional? "pattern_id" RawJson.text?
  let conditions ← ms.withDefault? "kpi_conditions" [] fun c =>
    c.items?.bind (·.mapM (ConditionGroup.ofRaw? (limit - 2)))
  let extra ← ms.others? knownKeys limit
  return ⟨name, isMain, type, patternName, patternId, conditions, extra⟩

end Definition

namespace Settings

/-- The settings with a unit and definitions that trees spell. -/
def ofParts? (limit : Nat) (basedOn definitions : RawJson) : Option Settings := do
  let basedOn ← basedOn.named? BasedOn.names
  let definitions ← definitions.items?.bind (·.mapM (Definition.ofRaw? (limit - 3)))
  return ⟨basedOn, definitions⟩

/-- The settings that a tree spells: an object, or an array of the two parts. -/
def ofRaw? (limit : Nat) : RawJson → Option Settings
  | .obj members => do
    let ms : RawMembers := members
    guard (ms.all fun m => m.1.isSome)
    let basedOn ← ms.required? "based_on" some
    let definitions ← ms.required? "kpi_definitions" some
    ofParts? limit basedOn definitions
  | .arr [basedOn, definitions] => ofParts? limit basedOn definitions
  | _ => none

/-- The settings that a value spells. -/
def ofJson? (v : Json) : Option Settings :=
  ofRaw? v.nesting v.toRaw

/-- The settings that a text spells. -/
def ofText? (s : String) : Option Settings :=
  (RawJson.parse? s).bind (ofRaw? Json.nestingLimit)

end Settings

end ExperimentKpi

/-
# The schema of settings

The shape that a body must have before it is read as settings. A shape is a small schema language:
a type, a fixed list of texts, texts of a length and without blanks, arrays and objects with shapes
for their parts. A value has one violation for every keyword that it breaks at every place, each
with the path to the place.

Key definitions: `Shape`, `Violation`, `Shape.violations`, `settingsShape`, `Violation.message`.
-/
import ExperimentKpi.Json.Printer

namespace ExperimentKpi

/-- The types of JSON values that shapes ask for. -/
inductive JsonType where
  | object
  | array
  | string
  | boolean
deriving DecidableEq, Repr

/-- The name of a type. -/
def JsonType.name : JsonType → String
  | object => "object"
  | array => "array"
  | string => "string"
  | boolean => "boolean"

/-- Whether a value is of a type. -/
def JsonType.holds : JsonType → Json → Bool
  | object, .obj _ => true
  | array, .arr _ => true
  | string, .str _ => true
  | boolean, .bool _ => true
  | _, _ => false

/-- A required shape of values. -/
inductive Shape where
  /-- Any text. -/
  | text
  /-- One of some texts. -/
  | oneOf (options : List String)
  /-- A text without blanks whose length is within bounds. -/
  | word (minLength maxLength : Nat)
  /-- A truth value. -/
  | flag
  /-- A list of a least length whose items have a shape. -/
  | list (minItems : Nat) (item : Shape)
  /-- An object with some required keys and shapes for the members at some keys. -/
  | record (required : List String) (properties : List (String × Shape))

/-- A keyword that a value breaks. -/
inductive Broken where
  | type (v : Json) (expected : JsonType)
  | option (v : Json) (options : List String)
  | missing (key : String)
  | blank (text : String)
  | short (text : String) (minLength : Nat)
  | long (text : String) (maxLength : Nat)
  | few (v : Json) (minItems : Nat)

/-- One step of the way to a place inside a value. -/
inductive Step where
  | key (name : String)
  | item (index : Nat)

/-- A broken keyword and the way to the value that breaks it, the last step first. -/
structure Violation where
  path : List Step
  broken : Broken

/-- The blanks that a pattern's class of white space knows; it is narrower than the Unicode
property. -/
def isPatternBlank (c : Char) : Bool :=
  let n := c.toNat
  n == 0x20 || (9 ≤ n && n ≤ 13) || n == 0xa0 || n == 0xfeff || n == 0x2003 || n == 0x2029

/-- The keyword that a type breaks. -/
def typeViolation (path : List Step) (t : JsonType) (v : Json) : List Violation :=
  if t.holds v then [] else [⟨path, .type v t⟩]

mutual

/-- The violations of a shape by the value at a path. -/
def Shape.violations (path : List Step) (v : Json) : Shape → List Violation
  | .text => typeViolation path .string v
  | .flag => typeViolation path .boolean v
  | .oneOf options =>
    typeViolation path .string v ++
      (if options.any (fun o => v.same (.str o)) then [] else [⟨path, .option v options⟩])
  | .word minLength maxLength =>
    typeViolation path .string v ++
      match v with
      | .str s =>
        (if s.toList.any isPatternBlank then [⟨path, .blank s⟩] else []) ++
          (if s.length < minLength then [⟨path, .short s minLength⟩] else []) ++
          (if s.length > maxLength then [⟨path, .long s maxLength⟩] else [])
      | _ => []
  | .list minItems item =>
    typeViolation path .array v ++
      match v with
      | .arr items =>
        (if items.length < minItems then [⟨path, .few v minItems⟩] else []) ++
          (items.zipIdx.flatMap fun (x, i) => item.violations (.item i :: path) x)
      | _ => []
  | .record required properties =>
    typeViolation path .object v ++
      match v with
      | .obj members =>
        ((required.filter fun key => (Members.get? members key).isNone).map fun key =>
          ⟨path, .missing key⟩) ++
          propertyViolations path members properties
      | _ => []

/-- The violations of the shapes of properties by the members at their keys. -/
def propertyViolations (path : List Step) (members : Members) :
    List (String × Shape) → List Violation
  | [] => []
  | (key, shape) :: r =>
    (match Members.get? members key with
      | some v => shape.violations (.key key :: path) v
      | none => []) ++ propertyViolations path members r

end

/-- The shape of one part of a sub-condition's list. -/
def subConditionShape : Shape :=
  .record []
    [("operator", .oneOf ["equal", "starts_with", "ends_with", "like"]), ("domain", .text),
      ("paths", .list 0 .text)]

/-- The shape of a group of conditions. -/
def conditionGroupShape : Shape :=
  .record ["condition_type"]
    [("condition_type",
        .oneOf ["url", "custom_parameter", "add_to_cart", "conversion_url",
          "conversion_custom_parameter", "conversion_add_to_cart", "r2d2"]),
      ("conditions", .list 0 subConditionShape)]

/-- The shape of a definition. -/
def definitionShape : Shape :=
  .record ["kpi_definition_name", "main_kpi"]
    [("kpi_definition_name", .word 5 200), ("main_kpi", .flag),
      ("kpi_type", .oneOf ["conversion", "click", "clickThroughConversion", "custom"]),
      ("pattern_name", .text), ("kpi_conditions", .list 0 conditionGroupShape)]

/-- The shape of settings. -/
def settingsShape : Shape :=
  .record ["based_on", "kpi_definitions"]
    [("based_on", .oneOf ["overall", "session", "easy_id", "member_id"]),
      ("kpi_definitions", .list 1 definitionShape)]

/-- The text of a step. -/
def Step.text : Step → String
  | key name => "/" ++ name
  | item index => "/" ++ toString index

/-- The wording of a broken keyword. -/
def Broken.message : Broken → String
  | type v expected => v.compact ++ " is not of type \"" ++ expected.name ++ "\""
  | option v options =>
    v.compact ++ " is not one of " ++ (Json.arr (options.map Json.str)).compact
  | missing key => "\"" ++ key ++ "\" is a required property"
  | blank text => (Json.str text).compact ++ " does not match \"^\\S*$\""
  | short text n => (Json.str text).compact ++ " is shorter than " ++ toString n ++ " characters"
  | long text n => (Json.str text).compact ++ " is longer than " ++ toString n ++ " characters"
  | few v n => v.compact ++ " has less than " ++ toString n ++ (if n = 1 then " item" else " items")

/-- The wording of a violation, behind the path unless the place is the whole value. -/
def Violation.message (v : Violation) : String :=
  match v.path with
  | [] => v.broken.message
  | path => String.join (path.reverse.map Step.text) ++ " " ++ v.broken.message

end ExperimentKpi

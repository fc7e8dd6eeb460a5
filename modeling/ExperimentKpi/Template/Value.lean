/-
# Values in templates

What conditions and outputs make of JSON values: their truth, equality by numeric value, membership,
the text of a scalar, and the filters.

Key definitions: `Template.truthy`, `Template.valuesEqual`, `Template.contains`,
`Template.scalarText`, `Template.Filter.apply`, `Template.Comparison.holds`.
-/
import ExperimentKpi.Template.Tree
import ExperimentKpi.Text.Case

namespace ExperimentKpi.Template

/-- Null, false, zero and everything empty is false; all else is true. -/
def truthy : Json → Bool
  | .null => false
  | .bool b => b
  | .num n => !n.isZero
  | .str s => !s.isEmpty
  | .arr items => !items.isEmpty
  | .obj members => !members.isEmpty

/-- Equality of two values; two numbers are equal when their nearest binary64 numbers are. -/
def valuesEqual : Json → Json → Bool
  | .num a, .num b => a.equalValue b
  | v, w => v.same w

/-- Whether the characters `part` stand in a row somewhere in a text. -/
def occursIn (part : List Char) : List Char → Bool
  | [] => part.isEmpty
  | c :: r => part.isPrefixOf (c :: r) || occursIn part r

/-- Whether a list holds a value, a text holds a part, or an object holds a key. -/
def contains : Json → Json → Bool
  | .arr items, needle => items.any fun item => valuesEqual item needle
  | .str s, .str part => occursIn part.toList s.toList
  | .obj members, .str key => (Members.get? members key).isSome
  | _, _ => false

/-- Whether a comparison holds between two values. -/
def Comparison.holds : Comparison → Json → Json → Bool
  | eq, v, w => valuesEqual v w
  | ne, v, w => !valuesEqual v w
  | isIn, v, w => contains w v
  | notIn, v, w => !contains w v

/-- The text of a value that is neither an array nor an object; null has an empty one. -/
def scalarText (label : String) : Json → Except RenderError (List Char)
  | .null => .ok []
  | .bool true => .ok ['t', 'r', 'u', 'e']
  | .bool false => .ok ['f', 'a', 'l', 's', 'e']
  | .num n => .ok n.text
  | .str s => .ok s.toList
  | .arr _ => .error (.notPrintable label .array)
  | .obj _ => .error (.notPrintable label .object)

/-- The texts of a list's items with a separator between them. -/
def joined (label separator : String) (items : List Json) : Except RenderError String := do
  let texts ← items.mapM (scalarText label)
  return String.ofList (List.intercalate separator.toList texts)

/-- The length of a list, an object or a text; null has length zero. -/
def length? : Json → Option Nat
  | .null => some 0
  | .arr items => some items.length
  | .obj members => some members.length
  | .str s => some s.length
  | _ => none

/-- The value that a filter makes of a value. -/
def Filter.apply (label : String) (v : Json) : Filter → Except RenderError Json
  | fallback text => .ok (match v with | .null => .str text | _ => v)
  | length =>
    match length? v with
    | some n => .ok (.int n)
    | none => .error (.badFilterInput "length" label)
  | join separator =>
    match v with
    | .null => .ok (.str "")
    | .arr items => (joined label separator items).map .str
    | _ => .error (.badFilterInput "join" label)
  | lower => (scalarText label v).map fun s => .str (Text.lower (String.ofList s))
  | upper => (scalarText label v).map fun s => .str (Text.upper (String.ofList s))

end ExperimentKpi.Template

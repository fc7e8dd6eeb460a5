/-
# JSON values

Values of documents. An object is the list of its members in the order in which they were written;
in a well-formed value no key occurs twice, which `put` and `ofEntries` keep. Equality of values
(`same`) does not see the order of members and tells integers from floats.

Key definitions: `Json`, `Members.get?`, `Members.put`, `Members.ofEntries`, `Json.same`,
`Json.WellFormed`, `Json.nesting`.
-/
import ExperimentKpi.Number.Basic

namespace ExperimentKpi

/-- A JSON value. -/
inductive Json where
  | null
  | bool (value : Bool)
  | num (value : Number)
  | str (value : String)
  | arr (items : List Json)
  | obj (members : List (String × Json))

/-- The members of an object, in order. -/
abbrev Members := List (String × Json)

namespace Members

/-- The value at a key. -/
def get? (ms : Members) (key : String) : Option Json :=
  ms.lookup key

/-- The members with `value` at `key`: in the place of the key if it is there, else at the end. -/
def put (key : String) (value : Json) : Members → Members
  | [] => [(key, value)]
  | (k, v) :: r => if k = key then (k, value) :: r else (k, v) :: put key value r

/-- The members that entries leave when each is put in turn: a repeated key keeps its first place
and its last value. -/
def ofEntries (entries : List (String × Json)) : Members :=
  entries.foldl (fun ms (k, v) => put k v ms) []

/-- The keys, in order. -/
def keys (ms : Members) : List String :=
  ms.map Prod.fst

theorem get?_put_self (key : String) (value : Json) (ms : Members) :
    (put key value ms).get? key = some value := by
  induction ms with
  | nil => simp [put, get?]
  | cons m r ih =>
    obtain ⟨k, v⟩ := m
    by_cases h : k = key
    · simp [put, get?, h]
    · have h' : (key == k) = false := by simpa using fun e => h e.symm
      simpa [put, get?, h, List.lookup_cons, h'] using ih

theorem get?_put_of_ne {key other : String} (value : Json) (ms : Members) (h : other ≠ key) :
    (put key value ms).get? other = ms.get? other := by
  induction ms with
  | nil =>
    have h' : (other == key) = false := by simpa using h
    simp [put, get?, List.lookup_cons, h']
  | cons m r ih =>
    obtain ⟨k, v⟩ := m
    by_cases hk : k = key
    · subst hk
      have h' : (other == k) = false := by simpa using h
      simp [put, get?, List.lookup_cons, h']
    · simp only [put, hk, if_false, get?, List.lookup_cons] at ih ⊢
      split
      · rfl
      · exact ih

end Members

namespace Json

/-- An integer as a value. -/
def int (z : Int) : Json := num (.int z)

/-- Texts as a list. -/
def texts (texts : List String) : Json :=
  arr (texts.map str)

/-- The member of an object at a key; nothing else has members. -/
def member? (key : String) : Json → Option Json
  | obj ms => Members.get? ms key
  | _ => none

mutual

/-- Equality of values, blind to the order of members. -/
def same : Json → Json → Bool
  | null, null => true
  | bool a, bool b => a == b
  | num a, num b => a.same b
  | str a, str b => a == b
  | arr xs, arr ys => sameItems xs ys
  | obj ms, obj ns => ms.length == ns.length && sameMembers ms ns
  | _, _ => false

/-- Equality of lists of values, item by item. -/
def sameItems : List Json → List Json → Bool
  | [], [] => true
  | x :: xs, y :: ys => same x y && sameItems xs ys
  | _, _ => false

/-- Whether every member of the first list has an equal one at its key in the second. -/
def sameMembers : List (String × Json) → List (String × Json) → Bool
  | [], _ => true
  | (k, v) :: r, ns =>
    (match ns.lookup k with
      | some w => same v w
      | none => false) && sameMembers r ns

end

mutual

/-- No key occurs twice in any object of the value. -/
def WellFormed : Json → Prop
  | arr xs => ItemsWellFormed xs
  | obj ms => (ms.map Prod.fst).Nodup ∧ MembersWellFormed ms
  | _ => True

/-- Every item is well-formed. -/
def ItemsWellFormed : List Json → Prop
  | [] => True
  | x :: xs => WellFormed x ∧ ItemsWellFormed xs

/-- The value of every member is well-formed. -/
def MembersWellFormed : List (String × Json) → Prop
  | [] => True
  | (_, v) :: r => WellFormed v ∧ MembersWellFormed r

end

mutual

/-- How deep arrays and objects nest: zero for a value that is neither. -/
def nesting : Json → Nat
  | arr xs => itemsNesting xs + 1
  | obj ms => membersNesting ms + 1
  | _ => 0

/-- The deepest nesting among items. -/
def itemsNesting : List Json → Nat
  | [] => 0
  | x :: xs => max (nesting x) (itemsNesting xs)

/-- The deepest nesting among the values of members. -/
def membersNesting : List (String × Json) → Nat
  | [] => 0
  | (_, v) :: r => max (nesting v) (membersNesting r)

end

end Json

end ExperimentKpi

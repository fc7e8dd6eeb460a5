/-
# The keys that a dotted path reads

A dotted path spells keys, and from object to object these are to be followed as they are written
(`Leads`). A key that is a number of 64 bits is kept as this number and spelled anew at an object, so a
path follows its keys respelled (`resolvesTo_respelled`). Respelling changes a key just where it starts
with zeros that a number does not need. So the paths over some keys read what these spell, in every
scope, if and only if none of the keys is such a number (`resolvesTo_dotted_iff`); where one is, another
key's value is read (`resolvesTo_zeros`).

Key definitions: `Template.Leads`, `Template.ResolvesTo`, `Template.IsPadded`, `Template.respelled`.
Key theorems: `respelled_eq_iff`, `Leads.foldlM_follow?`, `resolvesTo_respelled`,
`resolvesTo_dotted_iff`.
-/
import ExperimentKpi.Proofs.Template.Condition
import ExperimentKpi.Proofs.Template.FreeNames
import ExperimentKpi.Proofs.Text.Decimal

namespace ExperimentKpi.Template

open Text (isDigit digitsValue)

/-! ### Following keys -/

/-- Following keys from object to object, as they are written, reaches a value, or comes to an object
without the next key. -/
inductive Leads : Json → List (List Char) → Option Json → Prop
  | reached (v : Json) : Leads v [] (some v)
  | step {ms : Members} {key : List Char} {v : Json} {keys : List (List Char)} {r : Option Json} :
      ms.get? (String.ofList key) = some v → Leads v keys r → Leads (.obj ms) (key :: keys) r
  | missing {ms : Members} {key : List Char} {keys : List (List Char)} :
      ms.get? (String.ofList key) = none → Leads (.obj ms) (key :: keys) none

/-- The text is a path, as the source of a loop, as an output and as a condition, and leads to the value;
where it leads to none, it is undefined. -/
def ResolvesTo (scope : Scope) (s : List Char) (r : Option Json) : Prop :=
  ∃ p, Path.ofText s = .ok p ∧ Output.ofText s = .ok ⟨.path p, []⟩ ∧
    Cond.ofText s = .ok (.operand (.path p)) ∧ scope.resolve? p = r

/-! ### Keys that are numbers -/

/-- The key is a number of 64 bits with a zero in front that it does not need. -/
def IsPadded (key : List Char) : Prop :=
  (key.all isDigit = true ∧ digitsValue key < wordSize) ∧ key.head? = some '0' ∧ key ≠ ['0']

instance (key : List Char) : Decidable (IsPadded key) := by
  unfold IsPadded
  infer_instance

/-- A number of 64 bits as it is printed; every other key as it is. -/
def respelled (key : List Char) : List Char :=
  if key.all isDigit = true ∧ digitsValue key < wordSize then Nat.toDigits 10 (digitsValue key)
  else key

/-- Only the number zero is printed with a zero in front. -/
theorem eq_zero_of_head?_toDigits {n : Nat} (h : (Nat.toDigits 10 n).head? = some '0') :
    Nat.toDigits 10 n = ['0'] := by
  have hn : n = 0 := by
    by_contra hn
    exact Text.head?_toDigits hn h
  rw [hn]
  rfl

/-- **Just the keys with superfluous zeros are spelled differently.** -/
theorem respelled_eq_iff {key : List Char} (hne : key ≠ []) :
    respelled key = key ↔ ¬ IsPadded key := by
  unfold respelled IsPadded
  by_cases hnumber : key.all isDigit = true ∧ digitsValue key < wordSize
  · rw [if_pos hnumber]
    constructor
    · rintro heq ⟨-, hzero, hlong⟩
      rw [← heq] at hzero hlong
      exact hlong (eq_zero_of_head?_toDigits hzero)
    · intro hpadded
      by_cases hzero : key.head? = some '0'
      · have hkey : key = ['0'] := by
          by_contra hlong
          exact hpadded ⟨hnumber, hzero, hlong⟩
        rw [hkey]
        decide
      · exact Text.toDigits_digitsValue hnumber.1 hne hzero
  · rw [if_neg hnumber]
    exact iff_of_true rfl fun hpadded => hnumber hpadded.1

/-- At an object a step looks its key up as respelled. -/
theorem Segment.follow?_ofWord (key : List Char) (ms : Members) :
    (Segment.ofWord key).follow? (.obj ms) = ms.get? (String.ofList (respelled key)) := by
  unfold ofWord respelled
  by_cases hnumber : key.all isDigit = true ∧ digitsValue key < wordSize
  · rw [if_pos hnumber, if_pos hnumber]
    show ms.get? (toString (digitsValue key)) = _
    rw [← Nat.toList_repr, String.ofList_toList]
    rfl
  · rw [if_neg hnumber, if_neg hnumber]
    rfl

/-- Steps reach what following their keys respelled reaches. -/
theorem Leads.foldlM_follow? {keys : List (List Char)} {v : Json} {r : Option Json}
    (h : Leads v (keys.map respelled) r) :
    (keys.map Segment.ofWord).foldlM (fun v step => step.follow? v) v = r := by
  induction keys generalizing v with
  | nil =>
    cases h
    rfl
  | cons key keys ih =>
    rw [List.map_cons, List.foldlM_cons]
    cases h with
    | step hget hrest =>
      rw [Segment.follow?_ofWord, hget]
      exact ih hrest
    | missing hget =>
      rw [Segment.follow?_ofWord, hget]
      rfl

/-! ### Paths -/

/-- No reserved name has a dot. -/
theorem not_mem_dot_of_isReserved {name : String} (h : isReserved name = true) :
    '.' ∉ name.toList := by
  have hname : name ∈ ["true", "True", "false", "False", "none", "None", "null", "and", "or", "not",
      "in"] := by
    unfold isReserved literalName? isKeyword at h
    simp only [List.mem_cons, List.not_mem_nil, or_false]
    split at h
    · tauto
    · split at h
      · tauto
      · split at h
        · tauto
        · simp only [Option.isSome_none, Bool.false_or, Bool.or_eq_true, beq_iff_eq] at h
          tauto
  clear h
  revert name
  decide

section

variable {root : List Char} {keys : List (List Char)} {scope : Scope}

/-- A path is reserved only if it is a single reserved name. -/
theorem isReserved_dotted (hfree : isReserved (String.ofList root) = false) :
    isReserved (String.ofList (dotted root keys)) = false := by
  cases keys with
  | nil => simpa [dotted] using hfree
  | cons key keys =>
    by_contra hreserved
    rw [Bool.not_eq_false] at hreserved
    refine not_mem_dot_of_isReserved hreserved ?_
    simp [dotted]

/-- Words with dots between them are read as their path everywhere. -/
theorem resolvesTo_ofWords (hroot : IsName root) (hfree : isReserved (String.ofList root) = false)
    (hkeys : ∀ key ∈ keys, IsNameWord key) {r : Option Json} :
    ResolvesTo scope (dotted root keys) r ↔ scope.resolve? (Path.ofWords root keys) = r := by
  have hread := Path.ofText_dotted hroot hkeys
  constructor
  · rintro ⟨p, hp, -, -, hr⟩
    rw [hread] at hp
    cases hp
    exact hr
  · intro hr
    have hprintable : (Path.ofWords root keys).IsPrintable :=
      Path.isPrintable_ofWords hroot hkeys (isReserved_dotted hfree)
    have hspelled : spell [.name (Path.ofWords root keys).source] = dotted root keys := by
      rw [spell, Word.text, Path.ofWords, String.toList_ofList]
    refine ⟨_, hread, ?_, ?_, hr⟩
    · have := Output.ofText_spell (o := ⟨.path (Path.ofWords root keys), []⟩) hprintable
      rwa [Output.words, List.flatMap_nil, List.append_nil, Operand.words, hspelled] at this
    · have := Cond.ofText_spell (c := .operand (.path (Path.ofWords root keys))) hprintable
        (Nat.zero_le _)
      rwa [Cond.words, Operand.words, hspelled] at this

/-- A name that no loop hides is looked up in the context. -/
theorem resolve?_ofWords (hbindings : scope.bindings.lookup (String.ofList root) = none) :
    scope.resolve? (Path.ofWords root keys) =
      (scope.root.member? (String.ofList root)).bind fun v =>
        (keys.map Segment.ofWord).foldlM (fun v step => step.follow? v) v := by
  rw [Scope.resolve?_eq_bind]
  show (scope.name? (String.ofList root)).bind _ = _
  rw [Scope.name?, hbindings]
  rfl

/-- **A dotted path leads where its keys lead when numbers among them are respelled.** -/
theorem resolvesTo_respelled (hroot : IsName root)
    (hfree : isReserved (String.ofList root) = false) (hkeys : ∀ key ∈ keys, IsNameWord key)
    (hbindings : scope.bindings.lookup (String.ofList root) = none) {r : Option Json}
    (h : Leads scope.root (root :: keys.map respelled) r) :
    ResolvesTo scope (dotted root keys) r := by
  rw [resolvesTo_ofWords hroot hfree hkeys, resolve?_ofWords hbindings]
  generalize scope.root = context at h
  cases h with
  | step hget hrest =>
    rw [Json.member?, hget]
    exact hrest.foldlM_follow?
  | missing hget =>
    rw [Json.member?, hget]
    rfl

/-! ### Objects along a row of keys -/

/-- The value inside of objects with one member each, along the keys. -/
def nest (v : Json) : List (List Char) → Json
  | [] => v
  | key :: keys => .obj [(String.ofList key, nest v keys)]

theorem get?_singleton (key : String) (v : Json) : Members.get? [(key, v)] key = some v := by
  simp [Members.get?]

theorem leads_nest (v : Json) (keys : List (List Char)) : Leads (nest v keys) keys (some v) := by
  induction keys with
  | nil => exact .reached v
  | cons key keys ih => exact .step (get?_singleton _ _) ih

/-- Steps come through objects with one member each only if respelling changes no key. -/
theorem respelled_of_foldlM_nest {v w : Json}
    (h : (keys.map Segment.ofWord).foldlM (fun v step => step.follow? v) (nest v keys) = some w) :
    ∀ key ∈ keys, respelled key = key := by
  induction keys with
  | nil => exact nofun
  | cons key keys ih =>
    rw [List.map_cons, List.foldlM_cons, nest, Segment.follow?_ofWord] at h
    have hkey : respelled key = key := by
      by_contra hne
      have hne' : String.ofList (respelled key) ≠ String.ofList key :=
        fun heq => hne (String.ofList_injective heq)
      rw [Members.get?, List.lookup_cons, beq_false_of_ne hne'] at h
      cases h
    rw [hkey, get?_singleton] at h
    exact List.forall_mem_cons.mpr ⟨hkey, ih h⟩

/-- **The paths over some keys read what the keys spell if and only if none of the keys is a number with
superfluous zeros.** The top-level name is one that no loop hides. -/
theorem resolvesTo_dotted_iff (hroot : IsName root)
    (hfree : isReserved (String.ofList root) = false) (hkeys : ∀ key ∈ keys, IsNameWord key) :
    (∀ (scope : Scope) (r : Option Json), scope.bindings.lookup (String.ofList root) = none →
      Leads scope.root (root :: keys) r → ResolvesTo scope (dotted root keys) r) ↔
    ∀ key ∈ keys, ¬ IsPadded key := by
  constructor
  · intro h
    -- The nested objects are reached, so the steps come through them.
    have hnest := h ⟨nest .null (root :: keys), []⟩ (some .null) rfl (leads_nest _ _)
    rw [resolvesTo_ofWords hroot hfree hkeys, resolve?_ofWords rfl, nest, Json.member?,
      get?_singleton] at hnest
    intro key hkey
    exact (respelled_eq_iff (hkeys key hkey).1).mp (respelled_of_foldlM_nest hnest key hkey)
  · intro h scope r hbindings hleads
    have hsame : keys.map respelled = keys := by
      refine (List.map_congr_left fun key hkey => ?_).trans (List.map_id keys)
      exact (respelled_eq_iff (hkeys key hkey).1).mpr (h key hkey)
    exact resolvesTo_respelled hroot hfree hkeys hbindings (hsame.symm ▸ hleads)

/-- The keys `0`, `10` and `007x` are read as written: none is a number with superfluous zeros. -/
theorem resolvesTo_dotted_numbers :
    IsName ['a'] ∧ isReserved (String.ofList ['a']) = false ∧
      (∀ key ∈ [['0'], ['1', '0'], ['0', '0', '7', 'x']], IsNameWord key) ∧
      ∀ (scope : Scope) (r : Option Json), scope.bindings.lookup (String.ofList ['a']) = none →
        Leads scope.root [['a'], ['0'], ['1', '0'], ['0', '0', '7', 'x']] r →
        ResolvesTo scope (dotted ['a'] [['0'], ['1', '0'], ['0', '0', '7', 'x']]) r :=
  ⟨by decide, by decide, by decide,
    (resolvesTo_dotted_iff (by decide) (by decide) (by decide)).mpr (by decide)⟩

end

/-- An object with the keys `007` and `7`. -/
def zerosContext : Json :=
  .obj [("a", .obj [("007", .str "x"), ("7", .str "y")])]

/-- The keys `a` and `007` lead to one value, and the path `a.007` to another. -/
theorem resolvesTo_zeros :
    IsName ['a'] ∧ isReserved (String.ofList ['a']) = false ∧ IsNameWord ['0', '0', '7'] ∧
      Leads zerosContext [['a'], ['0', '0', '7']] (some (.str "x")) ∧
      ResolvesTo ⟨zerosContext, []⟩ ['a', '.', '0', '0', '7'] (some (.str "y")) ∧
      ¬ ResolvesTo ⟨zerosContext, []⟩ ['a', '.', '0', '0', '7'] (some (.str "x")) := by
  have hname : IsName ['a'] := by decide
  have hfree : isReserved (String.ofList ['a']) = false := by decide
  have hkeys : ∀ key ∈ [['0', '0', '7']], IsNameWord key := by decide
  have hpath : ∀ r, ResolvesTo ⟨zerosContext, []⟩ (dotted ['a'] [['0', '0', '7']]) r ↔
      Scope.resolve? ⟨zerosContext, []⟩ (Path.ofWords ['a'] [['0', '0', '7']]) = r :=
    fun _ => resolvesTo_ofWords hname hfree hkeys
  have hread : ResolvesTo ⟨zerosContext, []⟩ (dotted ['a'] [['0', '0', '7']]) (some (.str "y")) :=
    resolvesTo_respelled hname hfree hkeys rfl (.step rfl (.step rfl (.reached _)))
  refine ⟨hname, hfree, by decide, .step rfl (.step rfl (.reached _)), hread, fun hwritten => ?_⟩
  have heq := (hpath _).mp hread
  rw [(hpath _).mp hwritten, Option.some.injEq, Json.str.injEq] at heq
  exact absurd heq (by decide)

end ExperimentKpi.Template

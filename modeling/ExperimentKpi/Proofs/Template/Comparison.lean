/-
# Comparison of integers in conditions

Conditions compare numbers by their nearest binary64 numbers. An integer that a document or a literal
holds, as an integer or as a float, is compared as this integer rounded to 53 significant bits
(`equalValue_iff`), so two integers are equal in a condition, and one is in a list, if they are after
rounding (`comparedBy_nearest`). Below `2^53` this is equality of the integers. Beyond, different integers
are taken for equal (`compare_neighbours`).

Key definitions: `Number.Holds`, `Json.Holds`, `Template.ComparedBy`.
Key theorems: `Number.equalValue_iff`, `Template.contains_iff`, `Template.comparedBy_nearest`.
-/
import ExperimentKpi.Proofs.Json.NumberText
import ExperimentKpi.Proofs.Number.Integer
import ExperimentKpi.Proofs.Number.Literal
import ExperimentKpi.Template.Render

namespace ExperimentKpi

open Binary64 (nearest unitsPerOne)

namespace Number

/-- The number is an integer that fits 64 bits, with a sign or without. -/
def Holds (n : Number) (z : Int) : Prop :=
  (int z).Fits ∧
    match n with
    | int a => a = z
    | float x => x.units = z * unitsPerOne

/-- Integers of 64 bits do not overflow. -/
theorem units_lt_overflow {z : Int} (h : (int z).Fits) :
    z.natAbs * unitsPerOne < Binary64.overflow := by
  obtain ⟨hlow, hhigh⟩ := h
  have hmax : unitsOf maxWord < Binary64.overflow := by decide +kernel
  have hint : int64Bound ≤ maxWord := by decide
  exact Nat.lt_of_le_of_lt (unitsOf_mono (by omega)) hmax

/-- The nearest binary number of a number that holds an integer is the integer rounded. -/
theorem Holds.units_toBinary64 {n : Number} {z : Int} (h : n.Holds z) :
    n.toBinary64.units = nearest z * unitsPerOne := by
  obtain ⟨hfits, hvalue⟩ := h
  cases n with
  | int a =>
    cases hvalue
    exact Binary64.units_ofInt (units_lt_overflow hfits)
  | float x =>
    rw [Binary64.nearest_of_units hvalue]
    exact hvalue

/-- **Integers are compared as they are rounded.** -/
theorem equalValue_iff {m n : Number} {a b : Int} (hm : m.Holds a) (hn : n.Holds b) :
    m.equalValue n = true ↔ nearest a = nearest b := by
  have hunits : (unitsPerOne : Int) ≠ 0 := Int.natCast_ne_zero.mpr Binary64.unitsPerOne_pos.ne'
  rw [equalValue, Binary64.same_iff, hm.units_toBinary64, hn.units_toBinary64]
  exact Int.mul_eq_mul_right_iff hunits

end Number

instance (z : Int) : Decidable (Number.int z).Fits := by
  unfold Number.Fits
  infer_instance

/-- The value is a number that holds an integer. -/
def Json.Holds (v : Json) (z : Int) : Prop :=
  ∃ n, v = .num n ∧ n.Holds z

namespace Template

theorem valuesEqual_iff {v w : Json} {a b : Int} (hv : v.Holds a) (hw : w.Holds b) :
    valuesEqual v w = true ↔ nearest a = nearest b := by
  obtain ⟨m, rfl, hm⟩ := hv
  obtain ⟨n, rfl, hn⟩ := hw
  exact Number.equalValue_iff hm hn

/-- A list of integers contains those that one of its items is when both are rounded. -/
theorem contains_iff {items : List Json} {v : Json} {a : Int} {bs : List Int}
    (hitems : List.Forall₂ Json.Holds items bs) (hv : v.Holds a) :
    contains (.arr items) v = true ↔ ∃ b ∈ bs, nearest a = nearest b := by
  show (items.any fun item => valuesEqual item v) = true ↔ _
  induction hitems with
  | nil => simp
  | cons hitem _ ih =>
    have hhead := (valuesEqual_iff hitem hv).trans eq_comm
    rw [List.any_cons, Bool.or_eq_true, hhead, ih]
    simp only [List.mem_cons, exists_eq_or_imp]

/-- What four comparisons make of the integers that two operands hold and the list that a third one
holds: they look at the integers through a relation. -/
structure ComparedBy (r : Int → Int → Prop) (scope : Scope) (x y z : Operand) (a b : Int)
    (bs : List Int) : Prop where
  eq : (Cond.compare x .eq y).holds scope = true ↔ r a b
  ne : (Cond.compare x .ne y).holds scope = true ↔ ¬ r a b
  isIn : (Cond.compare x .isIn z).holds scope = true ↔ ∃ c ∈ bs, r a c
  notIn : (Cond.compare x .notIn z).holds scope = true ↔ ¬ ∃ c ∈ bs, r a c

theorem ComparedBy.congr {r r' : Int → Int → Prop} {scope : Scope} {x y z : Operand} {a b : Int}
    {bs : List Int} (h : ComparedBy r scope x y z a b bs) (hr : ∀ c, r a c ↔ r' a c) :
    ComparedBy r' scope x y z a b bs := by
  obtain ⟨heq, hne, hin, hnotin⟩ := h
  simp only [hr] at heq hne hin hnotin
  exact ⟨heq, hne, hin, hnotin⟩

/-- **Conditions compare integers rounded to 53 significant bits**, however the operands hold them. An
integer below `2^53` is so compared exactly. -/
theorem comparedBy_nearest {scope : Scope} {x y z : Operand} {a b : Int} {bs : List Int}
    (hx : (scope.value x).Holds a) (hy : (scope.value y).Holds b)
    (hz : ∃ items, scope.value z = .arr items ∧ List.Forall₂ Json.Holds items bs) :
    ComparedBy (fun a b => nearest a = nearest b) scope x y z a b bs ∧
      (a.natAbs < 2 ^ 53 → ComparedBy (· = ·) scope x y z a b bs) := by
  obtain ⟨items, hvalue, hitems⟩ := hz
  have heq := valuesEqual_iff hx hy
  have hin : contains (scope.value z) (scope.value x) = true ↔ ∃ c ∈ bs, nearest a = nearest c := by
    rw [hvalue]
    exact contains_iff hitems hx
  have hnearest : ComparedBy (fun a b => nearest a = nearest b) scope x y z a b bs := by
    refine ⟨heq, ?_, hin, ?_⟩
    · rw [← heq, Bool.not_eq_true, ← Bool.not_eq_true']
      rfl
    · rw [← hin, Bool.not_eq_true, ← Bool.not_eq_true']
      rfl
  exact ⟨hnearest, fun hsmall => hnearest.congr fun _ => Binary64.nearest_eq_iff hsmall⟩

/-- A path of one name. -/
def namePath (name : String) : Operand :=
  .path ⟨name, name, []⟩

/-- The integer `7`, the float `2^62`, and a list of both as integers. -/
def integersContext : Json :=
  .obj [("a", .int 7), ("b", .num (.float ⟨false, 2 ^ 52, 1084, by decide⟩)),
    ("list", .arr [.int (2 ^ 62), .int 7])]

/-- The integers of `integersContext` are compared rounded, and `7` is compared exactly. -/
theorem comparedBy_nearest_mixed :
    (Scope.value ⟨integersContext, []⟩ (namePath "a")).Holds 7 ∧
      (Scope.value ⟨integersContext, []⟩ (namePath "b")).Holds (2 ^ 62) ∧
      ComparedBy (fun a b => nearest a = nearest b) ⟨integersContext, []⟩ (namePath "a")
        (namePath "b") (namePath "list") 7 (2 ^ 62) [2 ^ 62, 7] ∧
      ComparedBy (· = ·) ⟨integersContext, []⟩ (namePath "a") (namePath "b") (namePath "list") 7
        (2 ^ 62) [2 ^ 62, 7] := by
  have hinteger : ∀ z ∈ [7, 2 ^ 62], Json.Holds (.int z) z := fun z hz =>
    ⟨_, rfl, by revert z; decide, rfl⟩
  have hx : (Scope.value ⟨integersContext, []⟩ (namePath "a")).Holds 7 := hinteger 7 (by decide)
  have hy : (Scope.value ⟨integersContext, []⟩ (namePath "b")).Holds (2 ^ 62) :=
    ⟨_, rfl, by decide, by decide +kernel⟩
  have hz : ∃ items, Scope.value ⟨integersContext, []⟩ (namePath "list") = .arr items ∧
      List.Forall₂ Json.Holds items [2 ^ 62, 7] :=
    ⟨_, rfl, .cons (hinteger _ (by decide)) (.cons (hinteger _ (by decide)) .nil)⟩
  obtain ⟨hnearest, hexact⟩ := comparedBy_nearest hx hy hz
  exact ⟨hx, hy, hnearest, hexact (by decide)⟩

/-- The literal `2^53 + 1` is equal to the literal `2^53` and in a list that holds `2^53` alone. -/
theorem compare_neighbours :
    Json.Holds (.int 9007199254740993) 9007199254740993 ∧
      Json.Holds (.int 9007199254740992) 9007199254740992 ∧
      (Cond.compare (.literal (.int 9007199254740993)) .eq (.literal (.int 9007199254740992))).holds
        ⟨.obj [], []⟩ = true ∧
      (Cond.compare (.literal (.int 9007199254740993)) .isIn (namePath "list")).holds
        ⟨.obj [("list", .arr [.int 9007199254740992])], []⟩ = true ∧
      (9007199254740993 : Int) ≠ 9007199254740992 :=
  ⟨⟨_, rfl, by decide, rfl⟩, ⟨_, rfl, by decide, rfl⟩, by decide +kernel, by decide +kernel,
    by decide⟩

end Template

end ExperimentKpi

/-
# Numbers of 64 bits

The bounds of machine words, of which documents, tokens and paths take their integers.

Key definitions: `wordSize`, `int64Bound`, `IsInt64`.
-/
namespace ExperimentKpi

/-- How many numbers 64 bits hold. -/
def wordSize : Nat := 0x10000000000000000

/-- The least natural number that is no signed integer of 64 bits. -/
def int64Bound : Nat := 0x8000000000000000

/-- The integer is a signed one of 64 bits. -/
def IsInt64 (z : Int) : Prop :=
  -(int64Bound : Int) ≤ z ∧ z < int64Bound

instance (z : Int) : Decidable (IsInt64 z) := by
  unfold IsInt64
  infer_instance

end ExperimentKpi

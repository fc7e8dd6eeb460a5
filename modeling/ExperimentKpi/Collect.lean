/-
# Collecting

Lists gathered from the elements of a list, from left to right, up to the first failure.

Key definitions: `collect`.
-/
namespace ExperimentKpi

/-- The lists that `f` gives for the elements, one after the other; the first failure ends it. -/
def collect {α β ε : Type} (f : α → Except ε (List β)) : List α → Except ε (List β)
  | [] => .ok []
  | a :: r => do
    let here ← f a
    let after ← collect f r
    return here ++ after

end ExperimentKpi

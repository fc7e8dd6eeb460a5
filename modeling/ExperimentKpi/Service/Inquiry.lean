/-
# Inquiries

An inquiry reads the store step by step and ends in a result or a failure. Between two of its steps
the store may be changed by others: each step sees the store of its own moment. Run on one store, an
inquiry is a function of it.

Key definitions: `Inquiry`, `Inquiry.bind`, `Inquiry.query`, `Inquiry.check`, `Inquiry.run`.
-/
import ExperimentKpi.Store.Query

namespace ExperimentKpi

/-- A row of reads that ends in a result or a failure. -/
inductive Inquiry (α : Type) where
  | finished (result : Except Failure α)
  | read (next : Store → Inquiry α)

namespace Inquiry

/-- An inquiry, and another one that depends on its result. -/
def bind {α β : Type} : Inquiry α → (α → Inquiry β) → Inquiry β
  | finished (.ok a), k => k a
  | finished (.error e), _ => finished (.error e)
  | read next, k => read fun s => (next s).bind k

instance : Monad Inquiry where
  pure a := finished (.ok a)
  bind := bind

/-- One read. -/
def query {α : Type} (q : Store → Except Failure α) : Inquiry α :=
  read fun s => finished (q s)

/-- A step that reads nothing. -/
def check {α : Type} (result : Except Failure α) : Inquiry α :=
  finished result

/-- The result of an inquiry that sees one store throughout. -/
def run {α : Type} (s : Store) : Inquiry α → Except Failure α
  | finished result => result
  | read next => (next s).run s

@[simp] theorem run_finished {α : Type} (s : Store) (r : Except Failure α) :
    (finished r).run s = r := rfl

@[simp] theorem run_check {α : Type} (s : Store) (r : Except Failure α) :
    (check r).run s = r := rfl

@[simp] theorem run_query {α : Type} (s : Store) (q : Store → Except Failure α) :
    (query q).run s = q s := rfl

@[simp] theorem run_pure {α : Type} (s : Store) (a : α) :
    (pure a : Inquiry α).run s = .ok a := rfl

@[simp] theorem run_bind {α β : Type} (s : Store) (m : Inquiry α) (k : α → Inquiry β) :
    (m >>= k).run s = m.run s >>= fun a => (k a).run s := by
  show (m.bind k).run s = _
  induction m with
  | finished r => cases r <;> rfl
  | read next ih => exact ih s

end Inquiry

end ExperimentKpi

/-
# Paging in 64 bits

Numbers and sizes of pages are brought within bounds whatever a request asks for
(`PageQuery.number_le`, `PageQuery.size_le`), and the bounds are such that what is computed from them fits
64 bits. `PageQuery.offset64?` and `Pagination.of64?` do the same computations and give nothing if a step
does not fit or divides by zero; they always give what is computed without limits (`paging_fits`).

The count of pages is the least one whose pages hold all entries (`pageCount_le_iff`). So there is a
next page exactly if there are entries behind the page.

Key definitions: `fitting?`, `PageQuery.offset64?`, `pageCount64?`, `Pagination.of64?`.
Key theorems: `PageQuery.size_pos`, `pageCount_le_iff`, `paging_fits`.
-/
import ExperimentKpi.Paging
import Mathlib.Algebra.Group.Int.Defs
import Mathlib.Order.Bounds.Basic

namespace ExperimentKpi

/-! ### Numbers and sizes of pages -/

namespace PageQuery

variable {q : PageQuery} {page size : Int}

theorem size_pos (q : PageQuery) : 0 < q.size := by
  unfold size maxPageSize
  split <;> try split
  all_goals omega

theorem size_le (q : PageQuery) : q.size ≤ maxPageSize := by
  unfold size
  split <;> try split
  all_goals omega

theorem number_pos (q : PageQuery) : 0 < q.number := by
  have hmax : 0 < maxPageNumber := by decide
  unfold number
  split <;> try split
  all_goals omega

theorem number_le (q : PageQuery) : q.number ≤ maxPageNumber := by
  have hmax : 1 ≤ maxPageNumber := by decide
  unfold number
  split <;> try split
  all_goals omega

end PageQuery

/-! ### The count of pages -/

section

variable {page size total : Int}

/-- So many pages hold all entries as the count of pages is, and no fewer. -/
theorem pageCount_le_iff (hsize : 0 < size) (htotal : 0 ≤ total) :
    pageCount total size ≤ page ↔ total ≤ page * size := by
  have hnonneg : 0 ≤ total + size - 1 := by omega
  have hsucc : (page + 1) * size = page * size + size := by rw [Int.add_mul, Int.one_mul]
  calc pageCount total size ≤ page ↔ (total + size - 1) / size < page + 1 := by
        rw [pageCount, Int.tdiv_eq_ediv_of_nonneg hnonneg, Int.lt_add_one_iff]
    _ ↔ total + size - 1 < (page + 1) * size := Int.ediv_lt_iff_lt_mul hsize
    _ ↔ total ≤ page * size := by omega

theorem isLeast_pageCount (hsize : 0 < size) (htotal : 0 ≤ total) :
    IsLeast {pages : Int | total ≤ pages * size} (pageCount total size) :=
  ⟨(pageCount_le_iff hsize htotal).mp le_rfl, fun _ h => (pageCount_le_iff hsize htotal).mpr h⟩

/-- A page has a next one exactly if it does not hold the last entry, nor do pages before it. -/
theorem isSome_next_iff (base : String) (hsize : 0 < size) (htotal : 0 ≤ total) :
    (Pagination.of base page size total).next.isSome = true ↔ (page - 1) * size + size < total := by
  have hend : (page - 1) * size + size = page * size := by rw [Int.sub_mul]; omega
  have hlt : page < pageCount total size ↔ page * size < total := by
    rw [← Int.not_le, pageCount_le_iff hsize htotal, Int.not_le]
  simp only [Pagination.of]
  rw [hend, ← hlt]
  by_cases h : page < pageCount total size <;> simp [h]

end

/-! ### Computing in 64 bits -/

/-- The integer, if 64 bits hold it. -/
def fitting? (z : Int) : Option Int :=
  if IsInt64 z then some z else none

/-- The offset in 64 bits. -/
def PageQuery.offset64? (q : PageQuery) : Option Int := do
  let before ← fitting? (q.number - 1)
  fitting? (before * q.size)

/-- The count of pages in 64 bits. -/
def pageCount64? (total size : Int) : Option Int := do
  let sum ← fitting? (total + size)
  let last ← fitting? (sum - 1)
  if size = 0 then none else fitting? (last.tdiv size)

/-- The link to a page, where it is shown: 64 bits have to hold the number of the page. -/
def pageLink64? (base : String) (size page : Int) (shown : Bool) : Option (Option String) :=
  if shown then (fitting? page).map fun page => some (pageLink base size page) else some none

/-- The description of a page in 64 bits. -/
def Pagination.of64? (base : String) (page size total : Int) : Option Pagination := do
  let pages ← pageCount64? total size
  let previous ← pageLink64? base size (page - 1) (1 < page)
  let next ← pageLink64? base size (page + 1) (page < pages)
  return { page, perPage := size, pages, total, previous, next
           first := pageLink base size 1, last := pageLink base size pages }

section

variable {page size total z : Int}

theorem fitting?_of_le (hnonneg : 0 ≤ z) (hmax : z ≤ 2 ^ 63 - 1) : fitting? z = some z := by
  apply if_pos
  unfold IsInt64 int64Bound
  omega

/-- The rows before the last page of the largest size can be counted. -/
theorem maxPageNumber_mul : maxPageNumber * maxPageSize ≤ 2 ^ 63 - 1 := by decide

theorem PageQuery.offset64?_eq (q : PageQuery) : q.offset64? = some q.offset := by
  have hpos := q.number_pos
  have hnumber := q.number_le
  have hsize := q.size_le
  have hbound := maxPageNumber_mul
  have hnonneg : 0 ≤ (q.number - 1) * q.size := Int.mul_nonneg (by omega) q.size_pos.le
  have hlarge : (q.number - 1) * q.size ≤ 2 ^ 63 - 1 :=
    calc (q.number - 1) * q.size ≤ maxPageNumber * maxPageSize :=
          Int.mul_le_mul (by omega) hsize q.size_pos.le (by omega)
      _ ≤ 2 ^ 63 - 1 := hbound
  have hbefore : fitting? (q.number - 1) = some (q.number - 1) := by
    apply fitting?_of_le
    · omega
    · have : maxPageNumber ≤ 2 ^ 63 - 1 := by decide
      omega
  rw [offset64?, hbefore]
  exact fitting?_of_le hnonneg hlarge

theorem pageCount64?_eq (hsize : 0 < size) (hle : size ≤ maxPageSize) (htotal : 0 ≤ total)
    (hmax : total ≤ 2 ^ 63 - 201) : pageCount64? total size = some (pageCount total size) := by
  unfold maxPageSize at hle
  have hsum : fitting? (total + size) = some (total + size) :=
    fitting?_of_le (by omega) (by omega)
  have hlast : fitting? (total + size - 1) = some (total + size - 1) :=
    fitting?_of_le (by omega) (by omega)
  have hnonneg : 0 ≤ total + size - 1 := by omega
  have hquotient : fitting? (pageCount total size) = some (pageCount total size) := by
    have hdiv : (total + size - 1) / size ≤ total + size - 1 := Int.ediv_le_self size hnonneg
    rw [pageCount, Int.tdiv_eq_ediv_of_nonneg hnonneg]
    exact fitting?_of_le (Int.ediv_nonneg hnonneg hsize.le) (by omega)
  simp only [pageCount64?, hsum, hlast, Option.bind_eq_bind, Option.bind_some]
  rw [if_neg hsize.ne']
  exact hquotient

theorem pageLink64?_eq (base : String) (shown : Bool) (hnonneg : 0 ≤ page)
    (hmax : page ≤ 2 ^ 63 - 1) : pageLink64? base size page shown =
      some (if shown then some (pageLink base size page) else none) := by
  unfold pageLink64?
  rw [fitting?_of_le hnonneg hmax]
  cases shown <;> rfl

theorem Pagination.of64?_eq (base : String) (hpage : 0 < page) (hnumber : page ≤ maxPageNumber)
    (hsize : 0 < size) (hle : size ≤ maxPageSize) (htotal : 0 ≤ total)
    (hmax : total ≤ 2 ^ 63 - 201) :
    Pagination.of64? base page size total = some (Pagination.of base page size total) := by
  have hbound : maxPageNumber + 1 ≤ 2 ^ 63 - 1 := by decide
  simp only [of64?, pageCount64?_eq hsize hle htotal hmax, Option.bind_eq_bind, Option.bind_some]
  rw [pageLink64?_eq base _ (by omega) (by omega), pageLink64?_eq base _ (by omega) (by omega)]
  simp only [Option.bind_some, decide_eq_true_eq]
  rfl

end

/-- **Paging never leaves 64 bits.** Whatever page and size a request asks for, both are brought within
bounds, and for every total that leaves room for one more page of the largest size all steps of the
computation fit: it gives what is computed without limits. The pages are the fewest that hold all
entries, and there is a link to the next one exactly if the total reaches beyond the page. -/
theorem paging_fits (q : PageQuery) (base : String) (total : Int) (htotal : 0 ≤ total)
    (hmax : total ≤ 2 ^ 63 - 201) :
    (1 ≤ q.number ∧ q.number ≤ maxPageNumber) ∧ (1 ≤ q.size ∧ q.size ≤ maxPageSize) ∧
      q.offset64? = some q.offset ∧ q.offset = (q.number - 1) * q.size ∧
      Pagination.of64? base q.number q.size total =
        some (Pagination.of base q.number q.size total) ∧
      IsLeast {pages : Int | total ≤ pages * q.size}
        (Pagination.of base q.number q.size total).pages ∧
      ((Pagination.of base q.number q.size total).next.isSome = true ↔
        q.offset + q.size < total) := by
  refine ⟨⟨q.number_pos, q.number_le⟩, ⟨q.size_pos, q.size_le⟩, q.offset64?_eq, rfl, ?_, ?_, ?_⟩
  · exact Pagination.of64?_eq base q.number_pos q.number_le q.size_pos q.size_le htotal hmax
  · exact isLeast_pageCount q.size_pos htotal
  · exact isSome_next_iff base q.size_pos htotal

/-- The largest page and size of 64 bits and the largest total with room. -/
theorem paging_fits_largest :
    (0 : Int) ≤ 2 ^ 63 - 201 ∧
      Pagination.of64? "/x" (PageQuery.mk (some (2 ^ 63 - 1)) (some (2 ^ 63 - 1))).number 200
          (2 ^ 63 - 201) =
        some (Pagination.of "/x" maxPageNumber 200 (2 ^ 63 - 201)) ∧
      (Pagination.of "/x" maxPageNumber 200 (2 ^ 63 - 201)).next = none := by
  obtain ⟨-, -, -, -, hfits, -, hnext⟩ :=
    paging_fits ⟨some (2 ^ 63 - 1), some (2 ^ 63 - 1)⟩ "/x" (2 ^ 63 - 201) (by decide) le_rfl
  refine ⟨by decide, hfits, ?_⟩
  rw [← Option.not_isSome_iff_eq_none]
  intro hsome
  exact absurd (hnext.mp hsome) (by decide)

-- One entry more leaves no room for a page of the largest size.
example : pageCount64? (2 ^ 63 - 200) 200 = none := by decide

end ExperimentKpi

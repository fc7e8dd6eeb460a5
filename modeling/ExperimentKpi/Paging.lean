/-
# Paging

A long list is shown page by page. A request names a page and a page size, both of which are brought
within bounds, so that the offset of every page fits 64 bits; the answer says where the page stands
and links to its neighbours.

Key definitions: `PageQuery`, `PageQuery.number`, `PageQuery.size`, `PageQuery.offset`,
`Pagination`, `pageCount`, `Pagination.of`.
-/
import ExperimentKpi.Json.Basic

namespace ExperimentKpi

/-- The largest page size, which is also the usual one. -/
def maxPageSize : Int := 200

/-- The last page whose offset fits 64 bits at every page size. -/
def maxPageNumber : Int := (int64Bound - 1) / 200

/-- The page that a request asks for. -/
structure PageQuery where
  page : Option Int
  perPage : Option Int
deriving DecidableEq, Repr

namespace PageQuery

/-- The number of the page, from 1. -/
def number (q : PageQuery) : Int :=
  match q.page with
  | some p => if 0 < p then min p maxPageNumber else 1
  | none => 1

/-- The size of the page. -/
def size (q : PageQuery) : Int :=
  match q.perPage with
  | some n => if 0 < n then min n maxPageSize else maxPageSize
  | none => maxPageSize

/-- How many entries come before the page. -/
def offset (q : PageQuery) : Int :=
  (q.number - 1) * q.size

end PageQuery

/-- How many pages a number of entries fills; the division goes toward zero. -/
def pageCount (total size : Int) : Int :=
  (total + size - 1).tdiv size

/-- Where a page stands, with links to other pages. -/
structure Pagination where
  page : Int
  perPage : Int
  pages : Int
  total : Int
  previous : Option String
  next : Option String
  first : String
  last : String
deriving DecidableEq, Repr

/-- The link to a page. -/
def pageLink (base : String) (size page : Int) : String :=
  s!"{base}?perPage={size}&page={page}"

namespace Pagination

/-- The description of a page of a list at `base`. -/
def of (base : String) (page size total : Int) : Pagination :=
  let pages := pageCount total size
  { page
    perPage := size
    pages
    total
    previous := if 1 < page then some (pageLink base size (page - 1)) else none
    next := if page < pages then some (pageLink base size (page + 1)) else none
    first := pageLink base size 1
    last := pageLink base size pages }

/-- A link that may be missing, as a member. -/
def linkMember (key : String) : Option String → Members
  | some link => [(key, .str link)]
  | none => []

/-- The description as JSON. -/
def toJson (p : Pagination) : Json :=
  .obj [("page", .int p.page), ("perPage", .int p.perPage), ("pages", .int p.pages),
    ("total", .int p.total),
    ("links", .obj (linkMember "prev" p.previous ++ linkMember "next" p.next ++
      [("first", .str p.first), ("last", .str p.last)]))]

end Pagination

end ExperimentKpi

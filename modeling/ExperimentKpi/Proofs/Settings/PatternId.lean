/-
# Settings with pattern ids

Definitions have their turns one after the other (`AssignsAll`), and each is afterwards one of before, as
it was or with an id (`exists_of_mem_assignToDefinitions`, `assignPatternIds_fst`).

Putting a value at a key of an object leaves what is read at every other key (`valuesAt_put_of_ne`,
`others?_put`), so a definition with a pattern id reads as the same definition with that id
(`Definition.ofRaw?_withPatternId`). A document with pattern ids then reads as settings that differ
in nothing else (`Settings.ofRaw?_assignPatternIds`), it nests as deep as before
(`nesting_le_assignPatternIds`), and it has no number that was not there before.

Key definitions: `AssignsAll`, `Definition.AssignedInTurn`, `Settings.AgreesUpToPatternIds`,
`Settings.Assigned`.
Key theorems: `assignsAll_of_ok`, `assignPatternIds_fst`, `Definition.ofRaw?_withPatternId`,
`Settings.ofRaw?_assignPatternIds_obj`, `Settings.ofRaw?_assignPatternIds`,
`Settings.AgreesUpToPatternIds.isAcceptable`, `nesting_le_assignPatternIds`,
`numbers_assignPatternIds_subset`.
-/
import ExperimentKpi.Proofs.Json.Document
import ExperimentKpi.Proofs.Settings.Limit
import ExperimentKpi.Settings.PatternId
import ExperimentKpi.Settings.Validate
import Mathlib.Data.List.Forall2
import Mathlib.Data.Option.Basic

namespace ExperimentKpi

/-! ### Definitions in turn -/

section Turns

variable {design : Design} {v : Json} {vs vs' : List Json} {name id : String} {e : Failure}

theorem assignToDefinitions_unnamed (h : v.patternName? = none) :
    assignToDefinitions design (v :: vs) =
      (v :: (assignToDefinitions design vs).1, (assignToDefinitions design vs).2) := by
  rw [assignToDefinitions, h]

theorem assignToDefinitions_named (h : v.patternName? = some name)
    (hid : design.resolve name = .ok id) :
    assignToDefinitions design (v :: vs) =
      (v.withPatternId id :: (assignToDefinitions design vs).1,
        (assignToDefinitions design vs).2) := by
  rw [assignToDefinitions, h]
  simp only [hid]

theorem assignToDefinitions_rejected (h : v.patternName? = some name)
    (he : design.resolve name = .error e) :
    assignToDefinitions design (v :: vs) = (v :: vs, .error e) := by
  rw [assignToDefinitions, h]
  simp only [he]

/-- Definitions before and after, where each of them had its turn. -/
inductive AssignsAll (design : Design) : List Json → List Json → Prop where
  | nil : AssignsAll design [] []
  | unnamed {v : Json} {vs vs' : List Json} (name : v.patternName? = none)
      (rest : AssignsAll design vs vs') : AssignsAll design (v :: vs) (v :: vs')
  | named {v : Json} {vs vs' : List Json} {pattern id : String} (name : v.patternName? = some pattern)
      (resolved : design.resolve pattern = .ok id) (rest : AssignsAll design vs vs') :
      AssignsAll design (v :: vs) (v.withPatternId id :: vs')

theorem assignsAll_of_ok (h : assignToDefinitions design vs = (vs', .ok ())) :
    AssignsAll design vs vs' := by
  induction vs generalizing vs' with
  | nil =>
    cases h
    exact .nil
  | cons v vs ih =>
    cases hname : v.patternName? with
    | none =>
      rw [assignToDefinitions_unnamed hname] at h
      obtain ⟨rfl, hok⟩ := Prod.mk.inj h
      exact .unnamed hname (ih (Prod.ext rfl hok))
    | some name =>
      cases hid : design.resolve name with
      | error e =>
        rw [assignToDefinitions_rejected hname hid] at h
        cases h
      | ok id =>
        rw [assignToDefinitions_named hname hid] at h
        obtain ⟨rfl, hok⟩ := Prod.mk.inj h
        exact .named hname hid (ih (Prod.ext rfl hok))

/-- Each definition is afterwards one that was there before, as it was or with an id. -/
theorem exists_of_mem_assignToDefinitions {w : Json} (h : w ∈ (assignToDefinitions design vs).1) :
    ∃ v ∈ vs, w = v ∨ ∃ id, w = v.withPatternId id := by
  induction vs with
  | nil => exact absurd h List.not_mem_nil
  | cons v vs ih =>
    have hlater : w ∈ (assignToDefinitions design vs).1 →
        ∃ u ∈ v :: vs, w = u ∨ ∃ id, w = u.withPatternId id := by
      intro hw
      obtain ⟨u, hu, hwu⟩ := ih hw
      exact ⟨u, List.mem_cons_of_mem v hu, hwu⟩
    cases hname : v.patternName? with
    | none =>
      rw [assignToDefinitions_unnamed hname] at h
      rcases List.mem_cons.mp h with rfl | h
      · exact ⟨w, List.mem_cons_self, .inl rfl⟩
      · exact hlater h
    | some name =>
      cases hid : design.resolve name with
      | error e =>
        rw [assignToDefinitions_rejected hname hid] at h
        exact ⟨w, h, .inl rfl⟩
      | ok id =>
        rw [assignToDefinitions_named hname hid] at h
        rcases List.mem_cons.mp h with rfl | h
        · exact ⟨v, List.mem_cons_self, .inr ⟨id, rfl⟩⟩
        · exact hlater h

end Turns

/-! ### Documents -/

section Documents

variable {design : Design} {models : List String} {document document' : Json} {assigned : Bool}
  {ms : Members} {vs : List Json}

theorem assignPatternIds_of_unmapped (h : usesPatternMapping models = false) :
    assignPatternIds design models document = (document, .ok false) := by
  unfold assignPatternIds
  rw [if_neg (by rw [h]; exact Bool.false_ne_true)]

theorem assignPatternIds_of_unlisted (h : usesPatternMapping models = true)
    (hnone : ∀ items, document.member? "kpi_definitions" ≠ some (.arr items)) :
    assignPatternIds design models document = (document, .ok true) := by
  unfold assignPatternIds
  rw [if_pos h]
  split
  · split
    · rename_i items hget
      exact absurd hget (hnone items)
    · rfl
  · rfl

theorem assignPatternIds_of_listed (h : usesPatternMapping models = true)
    (hget : Members.get? ms "kpi_definitions" = some (.arr vs)) :
    assignPatternIds design models (.obj ms) =
      (.obj (Members.put "kpi_definitions" (.arr (assignToDefinitions design vs).1) ms),
        (assignToDefinitions design vs).2.map fun _ => true) := by
  unfold assignPatternIds
  rw [if_pos h]
  simp only [hget]

theorem exists_of_assignPatternIds_ok (hmodels : usesPatternMapping models = true)
    (hget : Members.get? ms "kpi_definitions" = some (.arr vs))
    (h : assignPatternIds design models (.obj ms) = (document', .ok assigned)) :
    ∃ vs', assignToDefinitions design vs = (vs', .ok ()) ∧
      document' = .obj (Members.put "kpi_definitions" (.arr vs') ms) := by
  rw [assignPatternIds_of_listed hmodels hget] at h
  obtain ⟨rfl, hok⟩ := Prod.mk.inj h
  refine ⟨_, Prod.ext rfl ?_, rfl⟩
  cases hresult : (assignToDefinitions design vs).2 with
  | ok => rfl
  | error e =>
    rw [hresult] at hok
    cases hok

/-- A document is afterwards as it was, or has other definitions in the place of its own. -/
theorem assignPatternIds_fst (design : Design) (models : List String) (document : Json) :
    (assignPatternIds design models document).1 = document ∨
      ∃ ms vs, document = .obj ms ∧ Members.get? ms "kpi_definitions" = some (.arr vs) ∧
        (assignPatternIds design models document).1 =
          .obj (Members.put "kpi_definitions" (.arr (assignToDefinitions design vs).1) ms) := by
  by_cases hmodels : usesPatternMapping models = true
  · by_cases hlisted : ∃ items, document.member? "kpi_definitions" = some (.arr items)
    · obtain ⟨items, hitems⟩ := hlisted
      cases document with
      | obj ms =>
        refine .inr ⟨ms, items, rfl, hitems, ?_⟩
        rw [assignPatternIds_of_listed hmodels hitems]
      | _ => cases hitems
    · push Not at hlisted
      exact .inl (by rw [assignPatternIds_of_unlisted hmodels hlisted])
  · exact .inl (by rw [assignPatternIds_of_unmapped (by simpa using hmodels)])

end Documents

/-! ### Values at keys -/

namespace RawMembers

open Json (membersToRaw)

variable {key other : String} {value : Json}

theorem valuesAt_put_of_ne (h : other ≠ key) (ms : Members) :
    valuesAt (membersToRaw (Members.put key value ms)) other = valuesAt (membersToRaw ms) other := by
  induction ms with
  | nil => simp [Members.put, membersToRaw, valuesAt, h.symm]
  | cons m r ih =>
    obtain ⟨k, v⟩ := m
    by_cases hk : k = key
    · subst hk
      simp [Members.put, membersToRaw, valuesAt, h.symm]
    · rw [Members.put, if_neg hk, membersToRaw, membersToRaw]
      simp only [valuesAt, List.filter_cons] at ih ⊢
      split <;> simp [ih]

/-- A key that stood at most once stands exactly once. -/
theorem valuesAt_put_self (value : Json) (ms : Members) (h : (valuesAt (membersToRaw ms) key).length ≤ 1) :
    valuesAt (membersToRaw (Members.put key value ms)) key = [value.toRaw] := by
  induction ms with
  | nil => simp [Members.put, membersToRaw, valuesAt]
  | cons m r ih =>
    obtain ⟨k, v⟩ := m
    by_cases hk : k = key
    · subst hk
      simp only [membersToRaw, valuesAt, beq_self_eq_true, List.filter_cons_of_pos, List.map_cons,
        List.length_cons] at h
      have hnil : (membersToRaw r).filter (fun m => m.1 == some k) = [] := by
        rw [← List.length_eq_zero_iff]
        simpa using h
      simp [Members.put, membersToRaw, valuesAt, hnil]
    · rw [membersToRaw] at h
      rw [Members.put, if_neg hk, membersToRaw]
      simp only [valuesAt, List.filter_cons, Option.some.injEq, beq_iff_eq, hk, if_false] at h ih ⊢
      exact ih h

/-- The first value at a key is the value there. -/
theorem valuesAt_of_get? {ms : Members} (h : Members.get? ms key = some value) :
    ∃ others, valuesAt (membersToRaw ms) key = value.toRaw :: others := by
  induction ms with
  | nil => cases h
  | cons m r ih =>
    obtain ⟨k, v⟩ := m
    by_cases hk : k = key
    · subst hk
      rw [Members.get?_cons_self, Option.some.injEq] at h
      subst h
      exact ⟨_, by simp [membersToRaw, valuesAt]; rfl⟩
    · rw [Members.get?_cons_of_ne hk] at h
      obtain ⟨others, ho⟩ := ih h
      refine ⟨others, ?_⟩
      simpa [membersToRaw, valuesAt, hk] using ho

theorem valuesAt_eq_nil {ms : Members} (h : Members.get? ms key = none) :
    valuesAt (membersToRaw ms) key = [] := by
  induction ms with
  | nil => rfl
  | cons m r ih =>
    obtain ⟨k, v⟩ := m
    by_cases hk : k = key
    · subst hk
      rw [Members.get?_cons_self] at h
      cases h
    · rw [Members.get?_cons_of_ne hk] at h
      simpa [membersToRaw, valuesAt, hk] using ih h

/-- A value that stands first at a key in the tree is the one at the key. -/
theorem get?_of_valuesAt {ms : Members} {v : RawJson} {others : List RawJson}
    (h : valuesAt (membersToRaw ms) key = v :: others) :
    ∃ value, Members.get? ms key = some value ∧ value.toRaw = v := by
  cases hget : Members.get? ms key with
  | some value =>
    obtain ⟨rest, hrest⟩ := valuesAt_of_get? hget
    rw [h] at hrest
    exact ⟨value, rfl, (List.cons.inj hrest).1.symm⟩
  | none =>
    rw [valuesAt_eq_nil hget] at h
    cases h

theorem others?_put {known : List String} (h : key ∈ known) (ms : Members)
    (limit : Nat) :
    others? (membersToRaw (Members.put key value ms)) known limit =
      others? (membersToRaw ms) known limit := by
  have hfilter : (membersToRaw (Members.put key value ms)).filter
        (fun m => !(m.1.any (known.contains ·))) =
      (membersToRaw ms).filter fun m => !(m.1.any (known.contains ·)) := by
    induction ms with
    | nil => simp [Members.put, membersToRaw, h]
    | cons m r ih =>
      obtain ⟨k, v⟩ := m
      by_cases hk : k = key
      · subst hk
        simp [Members.put, membersToRaw, h]
      · rw [Members.put, if_neg hk, membersToRaw, membersToRaw, List.filter_cons, List.filter_cons,
          ih]
  rw [others?, others?, hfilter]

variable {α : Type} {ms : RawMembers} {read : RawJson → Option α}

theorem length_valuesAt_of_optional? {a : Option α} (h : ms.optional? key read = some a) :
    (ms.valuesAt key).length ≤ 1 := by
  unfold optional? withDefault? at h
  split at h
  · rename_i hnil
    simp [hnil]
  · rename_i hone
    simp [hone]
  · cases h

theorem valuesAt_of_required? {a : α} (h : ms.required? key read = some a) :
    ∃ v, ms.valuesAt key = [v] ∧ read v = some a := by
  unfold required? at h
  split at h
  · rename_i v hv
    exact ⟨v, hv, h⟩
  · cases h

/-- Readers at other keys see nothing of a value that is put in. -/
theorem required?_put_of_ne (h : other ≠ key) (ms : Members) (read : RawJson → Option α) :
    required? (membersToRaw (Members.put key value ms)) other read =
      required? (membersToRaw ms) other read := by
  rw [required?, required?, valuesAt_put_of_ne h]

theorem withDefault?_put_of_ne (h : other ≠ key) (ms : Members) (absent : α)
    (read : RawJson → Option α) :
    withDefault? (membersToRaw (Members.put key value ms)) other absent read =
      withDefault? (membersToRaw ms) other absent read := by
  rw [withDefault?, withDefault?, valuesAt_put_of_ne h]

theorem optional?_put_of_ne (h : other ≠ key) (ms : Members) (read : RawJson → Option α) :
    optional? (membersToRaw (Members.put key value ms)) other read =
      optional? (membersToRaw ms) other read :=
  withDefault?_put_of_ne h ms none _

end RawMembers

/-! ### Definitions -/

/-- A definition with a pattern id reads as the definition with that id. -/
theorem Definition.ofRaw?_withPatternId {limit : Nat} {v : Json} {d : Definition}
    (h : ofRaw? limit v.toRaw = some d) (id : String) :
    ofRaw? limit (v.withPatternId id).toRaw = some { d with patternId := some id } := by
  simp only [ofRaw?, Option.bind_eq_bind, Option.bind_eq_some_iff] at h ⊢
  obtain ⟨ms, hms, name, hn, isMain, hm, type, ht, patternName, hp, patternId, hi, conditions, hc,
    extra, he, h⟩ := h
  cases h
  cases v with
  | obj members =>
    cases hms
    have hid : RawMembers.valuesAt
        (Json.membersToRaw (Members.put "pattern_id" (.str id) members)) "pattern_id" =
          [.str (some id)] :=
      RawMembers.valuesAt_put_self _ members (RawMembers.length_valuesAt_of_optional? hi)
    refine ⟨_, rfl, name, ?_, isMain, ?_, type, ?_, patternName, ?_, some id, ?_, conditions, ?_,
      extra, ?_, rfl⟩
    · rwa [RawMembers.required?_put_of_ne (by decide)]
    · rwa [RawMembers.required?_put_of_ne (by decide)]
    · rwa [RawMembers.optional?_put_of_ne (by decide)]
    · rwa [RawMembers.optional?_put_of_ne (by decide)]
    · simp [RawMembers.optional?, RawMembers.withDefault?, hid, RawJson.text?]
    · rwa [RawMembers.withDefault?_put_of_ne (by decide)]
    · rwa [RawMembers.others?_put (by decide)]
  | _ => cases hms

/-- Definitions that agree in everything but the pattern id. -/
def Definition.AgreesUpToPatternId (d d' : Definition) : Prop :=
  d' = { d with patternId := d'.patternId }

theorem Definition.AgreesUpToPatternId.refl (d : Definition) : d.AgreesUpToPatternId d := rfl

theorem itemsToRaw_eq_map (xs : List Json) : Json.itemsToRaw xs = xs.map Json.toRaw := by
  induction xs with
  | nil => rfl
  | cons x xs ih => rw [Json.itemsToRaw, ih, List.map_cons]

/-- Definitions of a document as they are read without and with pattern ids: one that names a pattern
gets the id that the name resolves to, and every other one stays as it is. -/
inductive Definition.AssignedInTurn (design : Design) :
    List Json → List Definition → List Definition → Prop where
  | nil : AssignedInTurn design [] [] []
  | unnamed {v : Json} {vs : List Json} {d : Definition} {ds ds' : List Definition}
      (name : v.patternName? = none) (rest : AssignedInTurn design vs ds ds') :
      AssignedInTurn design (v :: vs) (d :: ds) (d :: ds')
  | named {v : Json} {vs : List Json} {d : Definition} {ds ds' : List Definition}
      {pattern id : String} (name : v.patternName? = some pattern)
      (resolved : design.resolve pattern = .ok id) (rest : AssignedInTurn design vs ds ds') :
      AssignedInTurn design (v :: vs) (d :: ds) ({ d with patternId := some id } :: ds')

theorem Definition.AssignedInTurn.agrees {design : Design} {vs : List Json}
    {ds ds' : List Definition} (h : AssignedInTurn design vs ds ds') :
    List.Forall₂ AgreesUpToPatternId ds ds' := by
  induction h with
  | nil => exact .nil
  | unnamed _ _ ih => exact .cons (.refl _) ih
  | named _ _ _ ih => exact .cons rfl ih

/-- Definitions with pattern ids read as the definitions that were assigned their ids. -/
theorem AssignsAll.mapM {design : Design} {limit : Nat} {vs vs' : List Json} {ds : List Definition}
    (h : AssignsAll design vs vs')
    (hds : (vs.map Json.toRaw).mapM (Definition.ofRaw? limit) = some ds) :
    ∃ ds', (vs'.map Json.toRaw).mapM (Definition.ofRaw? limit) = some ds' ∧
      Definition.AssignedInTurn design vs ds ds' := by
  induction h generalizing ds with
  | nil =>
    cases hds
    exact ⟨[], rfl, .nil⟩
  | unnamed hname _ ih =>
    simp only [List.map_cons, List.mapM_cons, Option.bind_eq_bind, Option.bind_eq_some_iff] at hds
    obtain ⟨d, hd, es, hes, hds⟩ := hds
    cases hds
    obtain ⟨es', hes', hturn⟩ := ih hes
    exact ⟨d :: es', by simp [hd, hes'], .unnamed hname hturn⟩
  | @named v vs vs' pattern id hname hid _ ih =>
    simp only [List.map_cons, List.mapM_cons, Option.bind_eq_bind, Option.bind_eq_some_iff] at hds
    obtain ⟨d, hd, es, hes, hds⟩ := hds
    cases hds
    obtain ⟨es', hes', hturn⟩ := ih hes
    have hd' := Definition.ofRaw?_withPatternId hd id
    exact ⟨{ d with patternId := some id } :: es', by simp [hd', hes'], .named hname hid hturn⟩

theorem all_isSome_membersToRaw (ms : Members) :
    (Json.membersToRaw ms).all (fun m => m.1.isSome) = true := by
  induction ms with
  | nil => rfl
  | cons m r ih => simpa [Json.membersToRaw] using ih

/-! ### Settings -/

namespace Settings

/-- Settings that agree in everything but the pattern ids of definitions. -/
structure AgreesUpToPatternIds (s s' : Settings) : Prop where
  basedOn : s'.basedOn = s.basedOn
  definitions : List.Forall₂ Definition.AgreesUpToPatternId s.definitions s'.definitions

theorem AgreesUpToPatternIds.refl (s : Settings) : s.AgreesUpToPatternIds s := by
  refine ⟨rfl, ?_⟩
  induction s.definitions with
  | nil => exact .nil
  | cons d ds ih => exact .cons (.refl d) ih

/-- The checks on settings look at the names of the definitions and at which of them is the main one. -/
theorem IsAcceptable.of_map_eq {s s' : Settings} (hs : s.IsAcceptable) (hnames : s.names = s'.names)
    (hmain : s.definitions.map (·.isMain) = s'.definitions.map (·.isMain)) : s'.IsAcceptable := by
  obtain ⟨basedOn, ds⟩ := s
  obtain ⟨basedOn', ds'⟩ := s'
  simp only [names] at hnames hmain
  obtain ⟨hne, hproper, hnodup, hcount⟩ := hs
  refine ⟨?_, ?_, ?_, ?_⟩
  · rintro rfl
    exact hne (List.map_eq_nil_iff.mp hnames)
  · intro d' hd'
    obtain ⟨d, hd, hname⟩ : ∃ d ∈ ds, d.name = d'.name := by
      have := List.mem_map_of_mem (f := Definition.name) hd'
      rw [← hnames] at this
      exact List.mem_map.mp this
    have := hproper d hd
    simpa only [Definition.HasProperName, hname] using this
  · simpa only [names, ← hnames] using hnodup
  · have hcountP : ∀ l : List Definition, l.countP (·.isMain) = (l.map (·.isMain)).count true := by
      intro l
      rw [List.count, List.countP_map]
      congr 1
      funext d
      simp
    simp only [hcountP, ← hmain] at hcount ⊢
    exact hcount

/-- The checks on settings look at no pattern id. -/
theorem AgreesUpToPatternIds.isAcceptable {s s' : Settings} (h : s.AgreesUpToPatternIds s')
    (hs : s.IsAcceptable) : s'.IsAcceptable := by
  have hcongr : ∀ {α : Type} (f : Definition → α), (∀ d d', d.AgreesUpToPatternId d' → f d = f d') →
      s.definitions.map f = s'.definitions.map f := by
    intro α f hf
    have hall := h.definitions
    clear h hs
    generalize s.definitions = ds at hall ⊢
    generalize s'.definitions = ds' at hall ⊢
    induction hall with
    | nil => rfl
    | cons hd _ ih => rw [List.map_cons, List.map_cons, hf _ _ hd, ih]
  exact hs.of_map_eq (hcongr _ fun d d' hd => by rw [hd]) (hcongr _ fun d d' hd => by rw [hd])

/-- An object that reads as settings has one list of definitions, and these read as the settings'. -/
theorem exists_definitions {ms : Members} {limit : Nat} {s : Settings}
    (hs : ofRaw? limit (Json.obj ms).toRaw = some s) :
    ∃ vs, Members.get? ms "kpi_definitions" = some (.arr vs) ∧
      RawMembers.valuesAt (Json.membersToRaw ms) "kpi_definitions" = [(Json.arr vs).toRaw] ∧
      (vs.map Json.toRaw).mapM (Definition.ofRaw? (limit - 3)) = some s.definitions := by
  simp only [Json.toRaw, ofRaw?, ofParts?, Option.bind_eq_bind, Option.bind_eq_some_iff] at hs
  obtain ⟨-, -, basedOn, -, definitions, hd, unit, -, ds, ⟨items, hitems, hds⟩, hs⟩ := hs
  cases hs
  obtain ⟨v, hv, hvd⟩ := RawMembers.valuesAt_of_required? hd
  cases hvd
  obtain ⟨value, hget, rfl⟩ := RawMembers.get?_of_valuesAt hv
  cases value with
  | arr vs =>
    cases hitems
    rw [itemsToRaw_eq_map] at hds
    exact ⟨vs, hget, hv, hds⟩
  | _ => cases hitems

/-- Other definitions in the place of a document's own. -/
theorem ofRaw?_put_definitions {ms : Members} {vs' : List Json} {limit : Nat} {s : Settings}
    {ds' : List Definition} (hs : ofRaw? limit (Json.obj ms).toRaw = some s)
    (hds' : (vs'.map Json.toRaw).mapM (Definition.ofRaw? (limit - 3)) = some ds') :
    ofRaw? limit (Json.obj (Members.put "kpi_definitions" (.arr vs') ms)).toRaw =
      some { s with definitions := ds' } := by
  obtain ⟨vs, -, hvalues, -⟩ := exists_definitions hs
  simp only [Json.toRaw, ofRaw?, ofParts?, Option.bind_eq_bind, Option.bind_eq_some_iff] at hs
  obtain ⟨-, -, basedOn, hb, definitions, -, unit, hunit, ds, -, hs⟩ := hs
  cases hs
  have hput := RawMembers.valuesAt_put_self (.arr vs') ms (by rw [hvalues]; exact Nat.le_refl 1)
  simp only [Json.toRaw, ofRaw?, ofParts?, Option.bind_eq_bind, Option.bind_eq_some_iff]
  refine ⟨(), ?_, basedOn, ?_, (Json.arr vs').toRaw, ?_, unit, hunit, ds', ⟨_, rfl, ?_⟩, rfl⟩
  · rw [all_isSome_membersToRaw]
    rfl
  · rwa [RawMembers.required?_put_of_ne (by decide)]
  · rw [RawMembers.required?, hput]
  · rwa [itemsToRaw_eq_map]

/-- The settings that a document spells, and those that it spells with pattern ids. -/
inductive Assigned (design : Design) (models : List String) (document : Json) (s : Settings) :
    Settings → Prop where
  /-- No model maps definitions to patterns. -/
  | kept (unmapped : usesPatternMapping models = false) : Assigned design models document s s
  /-- Each definition that names a pattern has its id. -/
  | assigned {items : List Json} {ds : List Definition}
      (mapped : usesPatternMapping models = true)
      (listed : document.member? "kpi_definitions" = some (.arr items))
      (turn : Definition.AssignedInTurn design items s.definitions ds) :
      Assigned design models document s { s with definitions := ds }

theorem Assigned.agrees {design : Design} {models : List String} {document : Json}
    {s s' : Settings} (h : Assigned design models document s s') : s.AgreesUpToPatternIds s' := by
  cases h with
  | kept => exact .refl s
  | assigned _ _ turn => exact ⟨rfl, turn.agrees⟩

variable {design : Design} {models : List String} {document document' : Json} {assigned : Bool}
  {limit : Nat} {s : Settings}

/-- **An object with pattern ids reads as the settings that were assigned their ids.** -/
theorem ofRaw?_assignPatternIds_obj {ms : Members}
    (ha : assignPatternIds design models (.obj ms) = (document', .ok assigned))
    (hs : ofRaw? limit (Json.obj ms).toRaw = some s) :
    ∃ s', ofRaw? limit document'.toRaw = some s' ∧ Assigned design models (.obj ms) s s' := by
  by_cases hmodels : usesPatternMapping models = true
  · obtain ⟨vs, hget, -, hds⟩ := exists_definitions hs
    obtain ⟨vs', hassign, rfl⟩ := exists_of_assignPatternIds_ok hmodels hget ha
    obtain ⟨ds', hds', hturn⟩ := (assignsAll_of_ok hassign).mapM hds
    exact ⟨_, ofRaw?_put_definitions hs hds', .assigned hmodels hget hturn⟩
  · have hunmapped : usesPatternMapping models = false := by simpa using hmodels
    rw [assignPatternIds_of_unmapped hunmapped] at ha
    cases ha
    exact ⟨s, hs, .kept hunmapped⟩

/-- Only an object has definitions to which pattern ids could be assigned. -/
theorem assignPatternIds_of_not_obj (h : ∀ ms, document ≠ .obj ms) :
    (assignPatternIds design models document).1 = document := by
  rcases assignPatternIds_fst design models document with hkept | ⟨ms, -, hobj, -⟩
  · exact hkept
  · exact absurd hobj (h ms)

/-- **A document with pattern ids reads as settings that differ in pattern ids alone.** -/
theorem ofRaw?_assignPatternIds
    (ha : assignPatternIds design models document = (document', .ok assigned))
    (hs : ofRaw? limit document.toRaw = some s) :
    ∃ s', ofRaw? limit document'.toRaw = some s' ∧ s.AgreesUpToPatternIds s' := by
  by_cases hobj : ∃ ms, document = .obj ms
  · obtain ⟨ms, rfl⟩ := hobj
    obtain ⟨s', hs', hassigned⟩ := ofRaw?_assignPatternIds_obj ha hs
    exact ⟨s', hs', hassigned.agrees⟩
  · have hkept : (assignPatternIds design models document).1 = document :=
      assignPatternIds_of_not_obj fun ms hms => hobj ⟨ms, hms⟩
    rw [ha] at hkept
    obtain rfl : document' = document := hkept
    exact ⟨s, hs, .refl s⟩

end Settings

/-! ### Nesting -/

section

open Json

variable {key : String} {value : Json} {ms : Members} {limit : Nat}

/-- A value that nests as deep as the one in whose place it is put leaves the nesting as it was. -/
theorem membersNesting_le_put (h : ∀ old, Members.get? ms key = some old → old.nesting ≤ value.nesting) :
    membersNesting ms ≤ membersNesting (Members.put key value ms) := by
  induction ms with
  | nil => exact Nat.zero_le _
  | cons m r ih =>
    obtain ⟨k, v⟩ := m
    by_cases hk : k = key
    · subst hk
      have hv : v.nesting ≤ value.nesting := h v Members.get?_cons_self
      rw [Members.put, if_pos rfl, membersNesting, membersNesting]
      omega
    · have hr : membersNesting r ≤ membersNesting (Members.put key value r) := by
        refine ih fun old hold => h old ?_
        rwa [Members.get?_cons_of_ne hk]
      rw [Members.put, if_neg hk, membersNesting, membersNesting]
      omega

/-- A member that is read as a text that may be missing does not nest. -/
theorem nesting_of_optional_text? {a : Option String} {old : Json}
    (h : RawMembers.optional? (membersToRaw ms) key RawJson.text? = some a)
    (hold : Members.get? ms key = some old) : old.nesting = 0 := by
  obtain ⟨others, hothers⟩ := RawMembers.valuesAt_of_get? hold
  unfold RawMembers.optional? RawMembers.withDefault? at h
  rw [hothers] at h
  cases others with
  | cons => cases h
  | nil =>
    cases old with
    | arr => cases h
    | obj => cases h
    | _ => rfl

theorem nesting_le_withPatternId {v : Json} {d : Definition}
    (h : Definition.ofRaw? limit v.toRaw = some d) (id : String) :
    v.nesting ≤ (v.withPatternId id).nesting := by
  cases v with
  | obj ms =>
    simp only [Definition.ofRaw?, Option.bind_eq_bind, Option.bind_eq_some_iff] at h
    obtain ⟨ms', hms, -, -, -, -, -, -, -, -, patternId, hid, -⟩ := h
    cases hms
    refine Nat.succ_le_succ (membersNesting_le_put fun old hold => ?_)
    rw [nesting_of_optional_text? hid hold]
    exact Nat.zero_le _
  | _ => exact Nat.le_refl _

theorem itemsNesting_le_assignToDefinitions {design : Design} : ∀ {vs : List Json}
    {ds : List Definition}, (vs.map Json.toRaw).mapM (Definition.ofRaw? limit) = some ds →
      itemsNesting vs ≤ itemsNesting (assignToDefinitions design vs).1
  | [], _, _ => Nat.le_refl _
  | v :: vs, ds, h => by
    simp only [List.map_cons, List.mapM_cons, Option.bind_eq_bind, Option.bind_eq_some_iff] at h
    obtain ⟨d, hd, es, hes, -⟩ := h
    have hrest : itemsNesting vs ≤ itemsNesting (assignToDefinitions design vs).1 :=
      itemsNesting_le_assignToDefinitions hes
    cases hname : v.patternName? with
    | none =>
      rw [assignToDefinitions_unnamed hname]
      simp only [itemsNesting]
      omega
    | some name =>
      cases hid : design.resolve name with
      | error e => rw [assignToDefinitions_rejected hname hid]
      | ok id =>
        rw [assignToDefinitions_named hname hid]
        have hv := nesting_le_withPatternId hd id
        simp only [itemsNesting]
        omega

/-- A document that reads as settings nests as deep with pattern ids. -/
theorem nesting_le_assignPatternIds {design : Design} {models : List String} {document : Json}
    {s : Settings} (h : Settings.ofRaw? limit document.toRaw = some s) :
    document.nesting ≤ (assignPatternIds design models document).1.nesting := by
  rcases assignPatternIds_fst design models document with hkept | ⟨ms, vs, rfl, hget, hput⟩
  · rw [hkept]
  · rw [hput]
    refine Nat.succ_le_succ (membersNesting_le_put fun old hold => ?_)
    obtain rfl : Json.arr vs = old := Option.some.inj (hget.symm.trans hold)
    obtain ⟨vs', hget', -, hds⟩ := Settings.exists_definitions h
    obtain rfl := Json.arr.inj (Option.some.inj (hget.symm.trans hget'))
    exact Nat.succ_le_succ (itemsNesting_le_assignToDefinitions hds)

theorem membersNesting_put_le (hms : membersNesting ms ≤ limit) (hv : value.nesting ≤ limit) :
    membersNesting (Members.put key value ms) ≤ limit := by
  refine membersNesting_le_iff.mpr fun m hm => ?_
  rcases Members.eq_or_mem_of_mem_put hm with rfl | hm
  · exact hv
  · exact membersNesting_le_iff.mp hms m hm

theorem nesting_withPatternId_le (id : String) (v : Json) : (v.withPatternId id).nesting ≤ v.nesting := by
  cases v with
  | obj ms => exact Nat.succ_le_succ (membersNesting_put_le (Nat.le_refl _) (Nat.zero_le _))
  | _ => exact Nat.le_refl _

theorem itemsNesting_assignToDefinitions_le {design : Design} (vs : List Json) :
    itemsNesting (assignToDefinitions design vs).1 ≤ itemsNesting vs := by
  rw [itemsNesting_le_iff]
  intro w hw
  obtain ⟨v, hv, hwv⟩ := exists_of_mem_assignToDefinitions hw
  have hle : v.nesting ≤ itemsNesting vs := itemsNesting_le_iff.mp (Nat.le_refl _) v hv
  rcases hwv with rfl | ⟨id, rfl⟩
  · exact hle
  · exact (nesting_withPatternId_le id v).trans hle

/-- Pattern ids nest a document no deeper. -/
theorem nesting_assignPatternIds_le {design : Design} {models : List String} (document : Json) :
    (assignPatternIds design models document).1.nesting ≤ document.nesting := by
  rcases assignPatternIds_fst design models document with hkept | ⟨ms, vs, rfl, hget, hput⟩
  · rw [hkept]
  · have hold : (Json.arr vs).nesting ≤ membersNesting ms :=
      membersNesting_le_iff.mp (Nat.le_refl _) _ (Members.mem_of_get? hget)
    have hnew : itemsNesting (assignToDefinitions design vs).1 + 1 ≤ itemsNesting vs + 1 :=
      Nat.succ_le_succ (itemsNesting_assignToDefinitions_le vs)
    rw [hput]
    exact Nat.succ_le_succ (membersNesting_put_le (Nat.le_refl _) (hnew.trans hold))

end

/-! ### Numbers -/

section

open Json

variable {n : Number}

theorem numbers_withPatternId_subset (id : String) {v : Json}
    (h : n ∈ (v.withPatternId id).numbers) : n ∈ v.numbers := by
  cases v with
  | obj ms =>
    obtain ⟨m, hm, hn⟩ := mem_membersNumbers.mp h
    rcases Members.eq_or_mem_of_mem_put hm with rfl | hm
    · cases hn
    · exact mem_membersNumbers.mpr ⟨m, hm, hn⟩
  | _ => exact h

theorem numbers_assignToDefinitions_subset {design : Design} {vs : List Json}
    (h : n ∈ itemsNumbers (assignToDefinitions design vs).1) : n ∈ itemsNumbers vs := by
  obtain ⟨w, hw, hn⟩ := mem_itemsNumbers.mp h
  obtain ⟨v, hv, rfl | ⟨id, rfl⟩⟩ := exists_of_mem_assignToDefinitions hw
  · exact mem_itemsNumbers.mpr ⟨w, hv, hn⟩
  · exact mem_itemsNumbers.mpr ⟨v, hv, numbers_withPatternId_subset id hn⟩

/-- Pattern ids bring no number into a document. -/
theorem numbers_assignPatternIds_subset {design : Design} {models : List String} {document : Json}
    (h : n ∈ (assignPatternIds design models document).1.numbers) : n ∈ document.numbers := by
  rcases assignPatternIds_fst design models document with hkept | ⟨ms, vs, rfl, hget, hput⟩
  · rwa [hkept] at h
  · rw [hput] at h
    obtain ⟨m, hm, hn⟩ := mem_membersNumbers.mp h
    rcases Members.eq_or_mem_of_mem_put hm with rfl | hm
    · exact mem_membersNumbers.mpr ⟨_, Members.mem_of_get? hget, numbers_assignToDefinitions_subset hn⟩
    · exact mem_membersNumbers.mpr ⟨m, hm, hn⟩

end

end ExperimentKpi

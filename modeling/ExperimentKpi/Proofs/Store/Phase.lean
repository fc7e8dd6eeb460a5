/-
# Where the KPI of an experiment stands

An experiment has at most one row in the table of KPIs, and the KPI is in one of three phases: there is
none yet, it is live, or it is deleted (`Store.phase`). What lookups find depends on the phase alone
(`Store.kpiOf_eq`, `Store.liveKpiOf_of_live`, `Store.liveKpiOf_of_not_live`). A command takes the KPI of
its experiment to one phase (`Store.phase_create`, `Store.phase_replace`, `Store.phase_remove`,
`Store.phase_customize`, `Store.phase_regenerate`) and leaves the rows of the others
(`Store.ChangesOnly.kpiRow?_eq`).

Key definitions: `KpiPhase`, `Store.kpiRow?`, `Store.phase`, `Store.IsReadable`.
Key theorems: `Store.phase_eq_live_iff`, `Store.liveKpiOf_of_not_live`, `Store.phase_create`,
`Store.phase_replace`, `Store.phase_remove`, `Store.ChangesOnly.kpiRow?_eq`.
-/
import ExperimentKpi.Proofs.Store.Kpis

namespace ExperimentKpi

/-- Where the KPI of an experiment stands. -/
inductive KpiPhase where
  /-- There is none yet. -/
  | absent
  | live (kpi : Int)
  | deleted (kpi : Int)
deriving DecidableEq, Repr

/-- The phase of a KPI whose row is given. -/
def KpiPhase.ofRow? : Option KpiRow → KpiPhase
  | none => absent
  | some k => if k.deleted then deleted k.id else live k.id

namespace Store

/-- The row of an experiment's KPI. -/
def kpiRow? (s : Store) (experiment : Int) : Option KpiRow :=
  s.kpis.find? fun k => k.experiment == experiment

/-- The phase of an experiment's KPI. -/
def phase (s : Store) (experiment : Int) : KpiPhase :=
  .ofRow? (s.kpiRow? experiment)

/-- The id that the next KPI gets. -/
def freshKpi (s : Store) : Int :=
  nextId (s.kpis.map (·.id))

/-- The times of all rows of KPIs can be read. -/
def IsReadable (s : Store) : Prop :=
  ∀ k ∈ s.kpis, k.createTime.isReadable = true ∧ k.updateTime.isReadable = true

/-! ### Rows and phases -/

section

variable {s : Store} {experiment project : Int} {k : KpiRow}

theorem experiment_of_kpiRow? (h : s.kpiRow? experiment = some k) : k.experiment = experiment := by
  have := List.find?_some h
  simpa using this

theorem mem_of_kpiRow? (h : s.kpiRow? experiment = some k) : k ∈ s.kpis :=
  List.mem_of_find?_eq_some h

theorem phase_eq_absent_iff : s.phase experiment = .absent ↔ s.kpiRow? experiment = none := by
  unfold phase
  cases s.kpiRow? experiment with
  | none => simp [KpiPhase.ofRow?]
  | some k => by_cases hd : k.deleted = true <;> simp [KpiPhase.ofRow?, hd]

theorem phase_eq_live_iff {kpi : Int} : s.phase experiment = .live kpi ↔
    ∃ k, s.kpiRow? experiment = some k ∧ k.deleted = false ∧ k.id = kpi := by
  unfold phase
  cases s.kpiRow? experiment with
  | none => simp [KpiPhase.ofRow?]
  | some k => by_cases hd : k.deleted = true <;> simp [KpiPhase.ofRow?, hd]

theorem phase_of_kpiRow? (h : s.kpiRow? experiment = some k) :
    s.phase experiment = if k.deleted then .deleted k.id else .live k.id := by
  rw [phase, h]
  rfl

/-- Where no experiment occurs twice, a row is that of its experiment. -/
theorem kpiRow?_of_mem (hk : s.Keyed) (hm : k ∈ s.kpis) : s.kpiRow? k.experiment = some k := by
  cases hrow : s.kpiRow? k.experiment with
  | none =>
    have := List.find?_eq_none.mp hrow k hm
    simp at this
  | some l =>
    have hsame : l = k := List.inj_on_of_nodup_map hk.experiments (mem_of_kpiRow? hrow) hm
      (experiment_of_kpiRow? hrow)
    rw [hsame]

theorem mem_liveKpisOf_iff :
    k ∈ s.liveKpisOf project ↔ k ∈ s.kpis ∧ k.project = project ∧ k.deleted = false := by
  simp [liveKpisOf]

/-! ### Lookups -/

/-- A lookup that succeeds finds the row. -/
theorem kpiRow?_of_kpiOf {row : Option KpiRow} (h : s.kpiOf experiment = .ok row) :
    s.kpiRow? experiment = row := by
  unfold kpiOf at h
  unfold kpiRow?
  split at h
  · rename_i hnone
    rw [hnone]
    exact Except.ok.inj h
  · rename_i k hk
    split at h
    · rw [hk]
      exact Except.ok.inj h
    · cases h

/-- A live KPI that is found has a row that is not deleted. -/
theorem kpiRow?_of_liveKpiOf (h : s.liveKpiOf experiment = .ok k) :
    s.kpiRow? experiment = some k ∧ k.deleted = false := by
  obtain ⟨hk, hd⟩ := kpiOf_of_liveKpiOf h
  exact ⟨kpiRow?_of_kpiOf hk, hd⟩

/-- A lookup succeeds if the times of the rows can be read. -/
theorem kpiOf_eq (h : s.IsReadable) : s.kpiOf experiment = .ok (s.kpiRow? experiment) := by
  unfold kpiOf
  split
  · rename_i hnone
    rw [kpiRow?, hnone]
  · rename_i k hk
    have hk' : s.kpiRow? experiment = some k := hk
    rw [if_pos (h k (mem_of_kpiRow? hk')), hk']

theorem liveKpiOf_of_live (h : s.IsReadable) (hrow : s.kpiRow? experiment = some k)
    (hd : k.deleted = false) : s.liveKpiOf experiment = .ok k := by
  rw [liveKpiOf, kpiOf_eq h, hrow]
  simp only [hd]
  rfl

theorem liveKpiOf_of_not_live (h : s.IsReadable) (hphase : ∀ kpi, s.phase experiment ≠ .live kpi) :
    s.liveKpiOf experiment = .error (.noKpi experiment) := by
  rw [liveKpiOf, kpiOf_eq h]
  cases hrow : s.kpiRow? experiment with
  | none => rfl
  | some k =>
    cases hd : k.deleted with
    | false => exact absurd (phase_eq_live_iff.mpr ⟨k, hrow, hd, rfl⟩) (hphase k.id)
    | true => simp only [hd, if_true]

end

/-! ### Commands -/

section

variable {s s' : Store} {experiment other user kpi : Int} {k : KpiRow} {settings : String}
  {queries : Queries}

/-- A command on one experiment leaves the rows of the others. -/
theorem ChangesOnly.kpiRow?_eq (h : s.ChangesOnly experiment s') (hne : other ≠ experiment) :
    s'.kpiRow? other = s.kpiRow? other := by
  have hother : ∀ k : KpiRow, k.experiment = experiment → (k.experiment == other) = false := by
    intro k hk
    rw [hk]
    exact beq_false_of_ne hne.symm
  have hk := h.kpis
  unfold kpiRow?
  generalize s.kpis = rows at hk
  generalize s'.kpis = rows' at hk
  cases hk with
  | same => rfl
  | inserted own =>
    rw [List.find?_append, List.find?_cons, hother _ own, List.find?_nil, Option.or_none]
  | changed place own own' =>
    rw [place, List.find?_append, List.find?_append, List.find?_cons, List.find?_cons,
      hother _ own, hother _ own']

/-- The row of the experiment after the rows with its id are changed. -/
theorem kpiRow?_changeKpi (h : s.kpiRow? experiment = some k) {f : KpiRow → KpiRow}
    (hf : ∀ k, (f k).experiment = k.experiment) :
    (s.changeKpi k.id f).kpiRow? experiment = some (f k) := by
  have hsame : ((fun k : KpiRow => k.experiment == experiment) ∘
      fun l => if l.id = k.id then f l else l) = fun k => k.experiment == experiment := by
    funext l
    dsimp only [Function.comp]
    by_cases hid : l.id = k.id
    · rw [if_pos hid, hf]
    · rw [if_neg hid]
  unfold kpiRow? at h ⊢
  rw [changeKpi, List.find?_map, hsame, h, Option.map_some, if_pos rfl]

theorem apply_create {project user : Int} {name settings : String} {queries : Queries}
    (h : s.kpiRow? experiment = none) :
    ∃ s', (Command.create experiment project name user settings queries).apply s =
      .ok (s', s.freshKpi) := by
  have hnone : (s.kpis.any fun k => k.experiment == experiment) = false := by
    rw [List.any_eq_false]
    exact List.find?_eq_none.mp h
  simp only [Command.apply, hnone]
  exact ⟨_, rfl⟩

theorem phase_create {project : Int} {name : String} (h : s.kpiRow? experiment = none)
    (ha : (Command.create experiment project name user settings queries).apply s = .ok (s', kpi)) :
    s'.phase experiment = .live s.freshKpi := by
  unfold kpiRow? at h
  simp only [Command.apply] at ha
  split at ha
  · cases ha
  · cases ha
    unfold phase kpiRow?
    rw [linkKpi, List.find?_append, h, Option.none_or, List.find?_cons, beq_self_eq_true]
    rfl

theorem phase_replace (h : s.kpiRow? experiment = some k)
    (ha : (Command.replace k.id experiment user settings queries).apply s = .ok (s', kpi)) :
    s'.phase experiment = .live k.id := by
  cases ha
  have hrow : (s.changeKpi k.id fun l => l.replaced user settings queries).kpiRow? experiment =
      some (k.replaced user settings queries) := kpiRow?_changeKpi h fun _ => rfl
  exact phase_of_kpiRow? hrow

theorem phase_remove (h : s.kpiRow? experiment = some k)
    (ha : (Command.remove k.id user).apply s = .ok (s', kpi)) :
    s'.phase experiment = .deleted k.id := by
  cases ha
  have hrow : (s.changeKpi k.id fun l => l.removed user).kpiRow? experiment =
      some (k.removed user) := kpiRow?_changeKpi h fun _ => rfl
  exact phase_of_kpiRow? hrow

theorem phase_customize {kind : QueryKind} {query : String} (h : s.kpiRow? experiment = some k)
    (hd : k.deleted = false)
    (ha : (Command.customize k.id user kind query).apply s = .ok (s', kpi)) :
    s'.phase experiment = .live k.id := by
  cases ha
  have hrow := kpiRow?_changeKpi h fun l => (l.customized_keys user kind query).1
  have hlive : (k.customized user kind query).deleted = false := by cases kind <;> exact hd
  rw [phase_of_kpiRow? hrow, (k.customized_keys user kind query).2, hlive]
  rfl

theorem phase_regenerate {reaction : String} (h : s.kpiRow? experiment = some k)
    (hd : k.deleted = false)
    (ha : (Command.regenerate k.id experiment reaction).apply s = .ok (s', kpi)) :
    s'.phase experiment = .live k.id := by
  cases ha
  have hrow : (s.changeKpi k.id fun l => l.regenerated reaction).kpiRow? experiment =
      some (k.regenerated reaction) := kpiRow?_changeKpi h fun _ => rfl
  have hlive : (k.regenerated reaction).deleted = false := hd
  rw [phase_of_kpiRow? hrow, hlive]
  rfl

end

end Store

end ExperimentKpi

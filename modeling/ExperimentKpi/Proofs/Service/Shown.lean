/-
# Settings that stay as they were sent

The row of an experiment's live KPI keeps the text of its settings (`Store.HasSettings`) while other
experiments are written and while its queries are given or compiled anew; creating and replacing put
the text of the sent document there (`KpiAction.hasSettings_of_run`), which is read back as that
document but for its pattern ids (`exists_parse?_canonical`).

Key definitions: `Store.HasSettings`, `KpiAction.sparesSettings`.
Key theorems: `Store.HasSettings.of_changesOnly`, `Store.HasSettings.of_run`,
`KpiAction.hasSettings_of_run`, `exists_parse?_canonical`.
-/
import ExperimentKpi.Proofs.Service.Lifecycle
import ExperimentKpi.Proofs.Settings.Shown

namespace ExperimentKpi

/-- A KPI that can be shown: it is not deleted, its times can be read, and `text` is stored for its
settings. -/
structure KpiRow.Holds (k : KpiRow) (text : String) : Prop where
  live : k.deleted = false
  created : k.createTime.isReadable = true
  updated : k.updateTime.isReadable = true
  settings : k.settings = text

theorem KpiRow.Holds.customized {k : KpiRow} {text : String} (h : k.Holds text) (user : Int)
    (kind : QueryKind) (query : String) : (k.customized user kind query).Holds text := by
  cases kind <;> exact ⟨h.live, h.created, rfl, h.settings⟩

theorem KpiRow.Holds.regenerated {k : KpiRow} {text : String} (h : k.Holds text)
    (reaction : String) : (k.regenerated reaction).Holds text :=
  ⟨h.live, h.created, rfl, h.settings⟩

/-- An experiment is live, and so is its KPI, whose settings are `text`. -/
structure Store.HasSettings (s : Store) (experiment : Int) (text : String) : Prop where
  keyed : s.Keyed
  isLive : ∃ e, s.experiment experiment = .ok e
  row : ∃ k, s.kpiRow? experiment = some k ∧ k.Holds text

namespace Store

variable {s s' : Store} {experiment other : Int} {text : String}

/-- The row of an experiment that is put in is found. -/
theorem kpiRow?_insert {k : KpiRow} (first : ∀ l ∈ s.kpis, l.experiment ≠ experiment)
    (own : k.experiment = experiment) :
    { s with kpis := s.kpis ++ [k] }.kpiRow? experiment = some k := by
  have hnone : (s.kpis.find? fun l => l.experiment == experiment) = none :=
    List.find?_eq_none.mpr fun l hl => by simpa using first l hl
  have hown : (k.experiment == experiment) = true := by simpa using own
  unfold kpiRow?
  rw [List.find?_append, hnone, Option.none_or, List.find?_cons, hown]

theorem kpiOf_of_kpiRow? {k : KpiRow} (hrow : s.kpiRow? experiment = some k)
    (hcreated : k.createTime.isReadable = true) (hupdated : k.updateTime.isReadable = true) :
    s.kpiOf experiment = .ok (some k) := by
  unfold kpiRow? at hrow
  unfold kpiOf
  rw [hrow]
  exact if_pos ⟨hcreated, hupdated⟩

theorem isReadable_of_kpiOf {k : KpiRow} (h : s.kpiOf experiment = .ok (some k)) :
    k.createTime.isReadable = true ∧ k.updateTime.isReadable = true := by
  unfold kpiOf at h
  split at h
  · cases h
  · split at h
    · rename_i hread
      cases h
      exact hread
    · cases h

/-- An experiment that is live stays so. -/
theorem ChangesOnly.exists_experiment (h : s.ChangesOnly other s') {e : Experiment}
    (he : s.experiment experiment = .ok e) : ∃ e', s'.experiment experiment = .ok e' := by
  obtain ⟨kpi, he'⟩ := h.alike.experiment experiment
  rw [he] at he'
  exact ⟨_, he'⟩

namespace HasSettings

/-- A command on the KPI of another experiment leaves the settings. -/
theorem of_changesOnly (h : s.HasSettings experiment text) (hc : s.ChangesOnly other s')
    (hne : experiment ≠ other) : s'.HasSettings experiment text := by
  obtain ⟨e, he⟩ := h.isLive
  obtain ⟨k, hk, hholds⟩ := h.row
  exact ⟨hc.keyed h.keyed, hc.exists_experiment he, k, (hc.kpiRow?_eq hne).trans hk, hholds⟩

/-- A change of the row that leaves its settings. -/
theorem changeKpi {k : KpiRow} (h : s.HasSettings experiment text)
    (hrow : s.kpiRow? experiment = some k) {f : KpiRow → KpiRow}
    (kept : ∀ l, (f l).identity = l.identity) (hholds : (f k).Holds text) :
    (s.changeKpi k.id f).HasSettings experiment text := by
  have hwrites : s.WritesRow experiment (s.changeKpi k.id f) :=
    .changed (mem_of_kpiRow? hrow) (experiment_of_kpiRow? hrow) kept
  refine ⟨(hwrites.changesOnly h.keyed.ids).keyed h.keyed, h.isLive, f k, ?_, hholds⟩
  exact kpiRow?_changeKpi hrow fun l => congrArg KpiIdentity.experiment (kept l)

/-- The live KPI of an experiment that has settings. -/
theorem liveKpiOf (h : s.HasSettings experiment text) :
    ∃ k, s.liveKpiOf experiment = .ok k ∧ k.settings = text := by
  obtain ⟨k, hk, hholds⟩ := h.row
  refine ⟨k, ?_, hholds.settings⟩
  rw [Store.liveKpiOf, kpiOf_of_kpiRow? hk hholds.created hholds.updated]
  simp only [hholds.live]
  rfl

end HasSettings

end Store

/-! ### Actions -/

/-- An action that neither sends settings nor deletes. -/
def KpiAction.sparesSettings : KpiAction → Bool
  | create _ | update _ | remove => false
  | view | customize .. | regenerate => true

section

variable {env : Environment} {s s' : Store} {user : User} {experiment : Int} {action : KpiAction}
  {text : String} {result : Except Failure Answer}

/-- **Such an action leaves the settings.** -/
theorem Store.HasSettings.of_run (h : s.HasSettings experiment text)
    (hspares : action.sparesSettings = true)
    (hrun : (action.operation env user experiment).run s = (s', result)) :
    s'.HasSettings experiment text := by
  obtain ⟨k, hrow, hholds⟩ := h.row
  cases result with
  | error failure =>
    obtain rfl : s' = s := Operation.eq_of_run_error hrun
    exact h
  | ok answer =>
    obtain ⟨decision, hdecision, hsettle⟩ := Operation.exists_of_run_ok hrun
    have hends := KpiAction.endsIn_of_run hdecision
    cases action with
    | create | update | remove => cases hspares
    | view =>
      obtain ⟨-, -, detail, rfl⟩ := hends
      cases hsettle
      exact h
    | customize kind query =>
      obtain ⟨l, hl, rfl⟩ := hends
      obtain rfl := Option.some.inj (hrow.symm.trans (Store.kpiRow?_of_liveKpiOf hl).1)
      cases hsettle
      exact h.changeKpi hrow (fun l => l.identity_customized user.id kind query)
        (hholds.customized user.id kind query)
    | regenerate =>
      obtain ⟨l, hl, reaction, rfl⟩ := hends
      obtain rfl := Option.some.inj (hrow.symm.trans (Store.kpiRow?_of_liveKpiOf hl).1)
      cases hsettle
      exact h.changeKpi hrow (fun _ => rfl) (hholds.regenerated reaction)

/-- **An action that sends settings leaves the text of the document that was sent**, with the pattern
ids that it gets in the experiment's context. -/
theorem KpiAction.hasSettings_of_run {document : Json} {answer : Answer} (hk : s.Keyed)
    (hsends : action.document? = some document)
    (hrun : (action.operation env user experiment).run s = (s', .ok answer)) :
    ∃ context accepted settings text, (loadContext experiment).run s = .ok context ∧
      Settings.validate document = .ok accepted ∧
      ExperimentKpi.canonical context document = .ok (text, settings) ∧
      s'.HasSettings experiment text := by
  obtain ⟨decision, hdecision, hsettle⟩ := Operation.exists_of_run_ok hrun
  have hends := endsIn_of_run hdecision
  cases action with
  | view | remove | customize | regenerate => cases hsends
  | create =>
    cases hsends
    obtain ⟨-, project, name, text, queries, rfl⟩ := hends
    obtain ⟨kpi, happly⟩ := Decision.settle_write_ok hsettle
    have heffect := Effect.of_createKpi hdecision
    have hchanges := heffect.changesOnly hk.ids happly
    cases heffect with
    | create given loaded valid absent canonical compiled =>
      cases given
      obtain ⟨he, -⟩ := loadContext_run_iff.mp loaded
      obtain ⟨first, -, rfl⟩ := Command.apply_create_ok happly
      exact ⟨_, _, _, _, loaded, valid, canonical, hchanges.keyed hk, hchanges.exists_experiment he,
        _, Store.kpiRow?_insert first rfl, rfl, rfl, rfl, rfl⟩
  | update =>
    cases hsends
    obtain ⟨k, -, text, queries, rfl⟩ := hends
    obtain ⟨kpi, happly⟩ := Decision.settle_write_ok hsettle
    generalize hc : Command.replace k.id experiment user.id text queries = c at hdecision happly
    have heffect := Effect.of_updateKpi hdecision
    have hchanges := heffect.changesOnly hk.ids happly
    cases heffect with
    | @replace _ _ _ stored _ written row given loaded granted valid found canonical compiled =>
      cases given
      cases happly
      obtain ⟨he, -⟩ := loadContext_run_iff.mp loaded
      obtain ⟨hcreated, -⟩ := Store.isReadable_of_kpiOf found
      refine ⟨_, _, _, _, loaded, valid, canonical, hchanges.keyed hk,
        hchanges.exists_experiment he, row.replaced user.id stored written, ?_, rfl, hcreated, rfl, rfl⟩
      exact Store.kpiRow?_changeKpi (Store.kpiRow?_of_kpiOf found) fun _ => rfl
    | _ => cases hc

end

/-! ### What is shown -/

/-- The settings that are stored show the document that was sent. -/
theorem exists_parse?_canonical {context : ExperimentContext} {document : Json}
    {accepted settings : Settings} {text : String}
    (hvalid : Settings.validate document = .ok accepted) (hwellFormed : document.WellFormed)
    (hnest : document.nesting ≤ Json.nestingLimit) (hnum : ∀ n ∈ document.numbers, n.ReadsBack)
    (hcanonical : canonical context document = .ok (text, settings)) :
    ∃ stored, Json.parse? text = some stored ∧
      stored.Shows context.design context.models document := by
  obtain ⟨document', assigned, hassign, -, rfl⟩ := canonical_ok_iff.mp hcanonical
  have hfst : (assignPatternIds context.design context.models document).1 = document' := by
    rw [hassign]
  refine ⟨document', Json.parse?_compact ?_ ?_ fun n hn => ?_,
    Json.shows_assignPatternIds hvalid hassign⟩
  · rw [← hfst]
    exact wellFormed_assignPatternIds hwellFormed
  · rw [← hfst]
    exact (nesting_assignPatternIds_le document).trans hnest
  · rw [← hfst] at hn
    exact hnum n (numbers_assignPatternIds_subset hn)

end ExperimentKpi

/-
# What the settings of a KPI are stored for

The settings of every row were once sent as a document that was accepted and whose queries compiled
(`KpiRow.IsStoredFor`), and commands keep it so (`Effect.isStored`). What is stored can therefore
always be shown (`KpiRow.IsStoredFor.exists_detail`) and is always accepted again, as the settings that
were compiled but for their numbers, which are read back from their texts
(`KpiRow.IsStoredFor.revalidate`). If reading back changes no number, the reaction query compiles anew
(`KpiRow.IsStoredFor.recompiles`).

Key definitions: `Json.IsReceivable`, `ExperimentContext.Accepts`, `KpiRow.IsStoredFor`,
`KpiRow.IsStored`, `KpiRow.Recompiles`.
Key theorems: `KpiRow.IsStoredFor.exists_detail`, `KpiRow.IsStoredFor.revalidate`,
`KpiRow.IsStoredFor.recompiles`, `Effect.isStored`.
-/
import ExperimentKpi.Proofs.Service.Current
import ExperimentKpi.Proofs.Settings.Reread

namespace ExperimentKpi

/-- A document that can be sent: it is not nested too deep, and its numbers fit. -/
structure Json.IsReceivable (document : Json) : Prop where
  nesting : document.nesting ≤ Json.nestingLimit
  fits : ∀ n ∈ document.numbers, n.Fits

/-- A document is accepted as settings, and its queries compile; `text` is stored for it. -/
def ExperimentContext.Accepts (context : ExperimentContext) (w : Warehouse) (document : Json)
    (text : String) : Prop :=
  ∃ accepted settings queries, Settings.validate document = .ok accepted ∧
    canonical context document = .ok (text, settings) ∧
      compileQueries context settings w = .ok queries

/-- The settings that are stored are accepted, and a reaction query compiles from them. -/
def KpiRow.Recompiles (k : KpiRow) (context : ExperimentContext) (w : Warehouse) : Prop :=
  ∃ settings query, Settings.revalidate k.settings = .ok settings ∧
    compileReaction context settings w = .ok query

theorem compileQueries_withLink {context : ExperimentContext} {settings : Settings} {w : Warehouse}
    {kpi : Option Int} :
    compileQueries (context.withLink kpi) settings w = compileQueries context settings w := by
  rw [compileQueries, compileQueries, compileReaction_withLink, compileReport_withLink]

theorem ExperimentContext.accepts_withLink {context : ExperimentContext} {w : Warehouse}
    {document : Json} {text : String} {kpi : Option Int} :
    (context.withLink kpi).Accepts w document text ↔ context.Accepts w document text := by
  simp only [Accepts, compileQueries_withLink]
  exact Iff.rfl

theorem KpiRow.recompiles_withLink {k : KpiRow} {context : ExperimentContext} {w : Warehouse}
    {kpi : Option Int} : k.Recompiles (context.withLink kpi) w ↔ k.Recompiles context w := by
  simp only [Recompiles, compileReaction_withLink]

/-- The row is of the context's project, its times can be read, and its settings are stored for a
document. -/
structure KpiRow.IsStoredFor (k : KpiRow) (context : ExperimentContext) (w : Warehouse)
    (document : Json) : Prop where
  project : k.project = context.experiment.project
  created : k.createTime.isReadable = true
  updated : k.updateTime.isReadable = true
  accepted : context.Accepts w document k.settings

namespace KpiRow.IsStoredFor

variable {k : KpiRow} {context : ExperimentContext} {w : Warehouse} {document : Json}

/-- **The settings that are stored can be shown.** -/
theorem exists_detail (h : k.IsStoredFor context w document) (hd : document.IsReceivable) :
    ∃ detail, k.detail = .ok detail := by
  obtain ⟨accepted, settings, queries, -, hcanonical, -⟩ := h.accepted
  obtain ⟨document', assigned, hassign, -, htext⟩ := canonical_ok_iff.mp hcanonical
  have hfst : (assignPatternIds context.design context.models document).1 = document' := by
    rw [hassign]
  have hnest : document'.nesting ≤ Json.nestingLimit := by
    rw [← hfst]
    exact (nesting_assignPatternIds_le document).trans hd.nesting
  have hfits : ∀ n ∈ document'.numbers, n.Fits := by
    intro n hn
    rw [← hfst] at hn
    exact hd.fits n (numbers_assignPatternIds_subset hn)
  obtain ⟨stored, hstored⟩ := Json.exists_parse?_compact hnest hfits
  unfold detail
  rw [htext, hstored]
  exact ⟨_, rfl⟩

/-- **The settings that are stored are accepted again**, as those that were compiled with the numbers
that are read back. -/
theorem revalidate (h : k.IsStoredFor context w document) (hd : document.IsReceivable) :
    ∃ settings queries, canonical context document = .ok (k.settings, settings) ∧
      compileQueries context settings w = .ok queries ∧
      Settings.revalidate k.settings = .ok (settings.mapNumbers Number.reread) := by
  obtain ⟨accepted, settings, queries, hvalid, hcanonical, hcompiled⟩ := h.accepted
  refine ⟨settings, queries, hcanonical, hcompiled, ?_⟩
  obtain ⟨document', assigned, hassign, hread, htext⟩ := canonical_ok_iff.mp hcanonical
  obtain ⟨-, -, hreads, haccept⟩ := Settings.validate_ok_iff.mp hvalid
  have hfits : ∀ n ∈ document'.numbers, n.Fits := fun n hn =>
    hd.fits n (numbers_assignPatternIds_subset (by rw [hassign]; exact hn))
  -- Within the limit of documents the body with pattern ids reads as the same settings as within its
  -- own nesting.
  obtain ⟨s, hs, hagree⟩ := Settings.ofRaw?_assignPatternIds hassign
    (Settings.ofRaw?_mono hd.nesting hreads)
  obtain rfl : settings = s := Settings.ofRaw?_unique hread hs
  rw [htext]
  exact Settings.revalidate_compact_of_fits hfits hs (hagree.isAcceptable haccept)

/-- **If reading back changes no number, the reaction query compiles anew.** -/
theorem recompiles (h : k.IsStoredFor context w document)
    (hnest : document.nesting ≤ Json.nestingLimit) (hnum : ∀ n ∈ document.numbers, n.ReadsBack) :
    k.Recompiles context w := by
  obtain ⟨accepted, settings, queries, hvalid, hcanonical, hcompiled⟩ := h.accepted
  have hagain : Settings.revalidate k.settings = .ok settings :=
    revalidate_canonical hvalid hnest hnum hcanonical
  exact ⟨settings, queries.reaction, hagain, (compileQueries_ok hcompiled).1⟩

end KpiRow.IsStoredFor

/-- The settings of a row are stored for a document that has a property, in the context of the row's
experiment. -/
def KpiRow.IsStored (s : Store) (w : Warehouse) (P : Json → Prop) (k : KpiRow) : Prop :=
  ∃ context document, (loadContext k.experiment).run s = .ok context ∧ P document ∧
    k.IsStoredFor context w document

section

variable {s s' : Store} {w : Warehouse} {P : Json → Prop} {k : KpiRow}

theorem KpiRow.IsStored.isReadable (h : k.IsStored s w P) :
    k.createTime.isReadable = true ∧ k.updateTime.isReadable = true := by
  obtain ⟨context, document, -, -, hstored⟩ := h
  exact ⟨hstored.created, hstored.updated⟩

theorem KpiRow.IsStored.of_changesOnly {experiment : Int} (h : s.ChangesOnly experiment s')
    (hk : k.IsStored s w P) : k.IsStored s' w P := by
  obtain ⟨context, document, hload, hP, hstored⟩ := hk
  obtain ⟨kpi, hload'⟩ := h.loadContext hload
  refine ⟨context.withLink kpi, document, hload', hP, ?_⟩
  exact ⟨hstored.project, hstored.created, hstored.updated,
    ExperimentContext.accepts_withLink.mpr hstored.accepted⟩

/-- A row whose settings stay is stored for what it was stored for. -/
theorem KpiRow.IsStored.of_settings_eq {k' : KpiRow} (hk : k.IsStored s w P)
    (hproject : k'.project = k.project) (hexperiment : k'.experiment = k.experiment)
    (hsettings : k'.settings = k.settings) (hcreated : k'.createTime = k.createTime)
    (hupdated : k'.updateTime = .clock) : k'.IsStored s w P := by
  obtain ⟨context, document, hload, hP, hstored⟩ := hk
  refine ⟨context, document, ?_, hP, ?_⟩
  · rw [hexperiment]
    exact hload
  · refine ⟨hproject.trans hstored.project, ?_, ?_, ?_⟩
    · rw [hcreated]
      exact hstored.created
    · rw [hupdated]
      rfl
    · rw [hsettings]
      exact hstored.accepted

/-- **Every command leaves the settings of all rows stored for documents that were sent.** -/
theorem Effect.isStored {env : Environment} {user : User} {experiment : Int}
    {body : Except Failure Json} {c : Command} {kpi : Int} (h : Effect env s user experiment body c)
    (hbody : ∀ document, body = .ok document → P document) (hk : (s.kpis.map (·.id)).Nodup)
    (ha : c.apply s = .ok (s', kpi)) (hstored : ∀ k ∈ s.kpis, k.IsStored s env.warehouse P) :
    ∀ k ∈ s'.kpis, k.IsStored s' env.warehouse P := by
  have hchanges := h.changesOnly hk ha
  suffices hall : ∀ k ∈ s'.kpis, k.IsStored s env.warehouse P from
    fun k hk => (hall k hk).of_changesOnly hchanges
  cases h with
  | create given loaded valid absent canonical compiled =>
    simp only [Command.apply] at ha
    split at ha
    · cases ha
    · cases ha
      intro k hk
      rcases List.mem_append.mp hk with hk | hk
      · exact hstored k hk
      · rw [List.mem_singleton.mp hk]
        exact ⟨_, _, loaded, hbody _ given, rfl, rfl, rfl, _, _, _, valid, canonical, compiled⟩
  | replace given loaded _ valid found canonical compiled =>
    cases ha
    obtain ⟨hm, rfl⟩ := Store.mem_of_kpiOf found
    refine Store.forall_mem_changeKpi hk hm hstored ?_
    -- The context is that of the experiment, so the project is the one that the row was stored with.
    obtain ⟨context, document, hload, -, hold⟩ := hstored _ hm
    obtain rfl := Except.ok.inj (hload.symm.trans loaded)
    exact ⟨_, _, hload, hbody _ given, hold.project, hold.created, rfl, _, _, _, valid, canonical,
      compiled⟩
  | remove _ found =>
    cases ha
    obtain ⟨hm, -⟩ := Store.mem_of_liveKpiOf found
    exact Store.forall_mem_changeKpi hk hm hstored
      ((hstored _ hm).of_settings_eq rfl rfl rfl rfl rfl)
  | @customize e p k kind query _ _ _ found =>
    cases ha
    obtain ⟨hm, -⟩ := Store.mem_of_liveKpiOf found
    refine Store.forall_mem_changeKpi hk hm hstored ?_
    cases kind <;> exact (hstored _ hm).of_settings_eq rfl rfl rfl rfl rfl
  | regenerate _ found =>
    cases ha
    obtain ⟨hm, -⟩ := Store.mem_of_liveKpiOf found
    exact Store.forall_mem_changeKpi hk hm hstored
      ((hstored _ hm).of_settings_eq rfl rfl rfl rfl rfl)

end

end ExperimentKpi

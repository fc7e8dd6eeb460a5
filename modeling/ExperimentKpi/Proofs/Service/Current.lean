/-
# Stored queries are those of the stored settings

A KPI is current if its stored settings are accepted and each of its queries, unless it is a custom
one, is what they compile to (`KpiRow.IsCurrent`). What an experiment's queries are compiled from does
not depend on the table of KPIs nor on the links to it (`Store.Alike.loadContext_run`,
`compileReaction_withLink`), so a command on one experiment leaves the KPIs of the others current, and each
command leaves its own KPI current (`Effect.isCurrent`).

Key definitions: `Store.Alike`, `KpiRow.IsCompiledFrom`, `KpiRow.IsCurrent`.
Key theorems: `Store.Alike.loadContext_run`, `Store.ChangesOnly.loadContext`, `Effect.isCurrent`.
-/
import ExperimentKpi.Proofs.Service.Canonical
import ExperimentKpi.Proofs.Store.Kpis

namespace ExperimentKpi

/-! ### Contexts that differ in a link -/

/-- The context with the experiment linked to a KPI. -/
def ExperimentContext.withLink (context : ExperimentContext) (kpi : Option Int) :
    ExperimentContext :=
  { context with experiment := { context.experiment with kpi } }

section

variable {context : ExperimentContext} {settings : Settings} {w : Warehouse} {kpi : Option Int}

theorem fragmentsOf_withLink (patterns : List String) (isFirst : Bool) (ds : List Definition) :
    fragmentsOf (context.withLink kpi) w patterns isFirst ds =
      fragmentsOf context w patterns isFirst ds := by
  induction ds generalizing isFirst with
  | nil => rfl
  | cons d ds ih => rw [fragmentsOf, fragmentsOf, ih]; rfl

/-- No query depends on the link. -/
theorem compileReaction_withLink :
    compileReaction (context.withLink kpi) settings w = compileReaction context settings w := by
  have hfragments : reactionFragments (context.withLink kpi) settings w =
      reactionFragments context settings w := by
    simp only [reactionFragments, fragmentsOf_withLink]
    rfl
  rw [compileReaction, compileReaction, hfragments]
  rfl

theorem compileReport_withLink :
    compileReport (context.withLink kpi) settings w = compileReport context settings w := rfl

end

/-! ### Stores that differ in KPIs -/

/-- The row of an experiment without its link. -/
def ExperimentRow.unlinked (e : ExperimentRow) : ExperimentRow :=
  { e with kpi := none }

theorem ExperimentRow.read_withLink (e : ExperimentRow) (kpi : Option Int) :
    { e with kpi }.read = e.read.map fun experiment => { experiment with kpi } := by
  unfold read
  dsimp only
  split <;> rfl

/-- Two stores differ in nothing but KPIs and the links to them. -/
structure Store.Alike (s s' : Store) : Prop where
  others : s' = { s with kpis := s'.kpis, experiments := s'.experiments }
  experiments :
    s'.experiments.map ExperimentRow.unlinked = s.experiments.map ExperimentRow.unlinked

namespace Store.Alike

variable {s s' s'' : Store}

theorem refl (s : Store) : s.Alike s := ⟨rfl, rfl⟩

theorem trans (h : s.Alike s') (h' : s'.Alike s'') : s.Alike s'' := by
  refine ⟨?_, h'.experiments.trans h.experiments⟩
  rw [h'.others, h.others]

/-- The live experiments are the same but for their links. -/
theorem experiment (h : s.Alike s') (id : Int) :
    ∃ kpi, s'.experiment id = (s.experiment id).map fun e => { e with kpi } := by
  have hfind : (s'.experiments.find? fun r => r.id == id && !r.deleted).map
        ExperimentRow.unlinked =
      (s.experiments.find? fun r => r.id == id && !r.deleted).map ExperimentRow.unlinked := by
    have hmapped := congrArg (List.find? fun r : ExperimentRow => r.id == id && !r.deleted)
      h.experiments
    rwa [List.find?_map, List.find?_map] at hmapped
  unfold Store.experiment
  cases hr : s.experiments.find? fun r => r.id == id && !r.deleted with
  | none =>
    rw [hr, Option.map_none, Option.map_eq_none_iff] at hfind
    exact ⟨none, by rw [hfind]; rfl⟩
  | some r =>
    rw [hr, Option.map_some, Option.map_eq_some_iff] at hfind
    obtain ⟨r', hr', hsame⟩ := hfind
    have hlink : r' = { r with kpi := r'.kpi } :=
      congrArg (fun e : ExperimentRow => { e with kpi := r'.kpi }) hsame
    refine ⟨r'.kpi, ?_⟩
    rw [hr']
    dsimp only
    rw [hlink]
    exact r.read_withLink r'.kpi

/-- What is read besides is the same. -/
theorem project (h : s.Alike s') : s'.project = s.project := by
  rw [h.others]
  rfl

theorem settingsOf (h : s.Alike s') : s'.settingsOf = s.settingsOf := by
  rw [h.others]
  rfl

theorem user (h : s.Alike s') : s'.user = s.user := by
  rw [h.others]
  rfl

theorem design (h : s.Alike s') (id : Int) :
    s'.variationsOf id = s.variationsOf id ∧ s'.conditionsOf id = s.conditionsOf id := by
  rw [h.others]
  exact ⟨rfl, rfl⟩

theorem modelsOf (h : s.Alike s') : s'.modelsOf = s.modelsOf := by
  rw [h.others]
  rfl

/-- What an experiment's queries depend on is the same but for the link. -/
theorem loadContext_run (h : s.Alike s') (id : Int) :
    ∃ kpi, (loadContext id).run s' = ((loadContext id).run s).map (·.withLink kpi) := by
  obtain ⟨kpi, he⟩ := h.experiment id
  refine ⟨kpi, ?_⟩
  simp only [loadContext, Inquiry.run_bind, Inquiry.run_query, Inquiry.run_check, Inquiry.run_pure,
    he, h.project, h.settingsOf, h.design id, h.modelsOf]
  cases s.experiment id with
  | error failure => rfl
  | ok e =>
    show s.project e.project >>= _ = Except.map _ (s.project e.project >>= _)
    cases s.project e.project with
    | error failure => rfl
    | ok p =>
      cases horganization : p.organization with
      | none => simp only [bind, Except.bind, Except.map, horganization]
      | some organization =>
        simp only [bind, Except.bind, Except.map, horganization]
        cases s.settingsOf organization p.id with
        | error failure => rfl
        | ok settings => rfl

theorem exists_loadContext (h : s.Alike s') {id : Int} {context : ExperimentContext}
    (hc : (loadContext id).run s = .ok context) :
    ∃ kpi, (loadContext id).run s' = .ok (context.withLink kpi) := by
  obtain ⟨kpi, hk⟩ := h.loadContext_run id
  exact ⟨kpi, by rw [hk, hc]; rfl⟩

end Store.Alike

namespace Store.ChangesOnly

variable {s s' : Store} {experiment : Int}

theorem alike (h : s.ChangesOnly experiment s') : s.Alike s' := by
  refine ⟨h.others, ?_⟩
  rcases h.experiments with hsame | ⟨kpi, hlinked⟩
  · rw [hsame]
  · have hrow : ∀ e : ExperimentRow,
        (if e.id = experiment then { e with kpi } else e).unlinked = e.unlinked := by
      intro e
      by_cases he : e.id = experiment
      · rw [if_pos he]
        rfl
      · rw [if_neg he]
    rw [hlinked, List.map_map]
    exact List.map_congr_left fun e _ => hrow e

/-- What an experiment's queries depend on is the same but for the link. -/
theorem loadContext (h : s.ChangesOnly experiment s') {id : Int} {context : ExperimentContext}
    (hc : (loadContext id).run s = .ok context) :
    ∃ kpi, (ExperimentKpi.loadContext id).run s' = .ok (context.withLink kpi) :=
  h.alike.exists_loadContext hc

end Store.ChangesOnly

/-! ### Current KPIs -/

/-- The stored settings are accepted as `settings`, and each query that is not a custom one is what
they compile to in a context. -/
structure KpiRow.IsCompiledFrom (k : KpiRow) (context : ExperimentContext) (settings : Settings)
    (w : Warehouse) : Prop where
  accepted : Settings.revalidate k.settings = .ok settings
  reaction : k.reactionIsCustom = false →
    ∃ query, k.reaction = some query ∧ compileReaction context settings w = .ok query
  report : k.reportIsCustom = false →
    ∃ query, k.report = some query ∧ compileReport context settings w = .ok query

/-- The queries of a KPI are those of its stored settings. -/
def KpiRow.IsCurrent (s : Store) (w : Warehouse) (k : KpiRow) : Prop :=
  ∃ context settings, (loadContext k.experiment).run s = .ok context ∧
    k.IsCompiledFrom context settings w

theorem KpiRow.IsCurrent.of_changesOnly {s s' : Store} {experiment : Int} {w : Warehouse}
    {k : KpiRow} (h : s.ChangesOnly experiment s') (hk : k.IsCurrent s w) : k.IsCurrent s' w := by
  obtain ⟨context, settings, hload, hcompiled⟩ := hk
  obtain ⟨kpi, hload'⟩ := h.loadContext hload
  refine ⟨_, settings, hload', hcompiled.accepted, ?_, ?_⟩
  · rw [compileReaction_withLink]
    exact hcompiled.reaction
  · rw [compileReport_withLink]
    exact hcompiled.report

/-- Changing a row to one with a property keeps the property of all rows. -/
theorem Store.forall_mem_changeKpi {s : Store} {kpi : KpiRow} {f : KpiRow → KpiRow}
    {P : KpiRow → Prop} (hk : (s.kpis.map (·.id)).Nodup) (hm : kpi ∈ s.kpis)
    (hall : ∀ k ∈ s.kpis, P k) (hf : P (f kpi)) : ∀ k ∈ (s.changeKpi kpi.id f).kpis, P k := by
  obtain ⟨before, after, hs, hs'⟩ := changeKpi_kpis hk hm f
  intro k hk
  rw [hs', List.mem_append, List.mem_cons] at hk
  rcases hk with hk | rfl | hk
  · exact hall k (by rw [hs]; exact List.mem_append_left _ hk)
  · exact hf
  · exact hall k (by rw [hs]; exact List.mem_append_right _ (List.mem_cons_of_mem _ hk))

theorem compileQueries_ok {context : ExperimentContext} {settings : Settings} {w : Warehouse}
    {queries : Queries} (h : compileQueries context settings w = .ok queries) :
    compileReaction context settings w = .ok queries.reaction ∧
      compileReport context settings w = .ok queries.report := by
  obtain ⟨reaction, hreaction, h⟩ := bind_ok_iff.mp h
  obtain ⟨report, hreport, h⟩ := bind_ok_iff.mp h
  cases h
  exact ⟨hreaction, hreport⟩

/-- The document of a request's body is read back from its compact text. -/
def IsReadBack (body : Except Failure Json) : Prop :=
  ∀ document, body = .ok document →
    document.nesting ≤ Json.nestingLimit ∧ ∀ n ∈ document.numbers, n.ReadsBack

/-- **Every command leaves all KPIs current.** -/
theorem Effect.isCurrent {env : Environment} {s s' : Store} {user : User} {experiment : Int}
    {body : Except Failure Json} {c : Command} {kpi : Int} (h : Effect env s user experiment body c)
    (hbody : IsReadBack body) (hk : (s.kpis.map (·.id)).Nodup) (ha : c.apply s = .ok (s', kpi))
    (hcurrent : ∀ k ∈ s.kpis, k.IsCurrent s env.warehouse) :
    ∀ k ∈ s'.kpis, k.IsCurrent s' env.warehouse := by
  have hchanges := h.changesOnly hk ha
  -- A row that is current before the command is current after it: only the new row is of interest.
  suffices hall : ∀ k ∈ s'.kpis, k.IsCurrent s env.warehouse from
    fun k hk => (hall k hk).of_changesOnly hchanges
  cases h with
  | create given loaded valid absent canonical compiled =>
    simp only [Command.apply] at ha
    split at ha
    · cases ha
    · cases ha
      obtain ⟨hnest, hnum⟩ := hbody _ given
      obtain ⟨hreaction, hreport⟩ := compileQueries_ok compiled
      intro k hk
      rcases List.mem_append.mp hk with hk | hk
      · exact hcurrent k hk
      · rw [List.mem_singleton.mp hk]
        exact ⟨_, _, loaded, revalidate_canonical valid hnest hnum canonical,
          fun _ => ⟨_, rfl, hreaction⟩, fun _ => ⟨_, rfl, hreport⟩⟩
  | replace given loaded _ valid found canonical compiled =>
    cases ha
    obtain ⟨hnest, hnum⟩ := hbody _ given
    obtain ⟨hreaction, hreport⟩ := compileQueries_ok compiled
    obtain ⟨hm, rfl⟩ := Store.mem_of_kpiOf found
    refine Store.forall_mem_changeKpi hk hm hcurrent ?_
    exact ⟨_, _, loaded, revalidate_canonical valid hnest hnum canonical,
      fun _ => ⟨_, rfl, hreaction⟩, fun _ => ⟨_, rfl, hreport⟩⟩
  | remove _ found =>
    cases ha
    obtain ⟨hm, -⟩ := Store.mem_of_liveKpiOf found
    refine Store.forall_mem_changeKpi hk hm hcurrent ?_
    obtain ⟨context, settings, hload, hcompiled⟩ := hcurrent _ hm
    exact ⟨context, settings, hload, hcompiled.accepted, hcompiled.reaction, hcompiled.report⟩
  | @customize e p k kind query _ _ _ found =>
    cases ha
    obtain ⟨hm, -⟩ := Store.mem_of_liveKpiOf found
    refine Store.forall_mem_changeKpi hk hm hcurrent ?_
    obtain ⟨context, settings, hload, hcompiled⟩ := hcurrent _ hm
    -- The query that was replaced is a custom one now, and the other one is as before.
    cases kind
    · refine ⟨context, settings, hload, hcompiled.accepted, ?_, hcompiled.report⟩
      intro hcustom
      cases hcustom
    · refine ⟨context, settings, hload, hcompiled.accepted, hcompiled.reaction, ?_⟩
      intro hcustom
      cases hcustom
  | regenerate loaded found valid compiled =>
    cases ha
    obtain ⟨hm, rfl⟩ := Store.mem_of_liveKpiOf found
    refine Store.forall_mem_changeKpi hk hm hcurrent ?_
    obtain ⟨context, settings, hload, hcompiled⟩ := hcurrent _ hm
    obtain rfl := Except.ok.inj (hload.symm.trans loaded)
    obtain rfl := Except.ok.inj (hcompiled.accepted.symm.trans valid)
    exact ⟨_, _, hload, hcompiled.accepted, fun _ => ⟨_, rfl, compiled⟩, hcompiled.report⟩

end ExperimentKpi

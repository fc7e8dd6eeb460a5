/-
# The life of a KPI as a machine

`KpiPhase.after` is the machine that the operations on the KPI of an experiment make up, with no
regard to how they work: which phase an action leads to, or that the action is refused. The operations
follow the machine. An action that succeeds takes its step (`KpiAction.after_of_run`). One that nothing
but the phase can refuse (`KpiAction.IsReady`) succeeds if the machine has a step for it
(`KpiAction.exists_run_of_after`) and else fails as the machine says (`KpiAction.run_of_after_eq_none`).

Key definitions: `KpiPhase.after`, `KpiAction.refusal`, `KpiAction.IsReady`, `KpiAction.EndsIn`.
Key theorems: `KpiAction.after_of_run`, `KpiAction.exists_run_of_after`,
`KpiAction.run_of_after_eq_none`, `KpiAction.isReady_regenerate_of_run`.
-/
import ExperimentKpi.Proofs.Service.Stored
import ExperimentKpi.Proofs.Store.Phase

namespace ExperimentKpi

/-! ### The machine -/

/-- The phase after an action, unless the action is refused; a new KPI gets the id `fresh`. -/
def KpiPhase.after (phase : KpiPhase) (fresh : Int) (action : KpiAction) : Option KpiPhase :=
  match action with
  | .create _ =>
    match phase with
    | absent => some (live fresh)
    | live _ | deleted _ => none
  | .update _ =>
    match phase with
    | absent => none
    | live kpi | deleted kpi => some (live kpi)
  | .remove =>
    match phase with
    | live kpi => some (deleted kpi)
    | absent | deleted _ => none
  | .view | .customize .. | .regenerate =>
    match phase with
    | live kpi => some (live kpi)
    | absent | deleted _ => none

/-- The failure with which an action is refused for the phase of the experiment's KPI. -/
def KpiAction.refusal (experiment : Int) : KpiAction → Failure
  | create _ => .kpiExists experiment
  | _ => .noKpi experiment

/-- Nothing but the phase of the experiment's KPI can refuse an action: the user is permitted, the
settings that are sent are valid and compile, and the settings of a live KPI compile anew from what is
stored for them. -/
def KpiAction.IsReady (env : Environment) (user : User) (context : ExperimentContext)
    (row : Option KpiRow) : KpiAction → Prop
  | create document => ∃ text, context.Accepts env.warehouse document text
  | update document =>
    env.grants.require user context.project.organization kpiResource "edit" = .ok () ∧
      ∃ text, context.Accepts env.warehouse document text
  | view | remove => True
  | customize .. =>
    env.grants.require user context.project.organization kpiResource "editQuery" = .ok ()
  | regenerate => ∀ k, row = some k → k.deleted = false → k.Recompiles context env.warehouse

theorem KpiAction.isReady_withLink {env : Environment} {user : User} {context : ExperimentContext}
    {row : Option KpiRow} {action : KpiAction} {kpi : Option Int} :
    action.IsReady env user (context.withLink kpi) row ↔ action.IsReady env user context row := by
  cases action with
  | create => simp only [IsReady, ExperimentContext.accepts_withLink]
  | update =>
    simp only [IsReady, ExperimentContext.accepts_withLink]
    rfl
  | regenerate => simp only [IsReady, KpiRow.recompiles_withLink]
  | _ => exact Iff.rfl

/-! ### What operations end in -/

section

variable {env : Environment} {s s' : Store} {user : User} {experiment : Int} {decision : Decision}
  {answer : Answer}

theorem Operation.run_of_error {op : Operation} {failure : Failure}
    (h : Inquiry.run s op = .error failure) : op.run s = (s, .error failure) := by
  rw [Operation.run, h]

theorem Operation.run_of_show {op : Operation} (h : Inquiry.run s op = .ok (.show answer)) :
    op.run s = (s, .ok answer) := by
  rw [Operation.run, h]
  rfl

theorem Operation.run_of_write {op : Operation} {c : Command} {kpi : Int}
    (h : Inquiry.run s op = .ok (.write c)) (ha : c.apply s = .ok (s', kpi)) :
    op.run s = (s', .ok (c.answer kpi)) := by
  rw [Operation.run, h]
  simp only [Decision.settle, ha, Except.map]

/-- An operation that succeeds has come to a decision. -/
theorem Operation.exists_of_run_ok {op : Operation} (h : op.run s = (s', .ok answer)) :
    ∃ decision, Inquiry.run s op = .ok decision ∧ decision.settle s = .ok (s', answer) := by
  unfold Operation.run at h
  cases hrun : Inquiry.run s op with
  | error failure => simp [hrun] at h
  | ok decision =>
    refine ⟨decision, rfl, ?_⟩
    cases hsettle : decision.settle s with
    | error failure => simp [hrun, hsettle] at h
    | ok p =>
      simp only [hrun, hsettle] at h
      cases h
      rfl

theorem Decision.settle_write_ok {c : Command} (h : (write c).settle s = .ok (s', answer)) :
    ∃ kpi, c.apply s = .ok (s', kpi) := by
  unfold settle at h
  cases happly : c.apply s with
  | error failure => simp [happly, Except.map] at h
  | ok p =>
    simp only [happly, Except.map] at h
    cases h
    exact ⟨p.2, rfl⟩

/-- What an action ends in where it succeeds, with the row that it found. -/
def KpiAction.EndsIn (s : Store) (user : User) (experiment : Int) (decision : Decision) :
    KpiAction → Prop
  | create _ => s.kpiOf experiment = .ok none ∧ ∃ project name text queries,
      decision = .write (.create experiment project name user.id text queries)
  | update _ => ∃ k, s.kpiOf experiment = .ok (some k) ∧ ∃ text queries,
      decision = .write (.replace k.id experiment user.id text queries)
  | view => ∃ k, s.liveKpiOf experiment = .ok k ∧ ∃ detail, decision = .show (.detail detail)
  | remove => ∃ k, s.liveKpiOf experiment = .ok k ∧ decision = .write (.remove k.id user.id)
  | customize kind query => ∃ k, s.liveKpiOf experiment = .ok k ∧
      decision = .write (.customize k.id user.id kind query)
  | regenerate => ∃ k, s.liveKpiOf experiment = .ok k ∧ ∃ reaction,
      decision = .write (.regenerate k.id experiment reaction)

theorem KpiAction.endsIn_of_run {action : KpiAction}
    (h : Inquiry.run s (action.operation env user experiment) = .ok decision) :
    action.EndsIn s user experiment decision := by
  cases action with
  | create document =>
    simp only [operation, createKpi, Inquiry.run_bind, Inquiry.run_query, Inquiry.run_check,
      bind_ok_iff] at h
    obtain ⟨context, -, accepted, -, found, hfound, h⟩ := h
    cases found with
    | some k => simp at h
    | none =>
      simp only [Inquiry.run_bind, Inquiry.run_check, Inquiry.run_pure, bind_ok_iff] at h
      obtain ⟨⟨text, settings⟩, -, queries, -, h⟩ := h
      cases h
      exact ⟨hfound, _, _, _, _, rfl⟩
  | update document =>
    simp only [operation, updateKpi, Inquiry.run_bind, Inquiry.run_query, Inquiry.run_check,
      bind_ok_iff] at h
    obtain ⟨context, -, ⟨⟩, -, accepted, -, found, hfound, h⟩ := h
    cases found with
    | none => simp at h
    | some k =>
      simp only [Inquiry.run_bind, Inquiry.run_check, Inquiry.run_pure, bind_ok_iff] at h
      obtain ⟨⟨text, settings⟩, -, queries, -, h⟩ := h
      cases h
      exact ⟨k, hfound, _, _, rfl⟩
  | view =>
    simp only [operation, showKpi, Inquiry.run_bind, Inquiry.run_query, Inquiry.run_check,
      Inquiry.run_pure, bind_ok_iff] at h
    obtain ⟨e, -, k, hk, detail, -, h⟩ := h
    cases h
    exact ⟨k, hk, detail, rfl⟩
  | remove =>
    simp only [operation, deleteKpi, Inquiry.run_bind, Inquiry.run_query, Inquiry.run_pure,
      bind_ok_iff] at h
    obtain ⟨e, -, k, hk, h⟩ := h
    cases h
    exact ⟨k, hk, rfl⟩
  | customize kind query =>
    simp only [operation, customizeQuery, Inquiry.run_bind, Inquiry.run_query, Inquiry.run_check,
      Inquiry.run_pure, bind_ok_iff] at h
    obtain ⟨e, -, p, -, ⟨⟩, -, k, hk, h⟩ := h
    cases h
    exact ⟨k, hk, rfl⟩
  | regenerate =>
    simp only [operation, regenerateReaction, Inquiry.run_bind, Inquiry.run_query,
      Inquiry.run_check, Inquiry.run_pure, bind_ok_iff] at h
    obtain ⟨context, -, k, hk, settings, -, reaction, -, h⟩ := h
    cases h
    exact ⟨k, hk, reaction, rfl⟩

end

/-! ### Actions in phases -/

namespace KpiAction

section

variable {env : Environment} {s s' : Store} {user : User} {experiment : Int} {action : KpiAction}
  {answer : Answer}

/-- **An action that succeeds takes its step in the machine.** -/
theorem after_of_run (h : (action.operation env user experiment).run s = (s', .ok answer)) :
    (s.phase experiment).after s.freshKpi action = some (s'.phase experiment) := by
  obtain ⟨decision, hrun, hsettle⟩ := Operation.exists_of_run_ok h
  have hends := endsIn_of_run hrun
  cases action with
  | create document =>
    obtain ⟨hk, project, name, text, queries, rfl⟩ := hends
    obtain ⟨kpi, ha⟩ := Decision.settle_write_ok hsettle
    have hrow := Store.kpiRow?_of_kpiOf hk
    rw [Store.phase_eq_absent_iff.mpr hrow, Store.phase_create hrow ha]
    rfl
  | update document =>
    obtain ⟨k, hk, text, queries, rfl⟩ := hends
    obtain ⟨kpi, ha⟩ := Decision.settle_write_ok hsettle
    have hrow := Store.kpiRow?_of_kpiOf hk
    rw [Store.phase_of_kpiRow? hrow, Store.phase_replace hrow ha]
    cases k.deleted <;> rfl
  | view =>
    obtain ⟨k, hk, detail, rfl⟩ := hends
    obtain ⟨hrow, hd⟩ := Store.kpiRow?_of_liveKpiOf hk
    cases hsettle
    rw [Store.phase_eq_live_iff.mpr ⟨k, hrow, hd, rfl⟩]
    rfl
  | remove =>
    obtain ⟨k, hk, rfl⟩ := hends
    obtain ⟨kpi, ha⟩ := Decision.settle_write_ok hsettle
    obtain ⟨hrow, hd⟩ := Store.kpiRow?_of_liveKpiOf hk
    rw [Store.phase_eq_live_iff.mpr ⟨k, hrow, hd, rfl⟩, Store.phase_remove hrow ha]
    rfl
  | customize kind query =>
    obtain ⟨k, hk, rfl⟩ := hends
    obtain ⟨kpi, ha⟩ := Decision.settle_write_ok hsettle
    obtain ⟨hrow, hd⟩ := Store.kpiRow?_of_liveKpiOf hk
    rw [Store.phase_eq_live_iff.mpr ⟨k, hrow, hd, rfl⟩, Store.phase_customize hrow hd ha]
    rfl
  | regenerate =>
    obtain ⟨k, hk, reaction, rfl⟩ := hends
    obtain ⟨kpi, ha⟩ := Decision.settle_write_ok hsettle
    obtain ⟨hrow, hd⟩ := Store.kpiRow?_of_liveKpiOf hk
    rw [Store.phase_eq_live_iff.mpr ⟨k, hrow, hd, rfl⟩, Store.phase_regenerate hrow hd ha]
    rfl

end

end KpiAction

/-! ### What operations come to in a context -/

section

variable {env : Environment} {s : Store} {user : User} {experiment : Int} {row : Option KpiRow}
  {context : ExperimentContext} {document : Json} {accepted settings : Settings} {text : String}
  {queries : Queries}

theorem createKpi_run (hload : (loadContext experiment).run s = .ok context)
    (hvalid : Settings.validate document = .ok accepted) (hrow : s.kpiOf experiment = .ok row)
    (hcanonical : canonical context document = .ok (text, settings))
    (hcompiled : compileQueries context settings env.warehouse = .ok queries) :
    Inquiry.run s (createKpi env user experiment document) =
      match row with
      | some _ => .error (.kpiExists experiment)
      | none => .ok (.write (.create experiment context.experiment.project
          (kpiName context.project experiment) user.id text queries)) := by
  simp only [createKpi, Inquiry.run_bind, Inquiry.run_query, Inquiry.run_check]
  rw [bind_of_ok hload, bind_of_ok hvalid, bind_of_ok hrow]
  cases row with
  | some k => rfl
  | none =>
    simp only [Inquiry.run_bind, Inquiry.run_check]
    rw [bind_of_ok hcanonical, bind_of_ok hcompiled]
    rfl

theorem updateKpi_run (hload : (loadContext experiment).run s = .ok context)
    (hgranted : env.grants.require user context.project.organization kpiResource "edit" = .ok ())
    (hvalid : Settings.validate document = .ok accepted) (hrow : s.kpiOf experiment = .ok row)
    (hcanonical : canonical context document = .ok (text, settings))
    (hcompiled : compileQueries context settings env.warehouse = .ok queries) :
    Inquiry.run s (updateKpi env user experiment document) =
      match row with
      | none => .error (.noKpi experiment)
      | some k => .ok (.write (.replace k.id experiment user.id text queries)) := by
  simp only [updateKpi, Inquiry.run_bind, Inquiry.run_query, Inquiry.run_check]
  rw [bind_of_ok hload, bind_of_ok hgranted, bind_of_ok hvalid, bind_of_ok hrow]
  cases row with
  | none => rfl
  | some k =>
    simp only [Inquiry.run_bind, Inquiry.run_check]
    rw [bind_of_ok hcanonical, bind_of_ok hcompiled]
    rfl

theorem showKpi_run (hload : (loadContext experiment).run s = .ok context) :
    Inquiry.run s (showKpi experiment) =
      s.liveKpiOf experiment >>= fun k => k.detail.map fun d => .show (.detail d) := by
  obtain ⟨he, -⟩ := loadContext_run_iff.mp hload
  simp only [showKpi, Inquiry.run_bind, Inquiry.run_query, Inquiry.run_check, Inquiry.run_pure]
  rw [bind_of_ok he]
  rfl

theorem deleteKpi_run (hload : (loadContext experiment).run s = .ok context) :
    Inquiry.run s (deleteKpi user experiment) =
      (s.liveKpiOf experiment).map fun k => .write (.remove k.id user.id) := by
  obtain ⟨he, -⟩ := loadContext_run_iff.mp hload
  simp only [deleteKpi, Inquiry.run_bind, Inquiry.run_query, Inquiry.run_pure]
  rw [bind_of_ok he]
  rfl

theorem customizeQuery_run {kind : QueryKind} {query : String}
    (hload : (loadContext experiment).run s = .ok context)
    (hgranted :
      env.grants.require user context.project.organization kpiResource "editQuery" = .ok ()) :
    Inquiry.run s (customizeQuery env user experiment kind query) =
      (s.liveKpiOf experiment).map fun k => .write (.customize k.id user.id kind query) := by
  obtain ⟨he, hp, -⟩ := loadContext_run_iff.mp hload
  simp only [customizeQuery, Inquiry.run_bind, Inquiry.run_query, Inquiry.run_check,
    Inquiry.run_pure]
  rw [bind_of_ok he, bind_of_ok hp, bind_of_ok hgranted]
  rfl

theorem regenerateReaction_run (hload : (loadContext experiment).run s = .ok context) :
    Inquiry.run s (regenerateReaction env experiment) =
      s.liveKpiOf experiment >>= fun k =>
        Settings.revalidate k.settings >>= fun settings =>
          (compileReaction context settings env.warehouse).map fun reaction =>
            .write (.regenerate k.id experiment reaction) := by
  simp only [regenerateReaction, Inquiry.run_bind, Inquiry.run_query, Inquiry.run_check,
    Inquiry.run_pure]
  rw [bind_of_ok hload]
  rfl

end

namespace KpiAction

/-- Whether an action is one on a live KPI only. -/
def needsLive : KpiAction → Bool
  | create _ | update _ => false
  | view | remove | customize .. | regenerate => true

section

variable {phase phase' : KpiPhase} {fresh : Int} {action : KpiAction}

theorem eq_absent_of_after_create {document : Json}
    (h : phase.after fresh (.create document) = some phase') : phase = .absent := by
  cases phase with
  | absent => rfl
  | live | deleted => cases h

theorem eq_absent_of_after_update {document : Json}
    (h : phase.after fresh (.update document) = none) : phase = .absent := by
  cases phase with
  | absent => rfl
  | live | deleted => cases h

theorem exists_live_of_after (h : action.needsLive = true)
    (hafter : phase.after fresh action = some phase') : ∃ kpi, phase = .live kpi := by
  cases phase with
  | live kpi => exact ⟨kpi, rfl⟩
  | absent => cases action <;> cases h <;> cases hafter
  | deleted kpi => cases action <;> cases h <;> cases hafter

theorem ne_live_of_after_eq_none (h : action.needsLive = true)
    (hafter : phase.after fresh action = none) (kpi : Int) : phase ≠ .live kpi := by
  rintro rfl
  cases action <;> cases h <;> cases hafter

theorem refusal_of_needsLive (h : action.needsLive = true) (experiment : Int) :
    action.refusal experiment = .noKpi experiment := by
  cases action with
  | create | update => cases h
  | _ => rfl

end

section

variable {env : Environment} {s : Store} {user : User} {experiment : Int} {action : KpiAction}
  {context : ExperimentContext} {P : Json → Prop}

/-- An action on live KPIs that nothing but the phase can refuse succeeds on a live one. -/
theorem exists_run_of_live {k : KpiRow} (hneeds : action.needsLive = true)
    (hload : (loadContext experiment).run s = .ok context)
    (hready : action.IsReady env user context (some k)) (hd : k.deleted = false)
    (hlive : s.liveKpiOf experiment = .ok k) (hdetail : ∃ detail, k.detail = .ok detail) :
    ∃ s' answer, (action.operation env user experiment).run s = (s', .ok answer) := by
  cases action with
  | create | update => cases hneeds
  | view =>
    obtain ⟨detail, hdetail⟩ := hdetail
    have hrun : Inquiry.run s (showKpi experiment) = .ok (.show (.detail detail)) := by
      rw [showKpi_run hload, bind_of_ok hlive, hdetail]
      rfl
    exact ⟨_, _, Operation.run_of_show hrun⟩
  | remove =>
    have hrun : Inquiry.run s (deleteKpi user experiment) = .ok (.write (.remove k.id user.id)) := by
      rw [deleteKpi_run hload, hlive]
      rfl
    exact ⟨_, _, Operation.run_of_write hrun rfl⟩
  | customize kind query =>
    have hrun : Inquiry.run s (customizeQuery env user experiment kind query) =
        .ok (.write (.customize k.id user.id kind query)) := by
      rw [customizeQuery_run hload hready, hlive]
      rfl
    exact ⟨_, _, Operation.run_of_write hrun rfl⟩
  | regenerate =>
    obtain ⟨settings, reaction, hsettings, hreaction⟩ := hready k rfl hd
    have hrun : Inquiry.run s (regenerateReaction env experiment) =
        .ok (.write (.regenerate k.id experiment reaction)) := by
      rw [regenerateReaction_run hload, bind_of_ok hlive, bind_of_ok hsettings, hreaction]
      rfl
    exact ⟨_, _, Operation.run_of_write hrun rfl⟩

/-- An action on live KPIs that nothing but the phase can refuse is refused without one. -/
theorem run_of_not_live (hneeds : action.needsLive = true)
    (hload : (loadContext experiment).run s = .ok context)
    (hready : action.IsReady env user context (s.kpiRow? experiment))
    (hlive : s.liveKpiOf experiment = .error (.noKpi experiment)) :
    (action.operation env user experiment).run s = (s, .error (.noKpi experiment)) := by
  apply Operation.run_of_error
  cases action with
  | create | update => cases hneeds
  | view => exact (showKpi_run hload).trans (bind_of_error hlive _)
  | remove =>
    rw [operation, deleteKpi_run hload, hlive]
    rfl
  | customize kind query =>
    rw [operation, customizeQuery_run hload hready, hlive]
    rfl
  | regenerate => exact (regenerateReaction_run hload).trans (bind_of_error hlive _)

/-- **An action that nothing but the phase can refuse succeeds if the machine has a step for it.** -/
theorem exists_run_of_after {phase : KpiPhase} (hP : ∀ document, P document → document.IsReceivable)
    (hload : (loadContext experiment).run s = .ok context)
    (hstored : ∀ k ∈ s.kpis, k.IsStored s env.warehouse P)
    (hready : action.IsReady env user context (s.kpiRow? experiment))
    (hafter : (s.phase experiment).after s.freshKpi action = some phase) :
    ∃ s' answer, (action.operation env user experiment).run s = (s', .ok answer) := by
  have hread : s.IsReadable := fun k hk => (hstored k hk).isReadable
  have hrow : s.kpiOf experiment = .ok (s.kpiRow? experiment) := Store.kpiOf_eq hread
  by_cases hneeds : action.needsLive = true
  · obtain ⟨kpi, hphase⟩ := exists_live_of_after hneeds hafter
    obtain ⟨k, hk, hd, -⟩ := Store.phase_eq_live_iff.mp hphase
    obtain ⟨context', document, -, hdocument, hfor⟩ := hstored k (Store.mem_of_kpiRow? hk)
    rw [hk] at hready
    exact exists_run_of_live hneeds hload hready hd (Store.liveKpiOf_of_live hread hk hd)
      (hfor.exists_detail (hP document hdocument))
  · cases action with
    | create document =>
      obtain ⟨text, accepted, settings, queries, hvalid, hcanonical, hcompiled⟩ := hready
      have hnone : s.kpiRow? experiment = none :=
        Store.phase_eq_absent_iff.mp (eq_absent_of_after_create hafter)
      rw [hnone] at hrow
      obtain ⟨s', ha⟩ := Store.apply_create hnone
      exact ⟨s', _, Operation.run_of_write
        (createKpi_run hload hvalid hrow hcanonical hcompiled) ha⟩
    | update document =>
      obtain ⟨hgranted, text, accepted, settings, queries, hvalid, hcanonical, hcompiled⟩ := hready
      cases hk : s.kpiRow? experiment with
      | none =>
        rw [Store.phase_eq_absent_iff.mpr hk] at hafter
        cases hafter
      | some k =>
        rw [hk] at hrow
        exact ⟨_, _, Operation.run_of_write
          (updateKpi_run hload hgranted hvalid hrow hcanonical hcompiled) rfl⟩
    | view | remove | customize | regenerate => exact absurd rfl hneeds

/-- **An action that nothing but the phase can refuse is refused if the machine has no step for
it**: it changes nothing and fails. -/
theorem run_of_after_eq_none (hread : s.IsReadable)
    (hload : (loadContext experiment).run s = .ok context)
    (hready : action.IsReady env user context (s.kpiRow? experiment))
    (hafter : (s.phase experiment).after s.freshKpi action = none) :
    (action.operation env user experiment).run s = (s, .error (action.refusal experiment)) := by
  have hrow : s.kpiOf experiment = .ok (s.kpiRow? experiment) := Store.kpiOf_eq hread
  by_cases hneeds : action.needsLive = true
  · rw [refusal_of_needsLive hneeds]
    exact run_of_not_live hneeds hload hready
      (Store.liveKpiOf_of_not_live hread (ne_live_of_after_eq_none hneeds hafter))
  · apply Operation.run_of_error
    cases action with
    | create document =>
      obtain ⟨text, accepted, settings, queries, hvalid, hcanonical, hcompiled⟩ := hready
      cases hk : s.kpiRow? experiment with
      | none =>
        rw [Store.phase_eq_absent_iff.mpr hk] at hafter
        cases hafter
      | some k =>
        rw [hk] at hrow
        exact createKpi_run hload hvalid hrow hcanonical hcompiled
    | update document =>
      obtain ⟨hgranted, text, accepted, settings, queries, hvalid, hcanonical, hcompiled⟩ := hready
      have hnone : s.kpiRow? experiment = none :=
        Store.phase_eq_absent_iff.mp (eq_absent_of_after_update hafter)
      rw [hnone] at hrow
      exact updateKpi_run hload hgranted hvalid hrow hcanonical hcompiled
    | view | remove | customize | regenerate => exact absurd rfl hneeds

/-- A live KPI is compiled anew exactly if its settings compile from what is stored for them. -/
theorem isReady_regenerate_of_run {s' : Store} {answer : Answer}
    (hload : (loadContext experiment).run s = .ok context)
    (hrun : (regenerate.operation env user experiment).run s = (s', .ok answer)) :
    regenerate.IsReady env user context (s.kpiRow? experiment) := by
  obtain ⟨decision, hdecision, -⟩ := Operation.exists_of_run_ok hrun
  rw [operation, regenerateReaction_run hload] at hdecision
  obtain ⟨k, hlive, hdecision⟩ := bind_ok_iff.mp hdecision
  obtain ⟨settings, hsettings, hdecision⟩ := bind_ok_iff.mp hdecision
  obtain ⟨hk, -⟩ := Store.kpiRow?_of_liveKpiOf hlive
  intro l hl hd
  obtain rfl := Option.some.inj (hk.symm.trans hl)
  cases hreaction : compileReaction context settings env.warehouse with
  | error failure => simp [hreaction, Except.map] at hdecision
  | ok reaction => exact ⟨settings, reaction, hsettings, hreaction⟩

end

end KpiAction

end ExperimentKpi

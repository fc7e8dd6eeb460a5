/-
# Operations on different experiments commute

Every command but a creation is an edit (`Command.edit?`): it changes the rows with one id, in a way
that does not depend on the store, and may link an experiment to that id. Edits of the rows of different
experiments commute (`Store.edit_comm`), and so does an edit with a creation, whose new id is that of
no row that an edit could change (`Command.apply_edit`). What an operation on one experiment reads, a
command on another one does not write (`KpiAction.run_of_changesOnly`). So two operations on different
experiments come to the same in either order, unless both create (`KpiAction.commute`): ids are given
in order.

Key definitions: `Edit`, `Store.edit`, `Command.edit?`, `Operation.Commute`.
Key theorems: `Command.apply_edit`, `KpiAction.run_of_changesOnly`, `KpiAction.commute`.
-/
import ExperimentKpi.Proofs.Service.Lifecycle

namespace ExperimentKpi

/-! ### Edits -/

/-- An experiment after one may have been linked to a KPI. -/
def ExperimentRow.linked (link? : Option Int) (kpi : Int) (r : ExperimentRow) : ExperimentRow :=
  if link? = some r.id then { r with kpi := some kpi } else r

/-- A change of the rows of KPIs with an id, and of the link of an experiment to it if there is one to
set. -/
structure Edit where
  kpi : Int
  change : KpiRow → KpiRow
  link? : Option Int
  kept : ∀ k, (change k).identity = k.identity

/-- A row after an edit. -/
def Edit.row (d : Edit) (k : KpiRow) : KpiRow :=
  if k.id = d.kpi then d.change k else k

/-- The store after an edit. -/
def Store.edit (s : Store) (d : Edit) : Store :=
  { s with
    kpis := s.kpis.map d.row
    experiments := s.experiments.map (.linked d.link? d.kpi) }

/-- The edit that a command is, unless it creates. -/
def Command.edit? : Command → Option Edit
  | create .. => none
  | replace kpi experiment user settings queries =>
    some ⟨kpi, fun k => k.replaced user settings queries, some experiment, fun _ => rfl⟩
  | remove kpi user => some ⟨kpi, fun k => k.removed user, none, fun _ => rfl⟩
  | customize kpi user kind query =>
    some ⟨kpi, fun k => k.customized user kind query, none,
      fun k => k.identity_customized user kind query⟩
  | regenerate kpi _ reaction => some ⟨kpi, fun k => k.regenerated reaction, none, fun _ => rfl⟩

/-- An edit is one of the row of an experiment, and links no other experiment. -/
structure Edit.IsFor (s : Store) (experiment : Int) (d : Edit) : Prop where
  row : ∃ k ∈ s.kpis, k.id = d.kpi ∧ k.experiment = experiment
  link : ∀ e, d.link? = some e → e = experiment

namespace Store

theorem linkKpi_eq (s : Store) (experiment kpi : Int) :
    s.linkKpi experiment kpi =
      { s with experiments := s.experiments.map (.linked (some experiment) kpi) } := by
  have hrow : ∀ r : ExperimentRow,
      (if r.id = experiment then { r with kpi := some kpi } else r) =
        r.linked (some experiment) kpi := by
    intro r
    simp only [ExperimentRow.linked, Option.some.injEq, eq_comm]
  simp only [linkKpi, hrow]

theorem edit_of_unlinked {d : Edit} (h : d.link? = none) (s : Store) :
    s.edit d = s.changeKpi d.kpi d.change := by
  have hlinks : s.experiments.map (.linked none d.kpi) = s.experiments := List.map_id' _
  rw [edit, h, hlinks]
  rfl

theorem edit_of_linked {d : Edit} {experiment : Int} (h : d.link? = some experiment) (s : Store) :
    s.edit d = (s.changeKpi d.kpi d.change).linkKpi experiment d.kpi := by
  rw [edit, h, linkKpi_eq]
  rfl

end Store

namespace Command

variable {s : Store} {experiment : Int} {c : Command} {d : Edit}

/-- A command that is an edit is the same one on every store, and always applies. -/
theorem apply_of_edit? (h : c.edit? = some d) (s : Store) : c.apply s = .ok (s.edit d, d.kpi) := by
  cases c with
  | create => cases h
  | replace =>
    cases h
    rw [Store.edit_of_linked rfl]
    rfl
  | remove | customize | regenerate =>
    cases h
    rw [Store.edit_of_unlinked rfl]
    rfl

theorem IsFor.edit? (h : c.IsFor s experiment) (hd : c.edit? = some d) : d.IsFor s experiment := by
  cases h with
  | create => cases hd
  | replace mem own =>
    cases hd
    exact ⟨⟨_, mem, rfl, own⟩, fun _ he => (Option.some.inj he).symm⟩
  | remove mem own | customize mem own | regenerate mem own =>
    cases hd
    exact ⟨⟨_, mem, rfl, own⟩, nofun⟩

end Command

/-! ### Edits commute -/

theorem ExperimentRow.linked_comm {link? link'? : Option Int} (kpi kpi' : Int)
    (h : ∀ e, link? = some e → link'? ≠ some e) (r : ExperimentRow) :
    (r.linked link? kpi).linked link'? kpi' = (r.linked link'? kpi').linked link? kpi := by
  unfold linked
  by_cases hlink : link? = some r.id
  · have hne : link'? ≠ some r.id := h r.id hlink
    simp only [if_pos hlink, if_neg hne]
  · by_cases hlink' : link'? = some r.id
    · simp only [if_pos hlink', if_neg hlink]
    · simp only [if_neg hlink', if_neg hlink]

namespace Edit

variable {d d' : Edit} {k : KpiRow}

theorem identity_row (d : Edit) (k : KpiRow) : (d.row k).identity = k.identity := by
  unfold row
  split
  · exact d.kept k
  · rfl

theorem id_row (d : Edit) (k : KpiRow) : (d.row k).id = k.id :=
  congrArg KpiIdentity.id (d.identity_row k)

theorem experiment_row (d : Edit) (k : KpiRow) : (d.row k).experiment = k.experiment :=
  congrArg KpiIdentity.experiment (d.identity_row k)

theorem row_of_ne (h : k.id ≠ d.kpi) : d.row k = k :=
  if_neg h

theorem row_comm (h : d.kpi ≠ d'.kpi) (k : KpiRow) : d'.row (d.row k) = d.row (d'.row k) := by
  by_cases hid : k.id = d.kpi
  · have hne : k.id ≠ d'.kpi := fun he => h (hid.symm.trans he)
    rw [row_of_ne hne, row_of_ne ((d.id_row k).trans_ne hne)]
  · rw [row_of_ne hid, row_of_ne ((d'.id_row k).trans_ne hid)]

end Edit

section

variable {s : Store} {experiment other : Int} {d d' : Edit}

/-- **Edits of the rows of different experiments commute.** -/
theorem Store.edit_comm (hk : (s.kpis.map (·.id)).Nodup) (hd : d.IsFor s experiment)
    (hd' : d'.IsFor s other) (hne : experiment ≠ other) :
    (s.edit d).edit d' = (s.edit d').edit d := by
  obtain ⟨k, hm, hid, hown⟩ := hd.row
  obtain ⟨k', hm', hid', hown'⟩ := hd'.row
  have hkpi : d.kpi ≠ d'.kpi := by
    intro hsame
    -- An id is that of one row, which has one experiment.
    have hrow : k = k' := List.inj_on_of_nodup_map hk hm hm' (by rw [hid, hid', hsame])
    exact hne (by rw [← hown, ← hown', hrow])
  have hlink : ∀ e, d.link? = some e → d'.link? ≠ some e := fun e he he' =>
    hne (by rw [← hd.link e he, ← hd'.link e he'])
  have hrows : (s.kpis.map d.row).map d'.row = (s.kpis.map d'.row).map d.row := by
    rw [List.map_map, List.map_map]
    exact List.map_congr_left fun k _ => Edit.row_comm hkpi k
  have hlinks : ∀ r : ExperimentRow, (r.linked d.link? d.kpi).linked d'.link? d'.kpi =
      (r.linked d'.link? d'.kpi).linked d.link? d.kpi :=
    ExperimentRow.linked_comm d.kpi d'.kpi hlink
  simp only [edit, hrows, List.map_map, Function.comp_def, hlinks]

/-- Putting in a row and linking an experiment to it commutes with an edit of another row that links no
such experiment. -/
theorem Store.edit_insert {k : KpiRow} (hid : k.id ≠ d.kpi) (hlink : d.link? ≠ some experiment) :
    ({ s with kpis := s.kpis ++ [k] }.linkKpi experiment k.id).edit d =
      { s.edit d with kpis := (s.edit d).kpis ++ [k] }.linkKpi experiment k.id := by
  have hlinks : ∀ r : ExperimentRow, (r.linked (some experiment) k.id).linked d.link? d.kpi =
      (r.linked d.link? d.kpi).linked (some experiment) k.id := by
    refine ExperimentRow.linked_comm k.id d.kpi fun e he => ?_
    rwa [← he]
  simp only [edit, linkKpi_eq, List.map_append, List.map_cons, List.map_nil, Edit.row_of_ne hid,
    List.map_map, Function.comp_def, hlinks]

/-- **A command commutes with an edit of the row of another experiment's KPI.** -/
theorem Command.apply_edit {c : Command} (hk : (s.kpis.map (·.id)).Nodup)
    (hc : c.IsFor s experiment) (hd : d.IsFor s other) (hne : experiment ≠ other) :
    c.apply (s.edit d) = (c.apply s).map fun p => (p.1.edit d, p.2) := by
  cases hedit : c.edit? with
  | some d' =>
    rw [apply_of_edit? hedit, apply_of_edit? hedit,
      Store.edit_comm hk hd (hc.edit? hedit) hne.symm]
    rfl
  | none =>
    cases hc with
    | create project name user settings queries =>
      obtain ⟨k, hm, hid, -⟩ := hd.row
      -- The new id is above all others.
      have hfresh : nextId (s.kpis.map (·.id)) ≠ d.kpi := by
        have := lt_nextId (List.mem_map_of_mem (f := fun k : KpiRow => k.id) hm)
        omega
      have hlink : d.link? ≠ some experiment := fun he => hne (hd.link experiment he)
      have hids : (s.edit d).kpis.map (·.id) = s.kpis.map (·.id) := by
        rw [Store.edit, List.map_map]
        exact List.map_congr_left fun k _ => d.id_row k
      have hany : ((s.edit d).kpis.any fun k => k.experiment == experiment) =
          s.kpis.any fun k => k.experiment == experiment := by
        rw [Store.edit, List.any_map]
        congr 1
        funext k
        exact congrArg (· == experiment) (d.experiment_row k)
      simp only [apply, hany, hids]
      split
      · rfl
      · generalize nextId (s.kpis.map (·.id)) = id at hfresh
        have hinsert : ({ s with kpis := s.kpis ++ [KpiRow.created id experiment project name user
            settings queries] }.linkKpi experiment id).edit d = _ := Store.edit_insert hfresh hlink
        exact congrArg (fun t : Store => Except.ok (t, id)) hinsert.symm
    | replace | remove | customize | regenerate => cases hedit

end

/-! ### What operations on other experiments read -/

namespace Store.ChangesOnly

variable {s s' : Store} {experiment other : Int}

/-- The row of another experiment is the same, its link included. -/
theorem experiment_eq (h : s.ChangesOnly experiment s') (hne : other ≠ experiment) :
    s'.experiment other = s.experiment other := by
  rcases h.experiments with hsame | ⟨kpi, hlinked⟩
  · rw [Store.experiment, hsame]
    rfl
  · have hfound : (s'.experiments.find? fun r => r.id == other && !r.deleted) =
        s.experiments.find? fun r => r.id == other && !r.deleted := by
      have hsame : ((fun r : ExperimentRow => r.id == other && !r.deleted) ∘
          fun r => if r.id = experiment then { r with kpi } else r) =
            fun r => r.id == other && !r.deleted := by
        funext r
        dsimp only [Function.comp]
        split <;> rfl
      rw [hlinked, List.find?_map, hsame]
      cases hr : s.experiments.find? fun r => r.id == other && !r.deleted with
      | none => rfl
      | some r =>
        have hid : r.id = other ∧ r.deleted = false := by simpa using List.find?_some hr
        have hkept : ¬ r.id = experiment := fun he => hne (hid.1.symm.trans he)
        rw [Option.map_some, if_neg hkept]
    simp only [Store.experiment, hfound]

theorem kpiOf_eq (h : s.ChangesOnly experiment s') (hne : other ≠ experiment) :
    s'.kpiOf other = s.kpiOf other := by
  have hrow : (s'.kpis.find? fun k => k.experiment == other) =
      s.kpis.find? fun k => k.experiment == other := h.kpiRow?_eq hne
  simp only [kpiOf, hrow]

theorem liveKpiOf_eq (h : s.ChangesOnly experiment s') (hne : other ≠ experiment) :
    s'.liveKpiOf other = s.liveKpiOf other := by
  simp only [liveKpiOf, h.kpiOf_eq hne]

theorem loadContext_run_eq (h : s.ChangesOnly experiment s') (hne : other ≠ experiment) :
    (ExperimentKpi.loadContext other).run s' = (ExperimentKpi.loadContext other).run s := by
  simp only [ExperimentKpi.loadContext, Inquiry.run_bind, Inquiry.run_query, Inquiry.run_check,
    Inquiry.run_pure, h.experiment_eq hne, h.alike.project, h.alike.settingsOf,
    h.alike.design other, h.alike.modelsOf]

end Store.ChangesOnly

/-- **An action reads nothing that is written for another experiment.** -/
theorem KpiAction.run_of_changesOnly {s s' : Store} {experiment other : Int}
    (h : s.ChangesOnly experiment s') (hne : other ≠ experiment) (env : Environment) (user : User)
    (action : KpiAction) :
    Inquiry.run s' (action.operation env user other) =
      Inquiry.run s (action.operation env user other) := by
  have hexperiment := h.experiment_eq hne
  have hkpi := h.kpiOf_eq hne
  have hlive := h.liveKpiOf_eq hne
  have hload := h.loadContext_run_eq hne
  cases action with
  | create document =>
    simp only [operation, createKpi, Inquiry.run_bind, Inquiry.run_query, Inquiry.run_check, hload,
      hkpi]
    refine bind_congr fun context => bind_congr fun accepted => bind_congr fun row => ?_
    cases row with
    | some k => rfl
    | none => simp only [Inquiry.run_bind, Inquiry.run_check, Inquiry.run_pure]
  | update document =>
    simp only [operation, updateKpi, Inquiry.run_bind, Inquiry.run_query, Inquiry.run_check, hload,
      hkpi]
    refine bind_congr fun context => bind_congr fun _ => bind_congr fun accepted =>
      bind_congr fun row => ?_
    cases row with
    | none => rfl
    | some k => simp only [Inquiry.run_bind, Inquiry.run_check, Inquiry.run_pure]
  | view =>
    simp only [operation, showKpi, Inquiry.run_bind, Inquiry.run_query, Inquiry.run_check,
      Inquiry.run_pure, hexperiment, hlive]
  | remove =>
    simp only [operation, deleteKpi, Inquiry.run_bind, Inquiry.run_query, Inquiry.run_pure,
      hexperiment, hlive]
  | customize kind query =>
    simp only [operation, customizeQuery, Inquiry.run_bind, Inquiry.run_query, Inquiry.run_check,
      Inquiry.run_pure, hexperiment, hlive, h.alike.project]
  | regenerate =>
    simp only [operation, regenerateReaction, Inquiry.run_bind, Inquiry.run_query,
      Inquiry.run_check, Inquiry.run_pure, hload, hlive]

/-! ### Operations commute -/

/-- Two operations come to the same in either order, and so does the store. -/
structure Operation.Commute (s : Store) (op op' : Operation) : Prop where
  first : (op.run (op'.run s).1).2 = (op.run s).2
  second : (op'.run (op.run s).1).2 = (op'.run s).2
  store : (op'.run (op.run s).1).1 = (op.run (op'.run s).1).1

theorem Operation.Commute.symm {s : Store} {op op' : Operation} (h : Commute s op op') :
    Commute s op' op :=
  ⟨h.second, h.first, h.store.symm⟩

namespace KpiAction

variable {env env' : Environment} {s : Store} {user user' : User} {experiment other : Int}
  {action action' : KpiAction} {c : Command} {d : Edit}

/-- What an action writes is a command on its experiment. -/
theorem isFor_of_run
    (h : Inquiry.run s (action.operation env user experiment) = .ok (.write c)) :
    c.IsFor s experiment := by
  have hbody : ∀ document, action.document? = some document →
      action.document?.elim (.error .database) .ok = (.ok document : Except Failure Json) := by
    intro document hdocument
    rw [hdocument]
    rfl
  exact (Effect.of_action hbody h).isFor

/-- An action that is no creation ends in no creation. -/
theorem exists_edit? (hcreate : ∀ document, action ≠ .create document)
    (h : Inquiry.run s (action.operation env user experiment) = .ok (.write c)) :
    ∃ d, c.edit? = some d := by
  have hends := endsIn_of_run h
  cases action with
  | create document => exact absurd rfl (hcreate document)
  | update document =>
    obtain ⟨k, -, text, queries, hc⟩ := hends
    cases hc
    exact ⟨_, rfl⟩
  | view =>
    obtain ⟨k, -, detail, hc⟩ := hends
    cases hc
  | remove | customize =>
    obtain ⟨k, -, hc⟩ := hends
    cases hc
    exact ⟨_, rfl⟩
  | regenerate =>
    obtain ⟨k, -, reaction, hc⟩ := hends
    cases hc
    exact ⟨_, rfl⟩

/-- What an action changes. -/
theorem changesOnly_run (hk : (s.kpis.map (·.id)).Nodup) :
    s.ChangesOnly experiment ((action.operation env user experiment).run s).1 := by
  unfold Operation.run
  cases hrun : Inquiry.run s (action.operation env user experiment) with
  | error failure => exact .refl experiment s
  | ok decision =>
    cases decision with
    | «show» answer => exact .refl experiment s
    | write c =>
      cases happly : c.apply s with
      | error failure =>
        simp only [Decision.settle, happly, Except.map]
        exact .refl experiment s
      | ok p =>
        simp only [Decision.settle, happly, Except.map]
        exact ((isFor_of_run hrun).writesRow happly).changesOnly hk

/-- An action after an edit of the row of another experiment's KPI. -/
theorem run_edit (hk : (s.kpis.map (·.id)).Nodup) (hd : d.IsFor s other) (hne : experiment ≠ other)
    (hread : Inquiry.run (s.edit d) (action.operation env user experiment) =
      Inquiry.run s (action.operation env user experiment)) :
    (action.operation env user experiment).run (s.edit d) =
      (((action.operation env user experiment).run s).1.edit d,
        ((action.operation env user experiment).run s).2) := by
  unfold Operation.run
  rw [hread]
  cases hrun : Inquiry.run s (action.operation env user experiment) with
  | error failure => rfl
  | ok decision =>
    cases decision with
    | «show» answer => rfl
    | write c =>
      have happly := Command.apply_edit hk (isFor_of_run hrun) hd hne
      simp only [Decision.settle, happly]
      cases c.apply s <;> rfl

/-- An action commutes with one on another experiment that is no creation. -/
theorem commute_of_not_create (hk : (s.kpis.map (·.id)).Nodup) (hne : experiment ≠ other)
    (hcreate : ∀ document, action' ≠ .create document) :
    Operation.Commute s (action.operation env user experiment)
      (action'.operation env' user' other) := by
  have hread : Inquiry.run ((action'.operation env' user' other).run s).1
      (action.operation env user experiment) =
        Inquiry.run s (action.operation env user experiment) :=
    run_of_changesOnly (changesOnly_run hk) hne env user action
  have hread' : Inquiry.run ((action.operation env user experiment).run s).1
      (action'.operation env' user' other) =
        Inquiry.run s (action'.operation env' user' other) :=
    run_of_changesOnly (changesOnly_run hk) hne.symm env' user' action'
  cases hrun : Inquiry.run s (action'.operation env' user' other) with
  | error failure =>
    have halone := Operation.run_of_error hrun
    have hafter := Operation.run_of_error (hread'.trans hrun)
    exact ⟨by rw [halone], by rw [halone, hafter], by rw [halone, hafter]⟩
  | ok decision =>
    cases decision with
    | «show» answer =>
      have halone := Operation.run_of_show hrun
      have hafter := Operation.run_of_show (hread'.trans hrun)
      exact ⟨by rw [halone], by rw [halone, hafter], by rw [halone, hafter]⟩
    | write c =>
      obtain ⟨d, hd⟩ := exists_edit? hcreate hrun
      have halone := Operation.run_of_write hrun (Command.apply_of_edit? hd _)
      have hafter := Operation.run_of_write (hread'.trans hrun) (Command.apply_of_edit? hd _)
      rw [halone] at hread
      have hedited := run_edit hk ((isFor_of_run hrun).edit? hd) hne hread
      exact ⟨by rw [halone, hedited], by rw [halone, hafter], by rw [halone, hafter, hedited]⟩

/-- **Two actions on different experiments commute unless both create.** -/
theorem commute (hk : (s.kpis.map (·.id)).Nodup) (hne : experiment ≠ other)
    (hcreate : (∀ document, action ≠ .create document) ∨ ∀ document, action' ≠ .create document) :
    Operation.Commute s (action.operation env user experiment)
      (action'.operation env' user' other) := by
  rcases hcreate with hcreate | hcreate
  · exact (commute_of_not_create hk hne.symm hcreate).symm
  · exact commute_of_not_create hk hne hcreate

end KpiAction

end ExperimentKpi

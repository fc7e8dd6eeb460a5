/-
# Rows of KPIs under commands

What a lookup finds (`mem_of_kpiOf`, `mem_of_liveKpiOf`), and what a command does to the tables. Where
the ids of rows are a key, changing the rows with one id changes one row (`changeKpi_kpis`). Together:
a command changes at most the row of the experiment that it is about and the link of that experiment
(`Effect.changesOnly`), and it keeps the keys of the table of KPIs (`Effect.keyed`), its rows
(`Store.WritesRow.keepsRows`) and the links to them (`Store.WritesRow.isLinked`).

Key definitions: `KpisChange`, `Store.ChangesOnly`, `Command.IsFor`, `Store.WritesRow`, `Store.Keyed`,
`Store.KeepsRows`, `Store.IsLinked`.
Key theorems: `Command.IsFor.writesRow`, `Effect.changesOnly`, `Effect.keyed`,
`Store.WritesRow.keepsRows`, `Store.WritesRow.isLinked`.
-/
import ExperimentKpi.Proofs.Service.Effect
import Mathlib.Data.List.Nodup

namespace ExperimentKpi

theorem lt_nextId {ids : List Int} {id : Int} (h : id ∈ ids) : id < nextId ids := by
  have hle : ∀ (ids : List Int) (start : Int),
      start ≤ ids.foldl max start ∧ ∀ id ∈ ids, id ≤ ids.foldl max start := by
    intro ids
    induction ids with
    | nil => exact fun start => ⟨Int.le_refl _, by simp⟩
    | cons a r ih =>
      intro start
      obtain ⟨h1, h2⟩ := ih (max start a)
      rw [List.foldl_cons]
      refine ⟨by omega, fun id hid => ?_⟩
      rcases List.mem_cons.mp hid with rfl | hid
      · omega
      · exact h2 id hid
  have := (hle ids 0).2 id h
  unfold nextId
  omega

namespace Store

variable {s : Store} {experiment : Int} {kpi : KpiRow}

/-- A row that is found is one of the table, and its experiment is the one asked for. -/
theorem mem_of_kpiOf (h : s.kpiOf experiment = .ok (some kpi)) :
    kpi ∈ s.kpis ∧ kpi.experiment = experiment := by
  unfold kpiOf at h
  split at h
  · cases h
  · rename_i k hk
    split at h
    · cases h
      exact ⟨List.mem_of_find?_eq_some hk, by simpa using List.find?_some hk⟩
    · cases h

theorem kpiOf_of_liveKpiOf (h : s.liveKpiOf experiment = .ok kpi) :
    s.kpiOf experiment = .ok (some kpi) ∧ kpi.deleted = false := by
  unfold liveKpiOf at h
  split at h
  · cases h
  · cases h
  · rename_i k hk
    by_cases hd : k.deleted = true
    · rw [if_pos hd] at h
      cases h
    · rw [if_neg hd] at h
      cases h
      exact ⟨hk, by simpa using hd⟩

theorem mem_of_liveKpiOf (h : s.liveKpiOf experiment = .ok kpi) :
    kpi ∈ s.kpis ∧ kpi.experiment = experiment :=
  mem_of_kpiOf (kpiOf_of_liveKpiOf h).1

/-! ### The tables after a command -/

/-- Where ids are a key, the row with the id of `kpi` is `kpi` alone. -/
theorem changeKpi_kpis (hk : (s.kpis.map (·.id)).Nodup) (hm : kpi ∈ s.kpis)
    (f : KpiRow → KpiRow) :
    ∃ before after, s.kpis = before ++ kpi :: after ∧
      (s.changeKpi kpi.id f).kpis = before ++ f kpi :: after := by
  obtain ⟨before, after, hs⟩ := List.append_of_mem hm
  refine ⟨before, after, hs, ?_⟩
  rw [hs, List.map_append, List.map_cons, List.nodup_append] at hk
  obtain ⟨-, hafter, hbefore⟩ := hk
  have hb : ∀ k ∈ before, ¬ k.id = kpi.id := fun k hk =>
    hbefore k.id (List.mem_map_of_mem hk) kpi.id List.mem_cons_self
  have ha : ∀ k ∈ after, ¬ k.id = kpi.id := fun k hk he =>
    (List.nodup_cons.mp hafter).1 (List.mem_map.mpr ⟨k, hk, he⟩)
  have hsame : ∀ l : List KpiRow, (∀ k ∈ l, ¬ k.id = kpi.id) →
      (l.map fun k => if k.id = kpi.id then f k else k) = l := by
    intro l hl
    exact (List.map_congr_left fun k hk => if_neg (hl k hk)).trans (List.map_id' l)
  simp only [changeKpi, hs, List.map_append, List.map_cons, if_true, hsame before hb,
    hsame after ha]

/-- A row after a change is one from before, which has the id and was changed, or has another one. -/
theorem exists_of_mem_changeKpi {k : KpiRow} {id : Int} {f : KpiRow → KpiRow}
    (h : k ∈ (s.changeKpi id f).kpis) : ∃ l ∈ s.kpis, l.id = id ∧ k = f l ∨ l.id ≠ id ∧ k = l := by
  obtain ⟨l, hl, rfl⟩ := List.mem_map.mp h
  by_cases hid : l.id = id
  · exact ⟨l, hl, .inl ⟨hid, if_pos hid⟩⟩
  · exact ⟨l, hl, .inr ⟨hid, if_neg hid⟩⟩

end Store

/-- The rows of the table of KPIs after at most one row, that of an experiment, was put in or
changed. -/
inductive KpisChange (experiment : Int) (rows : List KpiRow) : List KpiRow → Prop where
  | same : KpisChange experiment rows rows
  | inserted {k : KpiRow} (own : k.experiment = experiment)
      (first : ∀ l ∈ rows, l.experiment ≠ experiment) (fresh : ∀ l ∈ rows, l.id ≠ k.id) :
      KpisChange experiment rows (rows ++ [k])
  | changed {before after : List KpiRow} {k k' : KpiRow} (place : rows = before ++ k :: after)
      (own : k.experiment = experiment) (own' : k'.experiment = experiment) (id : k'.id = k.id) :
      KpisChange experiment rows (before ++ k' :: after)

/-- Nothing differs between two stores but the row of an experiment's KPI and the experiment's link
to it. -/
structure Store.ChangesOnly (experiment : Int) (s s' : Store) : Prop where
  others : s' = { s with kpis := s'.kpis, experiments := s'.experiments }
  kpis : KpisChange experiment s.kpis s'.kpis
  experiments : s'.experiments = s.experiments ∨
    ∃ kpi, s'.experiments = s.experiments.map fun e => if e.id = experiment then { e with kpi } else e

theorem Store.ChangesOnly.refl (experiment : Int) (s : Store) : s.ChangesOnly experiment s :=
  ⟨rfl, .same, .inl rfl⟩

/-- Putting in the first row of an experiment. -/
theorem Store.changesOnly_insert {s : Store} {experiment : Int} {kpi : KpiRow}
    (own : kpi.experiment = experiment) (first : ∀ l ∈ s.kpis, l.experiment ≠ experiment)
    (fresh : ∀ l ∈ s.kpis, l.id ≠ kpi.id) :
    s.ChangesOnly experiment { s with kpis := s.kpis ++ [kpi] } :=
  ⟨rfl, .inserted own first fresh, .inl rfl⟩

/-- Changing one row of an experiment, which keeps its id and its experiment. -/
theorem Store.changesOnly_changeKpi {s : Store} {experiment : Int} {kpi : KpiRow}
    (hk : (s.kpis.map (·.id)).Nodup) (hm : kpi ∈ s.kpis) (hown : kpi.experiment = experiment)
    {f : KpiRow → KpiRow} (hf : (f kpi).experiment = kpi.experiment ∧ (f kpi).id = kpi.id) :
    s.ChangesOnly experiment (s.changeKpi kpi.id f) := by
  obtain ⟨before, after, hs, hs'⟩ := changeKpi_kpis hk hm f
  refine ⟨rfl, ?_, .inl rfl⟩
  rw [hs']
  exact .changed hs hown (hf.1.trans hown) hf.2

theorem Store.ChangesOnly.linkKpi {s s' : Store} {experiment : Int}
    (h : s.ChangesOnly experiment s') (he : s'.experiments = s.experiments) (kpi : Int) :
    s.ChangesOnly experiment (s'.linkKpi experiment kpi) := by
  refine ⟨?_, h.kpis, .inr ⟨some kpi, ?_⟩⟩
  · rw [h.others]
    rfl
  · rw [← he]
    rfl

/-! ### Commands on the row of one experiment -/

/-- What no command changes of the row of a KPI. -/
structure KpiIdentity where
  id : Int
  experiment : Int
  project : Int
  name : String
  createdBy : Option Int
deriving DecidableEq, Repr

def KpiRow.identity (k : KpiRow) : KpiIdentity :=
  ⟨k.id, k.experiment, k.project, k.name, k.createdBy⟩

/-- The row that is put in for a new KPI. -/
def KpiRow.created (id experiment project : Int) (name : String) (user : Int) (settings : String)
    (queries : Queries) : KpiRow where
  id := id
  project := project
  experiment := experiment
  name := name
  createdBy := some user
  updatedBy := some user
  createTime := .clock
  updateTime := .clock
  deleted := false
  settings := settings
  reaction := some queries.reaction
  reactionIsCustom := false
  report := some queries.report
  reportIsCustom := false

theorem KpiRow.identity_customized (k : KpiRow) (user : Int) (kind : QueryKind) (query : String) :
    (k.customized user kind query).identity = k.identity := by
  cases kind <;> rfl

theorem KpiRow.customized_keys (k : KpiRow) (user : Int) (kind : QueryKind) (query : String) :
    (k.customized user kind query).experiment = k.experiment ∧
      (k.customized user kind query).id = k.id := by
  cases kind <;> exact ⟨rfl, rfl⟩

/-- A command on the KPI of an experiment: it creates the row, or it has the id of a row that the
experiment has. -/
inductive Command.IsFor (s : Store) (experiment : Int) : Command → Prop where
  | create (project : Int) (name : String) (user : Int) (settings : String) (queries : Queries) :
      IsFor s experiment (.create experiment project name user settings queries)
  | replace {k : KpiRow} (mem : k ∈ s.kpis) (own : k.experiment = experiment) (user : Int)
      (settings : String) (queries : Queries) :
      IsFor s experiment (.replace k.id experiment user settings queries)
  | remove {k : KpiRow} (mem : k ∈ s.kpis) (own : k.experiment = experiment) (user : Int) :
      IsFor s experiment (.remove k.id user)
  | customize {k : KpiRow} (mem : k ∈ s.kpis) (own : k.experiment = experiment) (user : Int)
      (kind : QueryKind) (query : String) : IsFor s experiment (.customize k.id user kind query)
  | regenerate {k : KpiRow} (mem : k ∈ s.kpis) (own : k.experiment = experiment)
      (reaction : String) : IsFor s experiment (.regenerate k.id experiment reaction)

/-- What a command on the KPI of an experiment makes of a store: the first row of the experiment is put
in and linked, or the row that it has is changed and may be linked anew. -/
inductive Store.WritesRow (experiment : Int) (s : Store) : Store → Prop where
  | inserted {k : KpiRow} (own : k.experiment = experiment)
      (first : ∀ l ∈ s.kpis, l.experiment ≠ experiment) (fresh : ∀ l ∈ s.kpis, l.id ≠ k.id) :
      WritesRow experiment s ({ s with kpis := s.kpis ++ [k] }.linkKpi experiment k.id)
  | changed {k : KpiRow} {f : KpiRow → KpiRow} (mem : k ∈ s.kpis) (own : k.experiment = experiment)
      (kept : ∀ l, (f l).identity = l.identity) : WritesRow experiment s (s.changeKpi k.id f)
  | relinked {k : KpiRow} {f : KpiRow → KpiRow} (mem : k ∈ s.kpis) (own : k.experiment = experiment)
      (kept : ∀ l, (f l).identity = l.identity) :
      WritesRow experiment s ((s.changeKpi k.id f).linkKpi experiment k.id)

section

variable {s s' : Store} {experiment kpi : Int} {c : Command}

theorem Command.apply_create_ok {project user : Int} {name settings : String} {queries : Queries}
    (ha : (create experiment project name user settings queries).apply s = .ok (s', kpi)) :
    (∀ l ∈ s.kpis, l.experiment ≠ experiment) ∧ kpi = nextId (s.kpis.map (·.id)) ∧
      s' = { s with kpis :=
        s.kpis ++ [KpiRow.created kpi experiment project name user settings queries] }.linkKpi experiment
          kpi := by
  simp only [apply] at ha
  split at ha
  · cases ha
  · rename_i hany
    cases ha
    refine ⟨fun l hl he => hany ?_, rfl, rfl⟩
    exact List.any_eq_true.mpr ⟨l, hl, by simpa using he⟩

theorem Command.IsFor.writesRow (h : c.IsFor s experiment) (ha : c.apply s = .ok (s', kpi)) :
    s.WritesRow experiment s' := by
  cases h with
  | create project name user settings queries =>
    obtain ⟨first, hid, rfl⟩ := apply_create_ok ha
    refine .inserted (k := .created kpi experiment project name user settings queries) rfl first
      fun l hl => Int.ne_of_lt ?_
    show l.id < kpi
    rw [hid]
    exact lt_nextId (List.mem_map_of_mem hl)
  | replace mem own user settings queries =>
    cases ha
    exact .relinked mem own fun _ => rfl
  | remove mem own user =>
    cases ha
    exact .changed mem own fun _ => rfl
  | customize mem own user kind query =>
    cases ha
    exact .changed mem own fun l => l.identity_customized user kind query
  | regenerate mem own reaction =>
    cases ha
    exact .changed mem own fun _ => rfl

theorem Store.WritesRow.changesOnly (h : s.WritesRow experiment s')
    (hk : (s.kpis.map (·.id)).Nodup) : s.ChangesOnly experiment s' := by
  cases h with
  | inserted own first fresh => exact (changesOnly_insert own first fresh).linkKpi rfl _
  | changed mem own kept =>
    exact changesOnly_changeKpi hk mem own
      ⟨congrArg KpiIdentity.experiment (kept _), congrArg KpiIdentity.id (kept _)⟩
  | @relinked k f mem own kept =>
    have hchanged : s.ChangesOnly experiment (s.changeKpi k.id f) :=
      changesOnly_changeKpi hk mem own
        ⟨congrArg KpiIdentity.experiment (kept _), congrArg KpiIdentity.id (kept _)⟩
    exact hchanged.linkKpi rfl _

end

/-- The command that an operation ends in is one on its experiment. -/
theorem Effect.isFor {env : Environment} {s : Store} {user : User} {experiment : Int}
    {body : Except Failure Json} {c : Command} (h : Effect env s user experiment body c) :
    c.IsFor s experiment := by
  cases h with
  | create => exact .create ..
  | replace _ _ _ _ found =>
    obtain ⟨hm, hown⟩ := Store.mem_of_kpiOf found
    exact .replace hm hown ..
  | remove _ found =>
    obtain ⟨hm, hown⟩ := Store.mem_of_liveKpiOf found
    exact .remove hm hown _
  | customize _ _ _ found =>
    obtain ⟨hm, hown⟩ := Store.mem_of_liveKpiOf found
    exact .customize hm hown ..
  | regenerate _ found =>
    obtain ⟨hm, hown⟩ := Store.mem_of_liveKpiOf found
    exact .regenerate hm hown _

/-- **A command changes at most the KPI of its experiment.** -/
theorem Effect.changesOnly {env : Environment} {s s' : Store} {user : User} {experiment : Int}
    {body : Except Failure Json} {c : Command} {kpi : Int} (h : Effect env s user experiment body c)
    (hk : (s.kpis.map (·.id)).Nodup) (ha : c.apply s = .ok (s', kpi)) :
    s.ChangesOnly experiment s' :=
  (h.isFor.writesRow ha).changesOnly hk

/-- The keys of the table of KPIs: no id and no experiment occurs twice. -/
structure Store.Keyed (s : Store) : Prop where
  ids : (s.kpis.map (·.id)).Nodup
  experiments : (s.kpis.map (·.experiment)).Nodup

/-- Putting in or changing the row of an experiment keeps a column without repetitions if the new
row brings a new value and the changed row keeps its own. -/
theorem KpisChange.nodup_map {rows rows' : List KpiRow} {experiment : Int}
    (h : KpisChange experiment rows rows') {column : KpiRow → Int}
    (hnew : ∀ k : KpiRow, k.experiment = experiment → (∀ l ∈ rows, l.experiment ≠ experiment) →
      (∀ l ∈ rows, l.id ≠ k.id) → ∀ l ∈ rows, column l ≠ column k)
    (hold : ∀ k k' : KpiRow, k'.id = k.id → k'.experiment = k.experiment → column k' = column k)
    (hn : (rows.map column).Nodup) : (rows'.map column).Nodup := by
  cases h with
  | same => exact hn
  | @inserted k own first fresh =>
    rw [List.map_append, List.map_cons, List.map_nil, List.nodup_append]
    refine ⟨hn, List.nodup_singleton _, fun a ha b hb => ?_⟩
    obtain ⟨l, hl, rfl⟩ := List.mem_map.mp ha
    rw [List.mem_singleton.mp hb]
    exact hnew k own first fresh l hl
  | @changed before after k k' place own own' id =>
    rw [place] at hn
    simpa [hold k k' id (own'.trans own.symm)] using hn

theorem Store.ChangesOnly.keyed {s s' : Store} {experiment : Int} (h : s.ChangesOnly experiment s')
    (hk : s.Keyed) : s'.Keyed := by
  have hc := h.kpis
  refine ⟨hc.nodup_map (fun _ _ _ fresh => fresh) (fun _ _ hi _ => hi) hk.ids,
    hc.nodup_map (fun k own first _ l hl => ?_) (fun _ _ _ he => he) hk.experiments⟩
  rw [own]
  exact first l hl

/-- A command keeps the keys. -/
theorem Effect.keyed {env : Environment} {s s' : Store} {user : User} {experiment : Int}
    {body : Except Failure Json} {c : Command} {kpi : Int} (h : Effect env s user experiment body c)
    (hk : s.Keyed) (ha : c.apply s = .ok (s', kpi)) : s'.Keyed :=
  (h.changesOnly hk.ids ha).keyed hk

/-! ### Rows that stay -/

namespace Store

/-- Rows of KPIs stay: every row is still in its place, as the row of the same KPI, and new rows come
behind. -/
def KeepsRows (s s' : Store) : Prop :=
  s.kpis.map KpiRow.identity <+: s'.kpis.map KpiRow.identity

/-- Every experiment that has a KPI is linked to it. -/
def IsLinked (s : Store) : Prop :=
  ∀ k ∈ s.kpis, ∀ e ∈ s.experiments, e.id = k.experiment → e.kpi = some k.id

variable {s s' : Store} {experiment : Int}

theorem KeepsRows.refl (s : Store) : s.KeepsRows s := List.prefix_rfl

theorem KeepsRows.of_identities
    (h : s'.kpis.map KpiRow.identity = s.kpis.map KpiRow.identity) : s.KeepsRows s' :=
  ⟨[], by rw [List.append_nil, h]⟩

theorem KeepsRows.trans {s'' : Store} (h : s.KeepsRows s') (h' : s'.KeepsRows s'') :
    s.KeepsRows s'' :=
  List.IsPrefix.trans h h'

/-- A row that stays has a row in its place, which may have changed in other things. -/
theorem KeepsRows.exists_mem (h : s.KeepsRows s') {k : KpiRow} (hk : k ∈ s.kpis) :
    ∃ k' ∈ s'.kpis, k'.identity = k.identity :=
  List.mem_map.mp (h.subset (List.mem_map_of_mem hk))

/-- Where ids are a key, the row of an id is that of the same KPI as before. -/
theorem KeepsRows.identity_eq (h : s.KeepsRows s') (hkeyed : s'.Keyed) {k k' : KpiRow}
    (hk : k ∈ s.kpis) (hk' : k' ∈ s'.kpis) (hid : k'.id = k.id) : k'.identity = k.identity := by
  obtain ⟨l, hl, hsame⟩ := h.exists_mem hk
  have hlid : l.id = k.id := congrArg KpiIdentity.id hsame
  rw [List.inj_on_of_nodup_map hkeyed.ids hk' hl (hid.trans hlid.symm), hsame]

/-- A command on a row stays one while rows stay. -/
theorem KeepsRows.isFor (h : s.KeepsRows s') {c : Command} (hc : c.IsFor s experiment) :
    c.IsFor s' experiment := by
  have hrow : ∀ {k : KpiRow}, k ∈ s.kpis → k.experiment = experiment →
      ∃ k' ∈ s'.kpis, k'.id = k.id ∧ k'.experiment = experiment := by
    intro k hk hown
    obtain ⟨k', hk', hsame⟩ := h.exists_mem hk
    exact ⟨k', hk', congrArg KpiIdentity.id hsame,
      (congrArg KpiIdentity.experiment hsame).trans hown⟩
  cases hc with
  | create => exact .create ..
  | replace mem own =>
    obtain ⟨k', hk', hid, hown⟩ := hrow mem own
    exact hid ▸ .replace hk' hown ..
  | remove mem own =>
    obtain ⟨k', hk', hid, hown⟩ := hrow mem own
    exact hid ▸ .remove hk' hown _
  | customize mem own =>
    obtain ⟨k', hk', hid, hown⟩ := hrow mem own
    exact hid ▸ .customize hk' hown ..
  | regenerate mem own =>
    obtain ⟨k', hk', hid, hown⟩ := hrow mem own
    exact hid ▸ .regenerate hk' hown _

theorem identities_changeKpi (s : Store) (id : Int) {f : KpiRow → KpiRow}
    (kept : ∀ l, (f l).identity = l.identity) :
    (s.changeKpi id f).kpis.map KpiRow.identity = s.kpis.map KpiRow.identity := by
  have hrow : ∀ l : KpiRow, (if l.id = id then f l else l).identity = l.identity := by
    intro l
    by_cases hid : l.id = id
    · rw [if_pos hid, kept]
    · rw [if_neg hid]
  rw [changeKpi, List.map_map]
  exact List.map_congr_left fun l _ => hrow l

/-- **A command on the KPI of an experiment keeps all rows.** -/
theorem WritesRow.keepsRows (h : s.WritesRow experiment s') : s.KeepsRows s' := by
  cases h with
  | inserted =>
    unfold KeepsRows linkKpi
    rw [List.map_append]
    exact List.prefix_append _ _
  | @changed k f _ _ kept =>
    exact .of_identities (identities_changeKpi s k.id kept)
  | @relinked k f _ _ kept =>
    exact .of_identities (identities_changeKpi s k.id kept)

/-- Links that agree with the rows agree with rows that only changed in other things. -/
theorem IsLinked.of_identities (h : s.IsLinked) (hexperiments : s'.experiments = s.experiments)
    (hrows : s'.kpis.map KpiRow.identity = s.kpis.map KpiRow.identity) : s'.IsLinked := by
  intro k' hk' e he hid
  have hmem : k'.identity ∈ s.kpis.map KpiRow.identity := hrows ▸ List.mem_map_of_mem hk'
  obtain ⟨k, hk, hsame⟩ := List.mem_map.mp hmem
  have hexperiment : k.experiment = k'.experiment := congrArg KpiIdentity.experiment hsame
  have hkpi : k.id = k'.id := congrArg KpiIdentity.id hsame
  rw [hexperiments] at he
  rw [← hkpi]
  exact h k hk e he (hid.trans hexperiment.symm)

/-- Linking an experiment to the one row that it has. -/
theorem IsLinked.linkKpi {kpi : Int}
    (hown : ∀ k ∈ s.kpis, k.experiment = experiment → k.id = kpi)
    (h : ∀ k ∈ s.kpis, k.experiment ≠ experiment →
      ∀ e ∈ s.experiments, e.id = k.experiment → e.kpi = some k.id) :
    (s.linkKpi experiment kpi).IsLinked := by
  intro k hk e' he' hid
  obtain ⟨e, he, rfl⟩ := List.mem_map.mp he'
  by_cases hexperiment : e.id = experiment
  · rw [if_pos hexperiment] at hid ⊢
    rw [hown k hk (hid.symm.trans hexperiment)]
  · rw [if_neg hexperiment] at hid ⊢
    exact h k hk (fun hk => hexperiment (hid.trans hk)) e he hid

/-- **A command on the KPI of an experiment keeps experiments linked to their KPIs.** -/
theorem WritesRow.isLinked (h : s.WritesRow experiment s') (hk : s.Keyed) (hl : s.IsLinked) :
    s'.IsLinked := by
  cases h with
  | @inserted k own first fresh =>
    apply IsLinked.linkKpi
    · intro l hm hl
      rcases List.mem_append.mp hm with hm | hm
      · exact absurd hl (first l hm)
      · rw [List.mem_singleton.mp hm]
    · intro l hm hne
      rcases List.mem_append.mp hm with hm | hm
      · exact hl l hm
      · rw [List.mem_singleton.mp hm] at hne
        exact absurd own hne
  | @changed k f mem own kept => exact hl.of_identities rfl (identities_changeKpi s _ kept)
  | @relinked k f mem own kept =>
    have hchanged : (s.changeKpi k.id f).IsLinked :=
      hl.of_identities rfl (identities_changeKpi s _ kept)
    apply IsLinked.linkKpi
    · intro l' hm hown'
      have hmem : l'.identity ∈ s.kpis.map KpiRow.identity :=
        identities_changeKpi s _ kept ▸ List.mem_map_of_mem hm
      obtain ⟨l, hl, hsame⟩ := List.mem_map.mp hmem
      -- The experiment occurs once, so the row is that of `k`.
      have hexperiment : l.experiment = k.experiment :=
        ((congrArg KpiIdentity.experiment hsame).trans hown').trans own.symm
      have hlk : l = k := List.inj_on_of_nodup_map hk.experiments hl mem hexperiment
      rw [← hlk]
      exact (congrArg KpiIdentity.id hsame).symm
    · exact fun l hm _ => hchanged l hm

end Store

end ExperimentKpi

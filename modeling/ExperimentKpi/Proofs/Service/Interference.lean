/-
# Operations under interference

Between the reads of an operation others may write. They write KPIs and the links to them, and nothing
else (`Store.Alike`). Of what an operation on one KPI reads before its last read nothing depends on
that but the link of the experiment, which it does not use (`Inquiry.Steady`,
`KpiAction.steady_operation`). So whatever is written between its reads, the operation comes to what it
would have come to had it seen the store of its last read throughout (`Inquiry.Leads.run_eq`). A
creation, an update and a regeneration read seven times before their commands (`createKpi_reads`,
`updateKpi_reads`, `regenerateReaction_reads`).

Key definitions: `Inquiry.Leads`, `Inquiry.Steady`, `Operation.OnlyShows`, `Inquiry.reads`.
Key theorems: `Inquiry.Leads.run_eq`, `Inquiry.Steady.loadContext_bind`, `KpiAction.steady_operation`,
`listKpis_onlyShows`, `Inquiry.reads_bind`.
-/
import ExperimentKpi.Proofs.Service.Stored

namespace ExperimentKpi

namespace Inquiry

variable {α β γ : Type}

theorem bind_finished (m : Inquiry α) : (m.bind fun a => finished (.ok a)) = m := by
  induction m with
  | finished r => cases r <;> rfl
  | read next ih => exact congrArg read (funext ih)

theorem bind_bind (m : Inquiry α) (k : α → Inquiry β) (l : β → Inquiry γ) :
    (m.bind k).bind l = m.bind fun a => (k a).bind l := by
  induction m with
  | finished r => cases r <;> rfl
  | read next ih => exact congrArg read (funext ih)

instance : LawfulMonad Inquiry :=
  LawfulMonad.mk' Inquiry bind_finished (fun _ _ => rfl) bind_bind

/-- Nothing is left to read. -/
def IsFinished (m : Inquiry α) : Prop :=
  ∃ r, m = finished r

theorem IsFinished.check_bind {r : Except Failure α} {k : α → Inquiry β}
    (hk : ∀ a, (k a).IsFinished) : (check r >>= k).IsFinished := by
  cases r with
  | error failure => exact ⟨_, rfl⟩
  | ok a => exact hk a

/-- What is left of an inquiry after some of its reads, the last of which saw a store `s`; between two
reads nothing but KPIs and the links to them changes. -/
inductive Leads (m : Inquiry α) : Store → Inquiry α → Prop where
  | start (s : Store) : Leads m s m
  | read {s s' : Store} {next : Store → Inquiry α} (earlier : Leads m s (.read next))
      (alike : s.Alike s') : Leads m s' (next s')

/-- Of what an inquiry sees before its last read, KPIs and the links to them do not matter. -/
inductive Steady : Inquiry α → Prop where
  | finished (r : Except Failure α) : Steady (.finished r)
  | read {next : Store → Inquiry α} (steady : ∀ s, Steady (next s))
      (same : ∀ s t, s.Alike t → (next s).IsFinished ∨ (next s).run t = (next t).run t) :
      Steady (.read next)

/-- An inquiry is steady wherever it leads. -/
theorem Leads.steady {m rest : Inquiry α} {s : Store} (h : m.Leads s rest) (hm : m.Steady) :
    rest.Steady := by
  induction h with
  | start => exact hm
  | read _ _ ih =>
    cases ih with
    | read steady => exact steady _

/-- **A steady inquiry comes to what it comes to on the store of its last read.** -/
theorem Leads.run_eq {m : Inquiry α} {s : Store} {r : Except Failure α}
    (h : m.Leads s (finished r)) (hm : m.Steady) : m.run s = r := by
  -- What is left comes to the result on the store of the last read, and as long as something is left
  -- to read, on every other store that might be read next.
  have hrest : ∀ {s : Store} {rest : Inquiry α}, m.Leads s rest → rest.run s = m.run s ∧
      (¬ rest.IsFinished → ∀ t, s.Alike t → rest.run t = m.run t) := by
    intro s rest h
    induction h with
    | start => exact ⟨rfl, fun _ _ _ => rfl⟩
    | @read s s' next earlier halike ih =>
      have hnext : ∀ t, s.Alike t → (next t).run t = m.run t :=
        ih.2 fun ⟨r, hr⟩ => by cases hr
      refine ⟨hnext s' halike, fun hunfinished t ht => ?_⟩
      cases earlier.steady hm with
      | read _ same =>
        have hsame := (same s' t ht).resolve_left hunfinished
        rw [hsame]
        exact hnext t (halike.trans ht)
  exact (hrest h).1.symm

namespace Steady

variable {q : Store → Except Failure α} {k : α → Inquiry β} {r : Except Failure α}

/-- A check reads nothing. -/
theorem check_bind (hk : ∀ a, r = .ok a → (k a).Steady) : (check r >>= k).Steady := by
  cases r with
  | error failure => exact .finished _
  | ok a => exact hk a rfl

/-- A read that all stores answer in the same way. -/
theorem query_bind (hq : ∀ s t, s.Alike t → q t = q s) (hk : ∀ a, (k a).Steady) :
    (query q >>= k).Steady := by
  refine .read (fun s => check_bind fun a _ => hk a) fun s t h => .inr ?_
  show (check (q s) >>= k).run t = (check (q t) >>= k).run t
  rw [hq s t h]

/-- The last read. -/
theorem last_bind (hk : ∀ a, (k a).IsFinished) : (query q >>= k).Steady := by
  have hfinished : ∀ s, (check (q s) >>= k).IsFinished := by
    intro s
    cases q s with
    | error failure => exact ⟨_, rfl⟩
    | ok a => exact hk a
  refine .read (fun s => ?_) fun s _ _ => .inl (hfinished s)
  obtain ⟨r, hr⟩ := hfinished s
  show (check (q s) >>= k).Steady
  rw [hr]
  exact .finished r

/-- A read of an experiment by an inquiry that does not use its link. -/
theorem experiment_bind {id : Int} {k : Experiment → Inquiry β} (hk : ∀ e, (k e).Steady)
    (hlink : ∀ e kpi, k { e with kpi } = k e) :
    (query (fun s => s.experiment id) >>= k).Steady := by
  refine .read (fun s => check_bind fun e _ => hk e) fun s t h => .inr ?_
  obtain ⟨kpi, he⟩ := h.experiment id
  show (check (s.experiment id) >>= k).run t = (check (t.experiment id) >>= k).run t
  rw [he]
  cases s.experiment id with
  | error failure => rfl
  | ok e => exact congrArg (run t) (hlink e kpi).symm

/-- An inquiry into the context of an experiment that does not use its link. -/
theorem loadContext_bind {id : Int} {k : ExperimentContext → Inquiry β} (hk : ∀ c, (k c).Steady)
    (hlink : ∀ (c : ExperimentContext) kpi, k (c.withLink kpi) = k c) :
    (loadContext id >>= k).Steady := by
  simp only [loadContext, bind_assoc, pure_bind]
  refine experiment_bind (fun e => ?_) fun e kpi => ?_
  · refine query_bind (fun s t h => by rw [h.project]) fun p => check_bind fun organization _ => ?_
    refine query_bind (fun s t h => by rw [h.settingsOf]) fun settings => ?_
    refine query_bind (fun s t h => by rw [(h.design id).1]) fun variations => ?_
    refine query_bind (fun s t h => by rw [(h.design id).2]) fun conditions => ?_
    exact query_bind (fun s t h => by rw [h.modelsOf]) fun models => hk _
  · have hcontext : ∀ p settings variations conditions models,
        k ⟨{ e with kpi }, p, settings, Design.ofRows variations conditions, models⟩ =
          k ⟨e, p, settings, Design.ofRows variations conditions, models⟩ :=
      fun p settings variations conditions models =>
        hlink ⟨e, p, settings, Design.ofRows variations conditions, models⟩ kpi
    simp only [hcontext]

end Steady

end Inquiry

/-! ### Operations -/

/-- **An operation on one KPI is steady.** -/
theorem KpiAction.steady_operation (env : Environment) (user : User) (experiment : Int)
    (action : KpiAction) : (action.operation env user experiment).Steady := by
  cases action with
  | create document =>
    refine Inquiry.Steady.loadContext_bind (fun context => ?_) fun context kpi => ?_
    · refine .check_bind fun accepted _ => .last_bind fun row => ?_
      cases row with
      | some k => exact ⟨_, rfl⟩
      | none => exact .check_bind fun stored => .check_bind fun queries => ⟨_, rfl⟩
    · simp only [compileQueries_withLink]
      rfl
  | update document =>
    refine Inquiry.Steady.loadContext_bind (fun context => ?_) fun context kpi => ?_
    · refine .check_bind fun _ _ => .check_bind fun accepted _ => .last_bind fun row => ?_
      cases row with
      | none => exact ⟨_, rfl⟩
      | some k => exact .check_bind fun stored => .check_bind fun queries => ⟨_, rfl⟩
    · simp only [compileQueries_withLink]
      rfl
  | view =>
    refine .experiment_bind (fun e => .last_bind fun k => ?_) fun e kpi => rfl
    exact .check_bind fun detail => ⟨_, rfl⟩
  | remove => exact .experiment_bind (fun e => .last_bind fun k => ⟨_, rfl⟩) fun e kpi => rfl
  | customize kind query =>
    refine .experiment_bind (fun e => ?_) fun e kpi => rfl
    refine .query_bind (fun s t h => by rw [h.project]) fun p => .check_bind fun _ _ => ?_
    exact .last_bind fun k => ⟨_, rfl⟩
  | regenerate =>
    refine Inquiry.Steady.loadContext_bind (fun context => .last_bind fun k => ?_) fun context kpi => ?_
    · exact .check_bind fun settings => .check_bind fun reaction => ⟨_, rfl⟩
    · simp only [compileReaction_withLink]

/-- An operation that writes nothing, whatever it reads. -/
inductive Operation.OnlyShows : Operation → Prop where
  | finished {r : Except Failure Decision} (shows : ∀ c, r ≠ .ok (.write c)) :
      OnlyShows (.finished r)
  | read {next : Store → Operation} (shows : ∀ s, OnlyShows (next s)) : OnlyShows (.read next)

theorem Operation.OnlyShows.query_bind {α : Type} {q : Store → Except Failure α} {k : α → Operation}
    (hk : ∀ a, OnlyShows (k a)) : OnlyShows (Inquiry.query q >>= k) := by
  refine .read fun s => ?_
  show OnlyShows (Inquiry.check (q s) >>= k)
  cases q s with
  | error failure => exact .finished nofun
  | ok a => exact hk a

/-- Listing KPIs reads the table of KPIs more than once, but writes nothing. -/
theorem listKpis_onlyShows (project : Int) (q : PageQuery) : (listKpis project q).OnlyShows :=
  .query_bind fun _ => .query_bind fun _ => .query_bind fun _ => .finished nofun

theorem Operation.OnlyShows.of_leads {op rest : Operation} {s : Store} (h : op.Leads s rest)
    (hop : op.OnlyShows) : rest.OnlyShows := by
  induction h with
  | start => exact hop
  | read _ _ ih =>
    cases ih with
    | read shows => exact shows _

/-! ### How often an operation reads -/

namespace Inquiry

variable {α β : Type} {s : Store}

/-- The number of reads of an inquiry that sees one store throughout. -/
def reads (s : Store) : Inquiry α → Nat
  | finished _ => 0
  | read next => (next s).reads s + 1

theorem reads_bind {m : Inquiry α} {k : α → Inquiry β} {a : α} (h : m.run s = .ok a) :
    (m >>= k).reads s = m.reads s + (k a).reads s := by
  show (m.bind k).reads s = _
  induction m with
  | finished r =>
    cases h
    exact (Nat.zero_add _).symm
  | read next ih =>
    have hrest : ((next s).bind k).reads s = (next s).reads s + (k a).reads s := ih s h
    show ((next s).bind k).reads s + 1 = (next s).reads s + 1 + (k a).reads s
    rw [hrest]
    omega

theorem reads_query_bind {q : Store → Except Failure α} {k : α → Inquiry β} {a : α}
    (h : q s = .ok a) : (query q >>= k).reads s = (k a).reads s + 1 := by
  have hrun : (query q).run s = .ok a := h
  rw [reads_bind hrun, Nat.add_comm]
  rfl

theorem reads_check_bind {r : Except Failure α} {k : α → Inquiry β} {a : α} (h : r = .ok a) :
    (check r >>= k).reads s = (k a).reads s := by
  have hrun : (check r).run s = .ok a := h
  rw [reads_bind hrun]
  exact Nat.zero_add _

end Inquiry

/-- The context of an experiment takes six reads. -/
theorem loadContext_reads {s : Store} {experiment : Int} {context : ExperimentContext}
    (h : (loadContext experiment).run s = .ok context) : (loadContext experiment).reads s = 6 := by
  obtain ⟨he, hp, ⟨organization, ho, hsettings⟩, -⟩ := loadContext_run_iff.mp h
  unfold loadContext
  rw [Inquiry.reads_query_bind he, Inquiry.reads_query_bind hp, Inquiry.reads_check_bind (by rw [ho]),
    Inquiry.reads_query_bind hsettings]
  rfl

section

variable {env : Environment} {s : Store} {user : User} {experiment : Int} {document : Json}
  {c : Command}

/-- A creation that comes to its command has read seven times. -/
theorem createKpi_reads
    (h : Inquiry.run s (createKpi env user experiment document) = .ok (.write c)) :
    (createKpi env user experiment document).reads s = 7 := by
  simp only [createKpi, Inquiry.run_bind, Inquiry.run_query, Inquiry.run_check, bind_ok_iff] at h
  obtain ⟨context, hload, accepted, hvalid, found, hfound, h⟩ := h
  cases found with
  | some kpi => simp at h
  | none =>
    simp only [Inquiry.run_bind, Inquiry.run_check, Inquiry.run_pure, bind_ok_iff] at h
    obtain ⟨⟨text, settings⟩, hcanonical, queries, hcompiled, -⟩ := h
    unfold createKpi
    rw [Inquiry.reads_bind hload, loadContext_reads hload, Inquiry.reads_check_bind hvalid,
      Inquiry.reads_query_bind hfound]
    dsimp only
    rw [Inquiry.reads_check_bind hcanonical]
    dsimp only
    rw [Inquiry.reads_check_bind hcompiled]
    rfl

theorem updateKpi_reads
    (h : Inquiry.run s (updateKpi env user experiment document) = .ok (.write c)) :
    (updateKpi env user experiment document).reads s = 7 := by
  simp only [updateKpi, Inquiry.run_bind, Inquiry.run_query, Inquiry.run_check, bind_ok_iff] at h
  obtain ⟨context, hload, ⟨⟩, hgranted, accepted, hvalid, found, hfound, h⟩ := h
  cases found with
  | none => simp at h
  | some kpi =>
    simp only [Inquiry.run_bind, Inquiry.run_check, Inquiry.run_pure, bind_ok_iff] at h
    obtain ⟨⟨text, settings⟩, hcanonical, queries, hcompiled, -⟩ := h
    unfold updateKpi
    rw [Inquiry.reads_bind hload, loadContext_reads hload, Inquiry.reads_check_bind hgranted,
      Inquiry.reads_check_bind hvalid, Inquiry.reads_query_bind hfound]
    dsimp only
    rw [Inquiry.reads_check_bind hcanonical]
    dsimp only
    rw [Inquiry.reads_check_bind hcompiled]
    rfl

theorem regenerateReaction_reads
    (h : Inquiry.run s (regenerateReaction env experiment) = .ok (.write c)) :
    (regenerateReaction env experiment).reads s = 7 := by
  simp only [regenerateReaction, Inquiry.run_bind, Inquiry.run_query, Inquiry.run_check,
    Inquiry.run_pure, bind_ok_iff] at h
  obtain ⟨context, hload, kpi, hkpi, settings, hvalid, reaction, hcompiled, -⟩ := h
  unfold regenerateReaction
  rw [Inquiry.reads_bind hload, loadContext_reads hload, Inquiry.reads_query_bind hkpi,
    Inquiry.reads_check_bind hvalid, Inquiry.reads_check_bind hcompiled]
  rfl

end

end ExperimentKpi

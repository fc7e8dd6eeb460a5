/-
# Regenerations that are overtaken

Nothing ties the reaction query that a regeneration writes to the settings that it read. However the
steps of requests are interleaved, the reaction query of a KPI is nevertheless compiled from the settings
that are stored beside it, but for two cases (`System.run_origin`): the settings spell a float that is not
read back from its text, or the query was written last by a regeneration that an update of the same KPI
overtook (`System.Origin`). Both happen (`System.not_keepsReactions`).

Key definitions: `System.Applies`, `System.Origin`.
Key theorems: `System.settings_eq_or_applies`, `System.run_origin`.
-/
import ExperimentKpi.Proofs.Api.History
import ExperimentKpi.Proofs.Api.Lifecycle
import ExperimentKpi.Proofs.Service.Provenance

namespace ExperimentKpi

namespace System

variable {app : App} {sys : System} {events : List Event} {event : Event} {i : Nat} {k : KpiRow}

/-! ### Commands in a history -/

/-- After `before`, one of `events` applies a command with a property. -/
def Applies (app : App) (before events : List Event) (P : Command → Prop) : Prop :=
  ∃ earlier event later c s, events = earlier ++ event :: later ∧
    ((of app).run (before ++ earlier)).Writes event c s ∧ P c

section

variable {before : List Event} {P : Command → Prop}

theorem not_applies_nil : ¬ Applies app before [] P := by
  rintro ⟨earlier, event, later, -, -, hsplit, -⟩
  exact List.append_ne_nil_of_right_ne_nil earlier (List.cons_ne_nil event later) hsplit.symm

theorem applies_concat_iff : Applies app before (events ++ [event]) P ↔
    Applies app before events P ∨
      ∃ c s, ((of app).run (before ++ events)).Writes event c s ∧ P c := by
  constructor
  · rintro ⟨earlier, event', later, c, s, hsplit, hw, hP⟩
    rcases List.eq_nil_or_concat later with rfl | ⟨later, last, rfl⟩
    · obtain ⟨rfl, hevent⟩ := List.append_inj' hsplit rfl
      cases hevent
      exact .inr ⟨c, s, hw, hP⟩
    · rw [List.concat_eq_append, ← List.cons_append, ← List.append_assoc] at hsplit
      obtain ⟨hevents, -⟩ := List.append_inj' hsplit rfl
      exact .inl ⟨earlier, event', later, c, s, hevents, hw, hP⟩
  · rintro (⟨earlier, event', later, c, s, rfl, hw, hP⟩ | ⟨c, s, hw, hP⟩)
    · exact ⟨earlier, event', later ++ [event], c, s, by simp, hw, hP⟩
    · exact ⟨events, event, [], c, s, rfl, hw, hP⟩

end

theorem Writes.app_step {c : Command} {s : Store} (h : sys.Writes event c s) :
    (sys.step event).app = { sys.app with store := s } := by
  cases h with
  | last task isOpen applied => rw [step_of_apply_ok task isOpen applied]

theorem Writes.unique {c c' : Command} {s s' : Store} (h : sys.Writes event c s)
    (h' : sys.Writes event c' s') : c = c' := by
  cases h with
  | last task =>
    cases h' with
    | last task' =>
      cases task.symm.trans task'
      rfl

/-- A row after an event was there before, if the event applies no command, or the command brought it
about. -/
theorem row_cases (h : k ∈ (sys.step event).app.store.kpis) :
    (k ∈ sys.app.store.kpis ∧ ∀ c s, ¬ sys.Writes event c s) ∨
      ∃ c s, sys.Writes event c s ∧ c.Brings sys.app.store k := by
  by_cases hwrites : ∃ c s, sys.Writes event c s
  · obtain ⟨c, s, hw⟩ := hwrites
    rw [hw.app_step] at h
    refine .inr ⟨c, s, hw, ?_⟩
    cases hw with
    | last _ _ applied => exact Command.brings_of_apply applied h
  · rcases step_cases sys event with hkept | ⟨c, s, hw, -⟩
    · rw [hkept] at h
      exact .inl ⟨h, fun c s hw => hwrites ⟨c, s, hw⟩⟩
    · exact absurd ⟨c, s, hw⟩ hwrites

/-- The request of a task came at some time. -/
theorem arrive_mem {t : Task} (h : ((of app).run events).tasks[i]? = some t) :
    .arrive t.now t.request ∈ events := by
  induction events using List.reverseRecOn generalizing t with
  | nil => cases h
  | append_singleton events event ih =>
    rw [run_concat] at h
    rcases task_cases h with hsame | ⟨now, r, rfl, rfl⟩ | ⟨t', -, ht', rfl, -⟩
    · exact List.mem_append_left _ (ih hsame)
    · exact List.mem_append_right _ (List.mem_singleton_self _)
    · have hearlier : .arrive t'.now t'.request ∈ events := ih ht'
      exact List.mem_append_left _ hearlier

/-- **A row keeps its settings until an update of its KPI is applied.** -/
theorem settings_eq_or_applies (hkeyed : app.store.Keyed) (read later : List Event) {k l : KpiRow}
    (hl : l ∈ ((of app).run read).app.store.kpis)
    (hk : k ∈ ((of app).run (read ++ later)).app.store.kpis) (hid : l.id = k.id) :
    k.settings = l.settings ∨ Applies app read later (Command.Updates k.id) := by
  induction later using List.reverseRecOn generalizing k with
  | nil =>
    rw [List.append_nil] at hk
    left
    rw [List.inj_on_of_nodup_map (sound_run hkeyed read).keyed.ids hl hk hid]
  | append_singleton later event ih =>
    rw [← List.append_assoc, run_concat] at hk
    have hsound := sound_run hkeyed (read ++ later)
    rcases row_cases hk with ⟨hbefore, -⟩ | ⟨c, s, hw, hbrings⟩
    · rcases ih hbefore hid with hsame | hupdated
      · exact .inl hsame
      · exact .inr (applies_concat_iff.mpr (.inl hupdated))
    · -- The row was there before the command, which either updates it or leaves its settings.
      obtain ⟨l', hl', hidentity⟩ := (hsound.evolves read later rfl).rows.exists_mem hl
      have hid' : l'.id = k.id := (congrArg KpiIdentity.id hidentity).trans hid
      rcases hbrings.settings_eq hsound.keyed hl' hid' with hsame | hupdates
      · rcases ih hl' (hid.trans hid'.symm) with hsame' | hupdated
        · exact .inl (hsame.trans hsame')
        · rw [hid'] at hupdated
          exact .inr (applies_concat_iff.mpr (.inl hupdated))
      · exact .inr (applies_concat_iff.mpr (.inr ⟨c, s, hw, hupdates⟩))

/-! ### What reaction queries are compiled from -/

/-- What the reaction query of a row is compiled from after events, in the context of its experiment. -/
inductive Origin (app : App) (events : List Event) (context : ExperimentContext) (k : KpiRow)
    (reaction : String) : Prop where
  /-- The settings that are stored in the row. -/
  | stored {settings : Settings} (accepted : Settings.revalidate k.settings = .ok settings)
      (compiled : compileReaction context settings app.warehouse = .ok reaction)
  /-- The settings of a document that was sent, which has a float that is not read back from the text
  that is stored. -/
  | sent {now : Int} {r : Request} {document : Json} {x : Binary64} {settings : Settings}
      (arrived : .arrive now r ∈ events) (given : readJsonBody r.body = .ok document)
      (float : .float x ∈ document.numbers) (drifts : ¬ (Number.float x).ReadsBack)
      (canonical : canonical context document = .ok (k.settings, settings))
      (compiled : compileReaction context settings app.warehouse = .ok reaction)
  /-- The settings that the row had when a regeneration read them: the task `i` had come to its command
  after `read`, an update of the KPI was applied before the command was, and nothing has set the query
  since. -/
  | overtaken {read between after : List Event} {i : Nat} {r : Request} {l : KpiRow}
      {settings : Settings} {s : Store}
      (history : events = read ++ between ++ .advance i :: after)
      (decided : Decides app read i (.regenerate k.id k.experiment reaction) r k.experiment)
      (found : l ∈ ((of app).run read).app.store.kpis) (same : l.id = k.id)
      (accepted : Settings.revalidate l.settings = .ok settings)
      (compiled : compileReaction context settings app.warehouse = .ok reaction)
      (updated : Applies app read between (Command.Updates k.id))
      (written : ((of app).run (read ++ between)).Writes (.advance i)
        (.regenerate k.id k.experiment reaction) s)
      (last : ¬ Applies app (read ++ between ++ [.advance i]) after (Command.SetsReaction k.id))

section

variable {context : ExperimentContext} {reaction : String}

/-- The origin of a query stays while it is not set. -/
theorem Origin.concat {l : KpiRow} (h : Origin app events context l reaction) (kpi : Option Int)
    (hidentity : k.identity = l.identity) (hsettings : k.settings = l.settings)
    (huntouched : ∀ c s, ((of app).run events).Writes event c s → ¬ c.SetsReaction k.id) :
    Origin app (events ++ [event]) (context.withLink kpi) k reaction := by
  have hid : l.id = k.id := (congrArg KpiIdentity.id hidentity).symm
  have hexperiment : l.experiment = k.experiment := (congrArg KpiIdentity.experiment hidentity).symm
  cases h with
  | stored accepted compiled =>
    rw [← hsettings] at accepted
    exact .stored accepted (compileReaction_withLink.trans compiled)
  | sent arrived given float drifts canonical compiled =>
    rw [← hsettings] at canonical
    exact .sent (List.mem_append_left _ arrived) given float drifts canonical
      (compileReaction_withLink.trans compiled)
  | @overtaken read between after i r _ _ s history decided found same accepted compiled updated
      written last =>
    rw [hid, hexperiment] at decided written
    rw [hid] at same updated last
    have hevents : read ++ between ++ [Event.advance i] ++ after = events := by
      rw [history, List.append_assoc (read ++ between), List.singleton_append]
    have hhistory : events ++ [event] =
        read ++ between ++ Event.advance i :: (after ++ [event]) := by
      rw [history, List.append_assoc, List.cons_append]
    refine .overtaken hhistory decided found same accepted (compileReaction_withLink.trans compiled)
      updated written fun hlast => ?_
    rcases applies_concat_iff.mp hlast with hlast | ⟨c, s, hw, hsets⟩
    · exact last hlast
    · rw [hevents] at hw
      exact huntouched c s hw hsets

/-- A reaction query that comes with its settings is compiled from them, as they were sent. -/
theorem exists_origin_of_composes {s s' : Store} {now : Int} {r : Request} {queries : Queries}
    (hcomposes : Composes app.environment s k.experiment (readJsonBody r.body) k.settings queries)
    (halike : s.Alike s') (harrived : .arrive now r ∈ events) :
    ∃ context, (loadContext k.experiment).run s' = .ok context ∧
      Origin app events context k queries.reaction := by
  obtain ⟨document, context, accepted, settings, hgiven, hload, hvalid, hcanonical, hcompiled⟩ :=
    hcomposes
  obtain ⟨kpi, hload'⟩ := halike.exists_loadContext hload
  have hreaction : compileReaction (context.withLink kpi) settings app.warehouse =
      .ok queries.reaction :=
    compileReaction_withLink.trans (compileQueries_ok hcompiled).1
  refine ⟨context.withLink kpi, hload', ?_⟩
  by_cases hfloats : r.FloatsReadBack
  · obtain ⟨hnest, hnum⟩ := hfloats.isReadBack document hgiven
    exact .stored (revalidate_canonical hvalid hnest hnum hcanonical) hreaction
  · unfold Request.FloatsReadBack at hfloats
    push Not at hfloats
    obtain ⟨document', hgiven', x, hx, hdrifts⟩ := hfloats
    obtain rfl := Except.ok.inj (hgiven.symm.trans hgiven')
    exact .sent harrived hgiven hx hdrifts hcanonical hreaction

/-- A reaction query that comes alone is compiled from the settings of its row, if these stayed. -/
theorem exists_origin_of_regenerate (hkeyed : app.store.Keyed) {read later : List Event} {r : Request}
    {l : KpiRow} {s s' : Store} (hevents : events = read ++ later)
    (hdecides : Decides app read i (.regenerate k.id k.experiment reaction) r k.experiment)
    (hw : ((of app).run events).Writes (Event.advance i) (.regenerate k.id k.experiment reaction) s)
    (hl : l ∈ ((of app).run events).app.store.kpis) (hid : l.id = k.id)
    (hsettings : k.settings = l.settings)
    (halike : ((of app).run read).app.store.Alike s') :
    ∃ context, (loadContext k.experiment).run s' = .ok context ∧
      Origin app (events ++ [Event.advance i]) context k reaction := by
  obtain ⟨user, heffect⟩ := hdecides.effect
  obtain ⟨-, found, hfound, hsame, -, context, settings, hload, haccepted, hcompiled⟩ :=
    heffect.of_regenerate
  obtain ⟨kpi, hload'⟩ := halike.exists_loadContext hload
  have hreaction : compileReaction (context.withLink kpi) settings app.warehouse = .ok reaction :=
    compileReaction_withLink.trans hcompiled
  refine ⟨context.withLink kpi, hload', ?_⟩
  rw [hevents] at hl hw
  rcases settings_eq_or_applies hkeyed read later hfound hl (hsame.trans hid.symm) with
    hstayed | hupdated
  · rw [← hstayed, ← hsettings] at haccepted
    exact .stored haccepted hreaction
  · rw [hid] at hupdated
    have hhistory : events ++ [Event.advance i] = read ++ later ++ [Event.advance i] := by
      rw [hevents]
    exact .overtaken hhistory hdecides hfound hsame haccepted hreaction hupdated hw not_applies_nil

end

/-- A row has a reaction query, which has an origin. -/
def HasOrigin (app : App) (events : List Event) (k : KpiRow) : Prop :=
  ∃ context reaction, (loadContext k.experiment).run ((of app).run events).app.store = .ok context ∧
    k.reaction = some reaction ∧ Origin app events context k reaction

/-- **A step keeps the origins of reaction queries.** -/
theorem hasOrigin_concat (hkeyed : app.store.Keyed)
    (h : ∀ k ∈ ((of app).run events).app.store.kpis, k.reactionIsCustom = false →
      HasOrigin app events k)
    (hk : k ∈ ((of app).run (events ++ [event])).app.store.kpis) (hcustom : k.reactionIsCustom = false) :
    HasOrigin app (events ++ [event]) k := by
  have hsound := sound_run hkeyed events
  have hsound' := sound_run hkeyed (events ++ [event])
  have hleft : ∀ l ∈ ((of app).run events).app.store.kpis, k.identity = l.identity →
      k.settings = l.settings → k.reaction = l.reaction → k.reactionIsCustom = l.reactionIsCustom →
      (∀ c s, ((of app).run events).Writes event c s → ¬ c.SetsReaction k.id) →
        HasOrigin app (events ++ [event]) k := by
    intro l hl hidentity hsettings hreaction hflag huntouched
    obtain ⟨context, reaction, hload, hset, horigin⟩ := h l hl (hflag.symm.trans hcustom)
    obtain ⟨kpi, hload'⟩ := (hsound'.evolves events [event] rfl).alike.exists_loadContext hload
    have hexperiment : k.experiment = l.experiment := congrArg KpiIdentity.experiment hidentity
    rw [← hexperiment] at hload'
    exact ⟨_, reaction, hload', hreaction.trans hset,
      horigin.concat kpi hidentity hsettings huntouched⟩
  have hrow := hk
  rw [run_concat] at hrow
  rcases row_cases hrow with ⟨hbefore, hnone⟩ | ⟨c, s, hw, hbrings⟩
  · exact hleft k hbefore rfl rfl rfl rfl fun c s hw => absurd hw (hnone c s)
  · obtain ⟨i, read, later, r, experiment, rfl, hevents, hdecides, -, -⟩ := hsound.exists_decides hw
    obtain ⟨user, heffect⟩ := hdecides.effect
    obtain ⟨now, htask⟩ := hdecides.task
    have hsplit : events ++ [Event.advance i] = read ++ (later ++ [Event.advance i]) := by
      rw [hevents, List.append_assoc]
    have hevolves := hsound'.evolves read _ hsplit
    have harrived : Event.arrive now r ∈ events ++ [Event.advance i] := by
      rw [hsplit]
      exact List.mem_append_left _ (arrive_mem htask)
    -- The row that was found is that of the same KPI.
    have hown : ∀ l ∈ ((of app).run read).app.store.kpis, l.id = k.id → l.experiment = experiment →
        k.experiment = experiment := fun l hl hid hexperiment =>
      (congrArg KpiIdentity.experiment
        (hevolves.rows.identity_eq hsound'.keyed hl hk hid.symm)).trans hexperiment
    cases hbrings with
    | left mem identity settings reaction custom untouched =>
      exact hleft _ mem identity settings reaction custom fun c' s' hw' => hw.unique hw' ▸ untouched
    | customized _ _ _ custom => cases hcustom.symm.trans custom
    | created _ reaction =>
      obtain ⟨rfl, hcomposes⟩ := heffect.of_create
      obtain ⟨context, hload, horigin⟩ :=
        exists_origin_of_composes hcomposes hevolves.alike harrived
      exact ⟨context, _, hload, reaction, horigin⟩
    | replaced reaction =>
      obtain ⟨⟨l, hl, hid, hexperiment⟩, hcomposes⟩ := heffect.of_replace
      obtain rfl := hown l hl hid hexperiment
      obtain ⟨context, hload, horigin⟩ :=
        exists_origin_of_composes hcomposes hevolves.alike harrived
      exact ⟨context, _, hload, reaction, horigin⟩
    | regenerated mem identity settings set =>
      obtain ⟨rfl, l, hl, hid, hexperiment, -⟩ := heffect.of_regenerate
      obtain rfl := hown l hl hid hexperiment
      obtain ⟨context, hload, horigin⟩ := exists_origin_of_regenerate hkeyed hevents hdecides hw mem
        (congrArg KpiIdentity.id identity).symm settings hevolves.alike
      exact ⟨context, _, hload, set, horigin⟩

/-- **The reaction query of a KPI that is not a custom one is compiled from the settings that are stored
beside it**, however the steps of requests are interleaved, unless these spell a float that is not read
back, or the regeneration that wrote the query last was overtaken by an update. The table of KPIs is
empty at the start. -/
theorem run_origin (app : App) (events : List Event) (hempty : app.store.kpis = []) :
    ∀ k ∈ ((of app).run events).app.store.kpis, k.reactionIsCustom = false →
      ∃ context reaction,
        (loadContext k.experiment).run ((of app).run events).app.store = .ok context ∧
          k.reaction = some reaction ∧ Origin app events context k reaction := by
  have hkeyed : app.store.Keyed := (App.isConsistent_of_empty hempty).keyed
  induction events using List.reverseRecOn with
  | nil =>
    intro k hk
    rw [show ((of app).run []).app.store.kpis = [] from hempty] at hk
    cases hk
  | append_singleton events event ih => exact fun k hk => hasOrigin_concat hkeyed ih hk

end System

/-! ### An update that overtakes a regeneration -/

namespace App

/-- An application like `sample`, where a reaction query is the name of its definition. -/
def naming : App :=
  start
    { sample.store with
      organizationSettings := [⟨1, ⟨1, "REGULAR", "\x7b\x7b params.kpi_name \x7d\x7d", "SELECT 2",
        "SELECT 3", "SELECT 4"⟩⟩] }
    {} ⟨"secret", 3600⟩

/-- What is loaded of its experiment. -/
def namingContext : ExperimentContext where
  experiment :=
    ⟨1, 1, "banner", "pc", ⟨2024, 1, 1, 0, 0, 0⟩, ⟨2024, 2, 1, 0, 0, 0⟩, none, false⟩
  project := ⟨1, some 1, "shop", false⟩
  organization :=
    ⟨1, "REGULAR", "\x7b\x7b params.kpi_name \x7d\x7d", "SELECT 2", "SELECT 3", "SELECT 4"⟩
  design := .ofRows [] []
  models := []

/-- The row of a KPI with settings for one name and the reaction query of another one. -/
def namedRow (settings reaction : String) : KpiRow :=
  .created 1 1 1 "shop_1_kpi" 1 (namedSettings settings).compact ⟨reaction, "SELECT 4"⟩

/-- The store with this row. -/
def namedStore (settings reaction : String) : Store :=
  { naming.store with kpis := [namedRow settings reaction] }.linkKpi 1 1

/-- A request of the administrator. -/
def namingRequest (method : Method) (path : String) (body : List UInt8) : Request :=
  ⟨method, path, some ("Bearer " ++ naming.key.issue 0 1 "ada"), body⟩

/-- The request that gives the experiment its KPI. -/
def namingCreation : Request :=
  namingRequest .post "/api/v2/experiments/1/kpis" (Text.utf8 (namedSettings "orders").compact)

/-- The request that gives the KPI another name. -/
def namingUpdate : Request :=
  namingRequest .put "/api/v2/experiments/1/kpis" (Text.utf8 (namedSettings "visits").compact)

/-- The request that compiles the reaction query anew. -/
def namingRegeneration : Request :=
  namingRequest .post "/api/v2/experiments/1/reaction_query" []

/-- The KPI is created; the regeneration reads all that it reads; the update is made; the regeneration
writes. -/
def overtaking : List Event :=
  (.arrive 0 namingCreation :: List.replicate 9 (.advance 0)) ++
    (.arrive 0 namingRegeneration :: List.replicate 8 (.advance 1)) ++
    (.arrive 0 namingUpdate :: List.replicate 9 (.advance 2)) ++ [.advance 1]

section

variable {name : String}

theorem readJsonBody_named (name : String) :
    readJsonBody (Text.utf8 (namedSettings name).compact) = .ok (namedSettings name) := by
  have hnest : (namedSettings name).nesting = 3 := rfl
  refine readJsonBody_compact (Json.parse?_compact ?_ (hnest.trans_le (by decide)) fun n hn => ?_)
  · simp [Json.WellFormed, Json.MembersWellFormed, Json.ItemsWellFormed]
  · simp [Json.numbers, Json.membersNumbers, Json.itemsNumbers] at hn

theorem length_named (hname : name = "orders" ∨ name = "visits") :
    (Text.utf8 (namedSettings name).compact).length ≤ maxBodySize := by
  have hlength : (namedSettings name).print.length ≤ 200 := by
    rcases hname with rfl | rfl <;> decide +kernel
  exact (Text.length_utf8_le _).trans ((Nat.mul_le_mul_left 4 hlength).trans (by decide))

theorem validate_named (hname : name = "orders" ∨ name = "visits") :
    Settings.validate (namedSettings name) = .ok (namedReading name) := by
  rcases hname with rfl | rfl <;>
    exact ExperimentKpi.validate_named (by decide) (by decide) (by decide) (by decide)

theorem canonical_named (name : String) (kpi : Option Int) :
    canonical (namingContext.withLink kpi) (namedSettings name) =
      .ok ((namedSettings name).compact, namedReading name) :=
  canonical_ok_iff.mpr ⟨_, _, rfl, rfl, rfl⟩

theorem compileQueries_named (hname : name = "orders" ∨ name = "visits") (kpi : Option Int) :
    compileQueries (namingContext.withLink kpi) (namedReading name) naming.warehouse =
      .ok ⟨name, "SELECT 4"⟩ := by
  rw [compileQueries_withLink]
  rcases hname with rfl | rfl <;> decide +kernel

theorem revalidate_named (hname : name = "orders" ∨ name = "visits") :
    Settings.revalidate (namedSettings name).compact = .ok (namedReading name) := by
  have hnest : (namedSettings name).nesting = 3 := rfl
  have hnum : ∀ n ∈ (namedSettings name).numbers, n.ReadsBack := by
    intro n hn
    simp [namedSettings, Json.numbers, Json.membersNumbers, Json.itemsNumbers] at hn
  exact revalidate_canonical (validate_named hname) (hnest.trans_le (by decide)) hnum
    (canonical_named name none)

end

theorem loadContext_naming : (loadContext 1).run naming.store = .ok namingContext :=
  loadContext_run_iff.mpr ⟨rfl, rfl, ⟨1, rfl, rfl⟩, rfl, (modelsOf_of_models_eq_nil rfl 1).symm⟩

theorem exists_loadContext_named (settings reaction : String) :
    ∃ kpi, (loadContext 1).run (namedStore settings reaction) = .ok (namingContext.withLink kpi) := by
  have halike : naming.store.Alike (namedStore settings reaction) := ⟨rfl, rfl⟩
  exact halike.exists_loadContext loadContext_naming

theorem authenticate_naming :
    naming.authenticate 0 (some ("Bearer " ++ naming.key.issue 0 1 "ada")) = .ok ⟨1, "ada", true⟩ := by
  have htoken : tokenUser naming.key 0 (some ("Bearer " ++ naming.key.issue 0 1 "ada")) = .ok 1 :=
    tokenUser_issue (by decide) (by decide) (by decide) (by decide)
  simp only [authenticate, htoken]
  rfl

theorem operationOf_namingCreation : naming.operationOf 0 namingCreation =
    .ok (createKpi naming.environment ⟨1, "ada", true⟩ 1 (namedSettings "orders")) := by
  have hsegment : readSegment ['1'] = .ok "1" := rfl
  have hid : readId "1" = .ok 1 := rfl
  have hbody : namingCreation.body = Text.utf8 (namedSettings "orders").compact := by
    rw [namingCreation, namingRequest]
  have hlength : namingCreation.body.length ≤ maxBodySize := by
    rw [hbody]
    exact length_named (.inl rfl)
  have hdocument : readJsonBody namingCreation.body = .ok (namedSettings "orders") := by
    rw [hbody]
    exact readJsonBody_named "orders"
  have hasks : naming.Asks 0 namingCreation ⟨1, "ada", true⟩
      (createKpi naming.environment ⟨1, "ada", true⟩ 1 (namedSettings "orders")) :=
    ⟨by decide, authenticate_naming, .experimentKpi ['1'], .create ['1'], rfl, rfl,
      Endpoint.operation_create hsegment hlength hid hdocument⟩
  exact hasks.operationOf_eq

/-- The other requests come to the same operations whatever row there is. -/
theorem evolvesTo_named (settings reaction : String) :
    naming.EvolvesTo { naming with store := namedStore settings reaction } :=
  ⟨rfl, ⟨rfl, rfl⟩, List.nil_prefix⟩

theorem operationOf_namingUpdate (settings reaction : String) :
    App.operationOf { naming with store := namedStore settings reaction } 0 namingUpdate =
      .ok (updateKpi naming.environment ⟨1, "ada", true⟩ 1 (namedSettings "visits")) := by
  have hsegment : readSegment ['1'] = .ok "1" := rfl
  have hid : readId "1" = .ok 1 := rfl
  have hbody : namingUpdate.body = Text.utf8 (namedSettings "visits").compact := by
    rw [namingUpdate, namingRequest]
  have hlength : namingUpdate.body.length ≤ maxBodySize := by
    rw [hbody]
    exact length_named (.inr rfl)
  have hdocument : readJsonBody namingUpdate.body = .ok (namedSettings "visits") := by
    rw [hbody]
    exact readJsonBody_named "visits"
  have hasks : naming.Asks 0 namingUpdate ⟨1, "ada", true⟩
      (updateKpi naming.environment ⟨1, "ada", true⟩ 1 (namedSettings "visits")) :=
    ⟨by decide, authenticate_naming, .experimentKpi ['1'], .update ['1'], rfl, rfl,
      Endpoint.operation_update hsegment hlength hid hdocument⟩
  rw [(evolvesTo_named settings reaction).operationOf]
  exact hasks.operationOf_eq

theorem operationOf_namingRegeneration (settings reaction : String) :
    App.operationOf { naming with store := namedStore settings reaction } 0 namingRegeneration =
      .ok (regenerateReaction naming.environment 1) := by
  have hasks : naming.Asks 0 namingRegeneration ⟨1, "ada", true⟩
      (regenerateReaction naming.environment 1) :=
    ⟨by decide, authenticate_naming, .reactionQuery ['1'], .regenerate ['1'], rfl, rfl, rfl⟩
  rw [(evolvesTo_named settings reaction).operationOf]
  exact hasks.operationOf_eq

theorem run_namingCreation :
    Inquiry.run naming.store
        (createKpi naming.environment ⟨1, "ada", true⟩ 1 (namedSettings "orders")) =
      .ok (.write (.create 1 1 "shop_1_kpi" 1 (namedSettings "orders").compact
        ⟨"orders", "SELECT 4"⟩)) :=
  createKpi_run loadContext_naming (validate_named (.inl rfl)) rfl (canonical_named "orders" none)
    (compileQueries_named (.inl rfl) none)

theorem run_namingUpdate (settings reaction : String) :
    Inquiry.run (namedStore settings reaction)
        (updateKpi naming.environment ⟨1, "ada", true⟩ 1 (namedSettings "visits")) =
      .ok (.write (.replace 1 1 1 (namedSettings "visits").compact ⟨"visits", "SELECT 4"⟩)) := by
  obtain ⟨kpi, hload⟩ := exists_loadContext_named settings reaction
  have hrow : (namedStore settings reaction).kpiOf 1 = .ok (some (namedRow settings reaction)) := rfl
  have hgranted : naming.environment.grants.require ⟨1, "ada", true⟩
      (namingContext.withLink kpi).project.organization kpiResource "edit" = .ok () := rfl
  exact updateKpi_run hload hgranted (validate_named (.inr rfl)) hrow (canonical_named "visits" kpi)
    (compileQueries_named (.inr rfl) kpi)

theorem run_namingRegeneration (reaction : String) :
    Inquiry.run (namedStore "orders" reaction) (regenerateReaction naming.environment 1) =
      .ok (.write (.regenerate 1 1 "orders")) := by
  obtain ⟨kpi, hload⟩ := exists_loadContext_named "orders" reaction
  have hrow : (namedStore "orders" reaction).liveKpiOf 1 = .ok (namedRow "orders" reaction) := rfl
  have hcompiled : compileReaction (namingContext.withLink kpi) (namedReading "orders")
      naming.environment.warehouse = .ok "orders" :=
    (compileQueries_ok (compileQueries_named (.inl rfl) kpi)).1
  have hsettings : Settings.revalidate (namedRow "orders" reaction).settings =
      .ok (namedReading "orders") := revalidate_named (.inl rfl)
  rw [regenerateReaction_run hload, bind_of_ok hrow, bind_of_ok hsettings, hcompiled]
  rfl

end App

namespace System

/-- The task of the creation, once the KPI is created. -/
def namingCreated : Task :=
  ⟨0, App.namingCreation, .answered ⟨201, .document (.obj [("kpiId", .int 1)])⟩⟩

/-- The task of the regeneration, once it has come to its command. -/
def namingDecided : Task :=
  ⟨0, App.namingRegeneration, .operating (.finished (.ok (.write (.regenerate 1 1 "orders"))))⟩

/-- The task of a request that changed the KPI. -/
def namingChanged (r : Request) : Task :=
  ⟨0, r, .answered ⟨200, .document (.obj [("experimentId", .int 1), ("kpiId", .int 1)])⟩⟩

theorem run_arrive (sys : System) (now : Int) (r : Request) (events : List Event) :
    sys.run (.arrive now r :: events) = run ⟨sys.app, sys.tasks ++ [⟨now, r, .received⟩]⟩ events := rfl

/-- All three requests succeed, and the KPI has the settings of one and the query of another. -/
theorem run_overtaking : (of App.naming).run App.overtaking =
    ⟨{ App.naming with store := App.namedStore "visits" "orders" },
      [namingCreated, namingChanged App.namingRegeneration, namingChanged App.namingUpdate]⟩ := by
  have hcreated : (of App.naming).run (.arrive 0 App.namingCreation :: List.replicate 9 (.advance 0)) =
      ⟨{ App.naming with store := App.namedStore "orders" "orders" }, [namingCreated]⟩ := by
    rw [run_arrive]
    exact run_through_command rfl App.operationOf_namingCreation rfl
      (createKpi_reads App.run_namingCreation) App.run_namingCreation rfl
  have hread : run ⟨{ App.naming with store := App.namedStore "orders" "orders" }, [namingCreated]⟩
        (.arrive 0 App.namingRegeneration :: List.replicate 8 (.advance 1)) =
      ⟨{ App.naming with store := App.namedStore "orders" "orders" },
        [namingCreated, namingDecided]⟩ := by
    rw [run_arrive]
    exact run_to_command rfl (App.operationOf_namingRegeneration "orders" "orders") rfl
      (regenerateReaction_reads (App.run_namingRegeneration "orders"))
      (App.run_namingRegeneration "orders")
  have hupdated : run ⟨{ App.naming with store := App.namedStore "orders" "orders" },
        [namingCreated, namingDecided]⟩ (.arrive 0 App.namingUpdate :: List.replicate 9 (.advance 2)) =
      ⟨{ App.naming with store := App.namedStore "visits" "visits" },
        [namingCreated, namingDecided, namingChanged App.namingUpdate]⟩ := by
    rw [run_arrive]
    exact run_through_command rfl (App.operationOf_namingUpdate "orders" "orders") rfl
      (updateKpi_reads (App.run_namingUpdate "orders" "orders"))
      (App.run_namingUpdate "orders" "orders") rfl
  have hwritten : run ⟨{ App.naming with store := App.namedStore "visits" "visits" },
        [namingCreated, namingDecided, namingChanged App.namingUpdate]⟩ [.advance 1] =
      ⟨{ App.naming with store := App.namedStore "visits" "orders" },
        [namingCreated, namingChanged App.namingRegeneration, namingChanged App.namingUpdate]⟩ := by
    have hstep : step ⟨{ App.naming with store := App.namedStore "visits" "visits" },
          [namingCreated, namingDecided, namingChanged App.namingUpdate]⟩ (.advance 1) =
        ⟨{ App.naming with store := App.namedStore "visits" "orders" },
          [namingCreated, namingDecided, namingChanged App.namingUpdate].set 1
            ⟨0, App.namingRegeneration, .answered (App.namingRegeneration.delivered
              ((Command.regenerate 1 1 "orders").answer 1).response)⟩⟩ := step_of_apply_ok rfl rfl rfl
    exact hstep
  unfold App.overtaking
  rw [run_append, run_append, run_append, hcreated, hread, hupdated, hwritten]

theorem run_origin_overtaking : App.naming.store.kpis = [] ∧
    ∃ k ∈ ((of App.naming).run App.overtaking).app.store.kpis, k.reactionIsCustom = false ∧
      k.reaction = some "orders" ∧ ∃ context,
        (loadContext k.experiment).run ((of App.naming).run App.overtaking).app.store = .ok context ∧
          Origin App.naming App.overtaking context k "orders" := by
  have hrow : App.namedRow "visits" "orders" ∈
      ((of App.naming).run App.overtaking).app.store.kpis := by
    rw [run_overtaking]
    exact List.mem_singleton_self _
  obtain ⟨context, reaction, hload, hreaction, horigin⟩ :=
    run_origin App.naming App.overtaking rfl _ hrow rfl
  cases hreaction
  exact ⟨rfl, _, hrow, rfl, rfl, context, hload, horigin⟩

/-- While no request is in progress, a reaction query that is not a custom one is what the settings of its
row compile to. -/
def KeepsReactions (app : App) (events : List Event) : Prop :=
  (∀ t ∈ ((of app).run events).tasks, ∃ response, t.progress = .answered response) →
    ∀ k ∈ ((of app).run events).app.store.kpis, k.reactionIsCustom = false →
      ∃ context settings query,
        (loadContext k.experiment).run ((of app).run events).app.store = .ok context ∧
          Settings.revalidate k.settings = .ok settings ∧
            compileReaction context settings app.warehouse = .ok query ∧ k.reaction = some query

theorem not_keepsReactions_overtaking : ¬ KeepsReactions App.naming App.overtaking := by
  intro h
  unfold KeepsReactions at h
  rw [run_overtaking] at h
  have hanswered : ∀ t ∈ [namingCreated, namingChanged App.namingRegeneration,
      namingChanged App.namingUpdate], ∃ response, t.progress = .answered response := by
    intro t ht
    simp only [List.mem_cons, List.not_mem_nil, or_false] at ht
    rcases ht with rfl | rfl | rfl <;> exact ⟨_, rfl⟩
  obtain ⟨context, settings, query, hload, haccepted, hcompiled, hreaction⟩ :=
    h hanswered (App.namedRow "visits" "orders") (List.mem_singleton_self _) rfl
  obtain ⟨kpi, hload'⟩ := App.exists_loadContext_named "visits" "orders"
  obtain rfl := Except.ok.inj (hload'.symm.trans hload)
  obtain rfl := Except.ok.inj ((App.revalidate_named (.inr rfl)).symm.trans haccepted)
  have hvisits : compileReaction (App.namingContext.withLink kpi) (namedReading "visits")
      App.naming.warehouse = .ok "visits" :=
    (compileQueries_ok (App.compileQueries_named (.inr rfl) kpi)).1
  cases hvisits.symm.trans hcompiled
  have hne : (some "orders" : Option String) ≠ some "visits" := by decide
  exact hne hreaction

/-! ### A float that drifts in one request alone -/

/-- The request that gives the experiment its KPI takes its steps one after another. -/
def driftingAlone : List Event :=
  .arrive 0 App.driftingCreation :: List.replicate 9 (.advance 0)

/-- The store with a KPI that has a text of settings. -/
def driftedStore (text : String) (queries : Queries) : Store :=
  { App.drifting.store with kpis := [.created 1 1 1 "shop_1_kpi" 1 text queries] }.linkKpi 1 1

/-- The settings of the text that is stored compile to nothing. -/
theorem exists_run_driftingAlone : ∃ text queries,
    (of App.drifting).run driftingAlone = ⟨{ App.drifting with store := driftedStore text queries },
      [⟨0, App.driftingCreation, .answered ⟨201, .document (.obj [("kpiId", .int 1)])⟩⟩]⟩ ∧
    Settings.revalidate text = .ok (App.driftingReading App.reloadedFloat App.reloadedFloat) := by
  obtain ⟨text, haccepts⟩ := App.accepts_driftingSettings
  have hfor : (KpiRow.created 1 1 1 "shop_1_kpi" 1 text ⟨"", ""⟩).IsStoredFor App.driftingContext
      App.drifting.warehouse (App.driftingSettings App.storedFloat App.reloadedFloat) :=
    ⟨rfl, rfl, rfl, haccepts⟩
  obtain ⟨read, queries, hcanonical, hcompiled, hagain⟩ :=
    hfor.revalidate (isReceivable_of_readJsonBody App.readJsonBody_driftingCreation)
  obtain ⟨accepted, -, -, hvalid, -⟩ := haccepts
  have hread : read = App.driftingReading App.storedFloat App.reloadedFloat := by
    have hsame := App.canonical_driftingSettings.symm.trans hcanonical
    exact (Prod.mk.inj (Except.ok.inj hsame)).2.symm
  have hrun : Inquiry.run App.drifting.store (createKpi App.drifting.environment ⟨1, "ada", true⟩ 1
      (App.driftingSettings App.storedFloat App.reloadedFloat)) =
        .ok (.write (.create 1 1 "shop_1_kpi" 1 text queries)) :=
    createKpi_run App.loadContext_drifting hvalid rfl hcanonical hcompiled
  refine ⟨text, queries, ?_, ?_⟩
  · unfold driftingAlone
    rw [run_arrive]
    exact run_through_command rfl App.asks_driftingCreation.operationOf_eq rfl
      (createKpi_reads hrun) hrun rfl
  · rw [hread, App.mapNumbers_driftingReading] at hagain
    exact hagain

theorem not_keepsReactions_drifting : ¬ KeepsReactions App.drifting driftingAlone := by
  intro h
  unfold KeepsReactions at h
  obtain ⟨text, queries, hlast, hagain⟩ := exists_run_driftingAlone
  rw [hlast] at h
  have hanswered : ∀ t ∈ [(⟨0, App.driftingCreation,
      .answered ⟨201, .document (.obj [("kpiId", .int 1)])⟩⟩ : Task)],
        ∃ response, t.progress = .answered response := by
    intro t ht
    rw [List.mem_singleton] at ht
    rw [ht]
    exact ⟨_, rfl⟩
  obtain ⟨context, settings, query, hload, haccepted, hcompiled, -⟩ :=
    h hanswered _ (List.mem_singleton_self _) rfl
  have halike : App.drifting.store.Alike (driftedStore text queries) := ⟨rfl, rfl⟩
  obtain ⟨kpi, hload'⟩ := halike.exists_loadContext App.loadContext_drifting
  obtain rfl := Except.ok.inj (hload'.symm.trans hload)
  obtain rfl := Except.ok.inj (hagain.symm.trans haccepted)
  rw [compileReaction_withLink] at hcompiled
  exact App.compileReaction_driftingReading query hcompiled

/-- **Reaction queries may be others than those of the settings beside them**: a regeneration may be
overtaken, and a float may be stored as the text of its neighbour. -/
theorem not_keepsReactions : App.naming.store.kpis = [] ∧
    ¬ KeepsReactions App.naming App.overtaking ∧ App.drifting.store.kpis = [] ∧
      ¬ KeepsReactions App.drifting driftingAlone :=
  ⟨rfl, not_keepsReactions_overtaking, rfl, not_keepsReactions_drifting⟩

end System

end ExperimentKpi

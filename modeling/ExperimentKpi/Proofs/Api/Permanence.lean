/-
# Rows of KPIs are for ever

From an empty table of KPIs no run of requests removes a row: a row stays in its place, and its id, its
experiment, its project, its name and its creator stay what they were when it was put in, so no id is
given twice. Every experiment that has a KPI, be it live or deleted, is linked to it. A request keeps
all of this (`App.handle_keepsBooks`), since it has the effect of one command at most
(`App.handle_outcome`) and a command writes the row of one experiment (`Store.WritesRow`).

Key definitions: `App.KeepsBooks`.
Key theorems: `App.handle_keepsBooks`, `App.run_keepsRows`.
-/
import ExperimentKpi.Proofs.Api.Consistency

namespace ExperimentKpi

namespace App

theorem run_append (app : App) (earlier later : List (Int × Request)) :
    app.run (earlier ++ later) = (app.run earlier).run later :=
  List.foldl_append

/-- The table of KPIs keeps its keys, and experiments are linked to their KPIs. -/
structure KeepsBooks (app : App) : Prop where
  keyed : app.store.Keyed
  linked : app.store.IsLinked

theorem keepsBooks_of_empty {app : App} (h : app.store.kpis = []) : app.KeepsBooks := by
  refine ⟨(isConsistent_of_empty h).keyed, fun k hk => ?_⟩
  rw [h] at hk
  exact absurd hk List.not_mem_nil

/-- A request keeps rows, keys and links. -/
theorem handle_keepsBooks {app : App} (now : Int) (r : Request) (h : app.KeepsBooks) :
    app.store.KeepsRows (app.handle now r).1.store ∧ (app.handle now r).1.KeepsBooks := by
  have ho : Outcome app now r (app.handle now r).1 (app.handle now r).2 := handle_outcome
  generalize app.handle now r = result at ho ⊢
  obtain ⟨app', response⟩ := result
  cases ho with
  | kept => exact ⟨.refl _, h⟩
  | wrote _ _ _ _ effect applied =>
    have hwrites := effect.isFor.writesRow applied
    exact ⟨hwrites.keepsRows, effect.keyed h.keyed applied, hwrites.isLinked h.keyed h.linked⟩

/-- Requests keep rows, keys and links. -/
theorem run_keepsBooks {app : App} (requests : List (Int × Request)) (h : app.KeepsBooks) :
    app.store.KeepsRows (app.run requests).store ∧ (app.run requests).KeepsBooks := by
  induction requests generalizing app with
  | nil => exact ⟨.refl _, h⟩
  | cons p requests ih =>
    obtain ⟨now, r⟩ := p
    obtain ⟨hrows, hstep⟩ := handle_keepsBooks now r h
    obtain ⟨hlater, hbooks⟩ := ih hstep
    exact ⟨hrows.trans hlater, hbooks⟩

/-- **Rows of KPIs are for ever.** From an empty table of KPIs, whatever requests come: every row of an
earlier state is a row of a later one, and what is told by its id never changes; ids are given once;
and experiments that have a KPI, deleted or not, are linked to it. -/
theorem run_keepsRows (app : App) (earlier later : List (Int × Request))
    (hempty : app.store.kpis = []) :
    (app.run earlier).store.KeepsRows (app.run (earlier ++ later)).store ∧
      (∀ k ∈ (app.run earlier).store.kpis, ∀ k' ∈ (app.run (earlier ++ later)).store.kpis,
        k'.id = k.id → k'.identity = k.identity) ∧
      ((app.run (earlier ++ later)).store.kpis.map (·.id)).Nodup ∧
      (app.run (earlier ++ later)).store.IsLinked := by
  obtain ⟨-, hbooks⟩ := run_keepsBooks earlier (keepsBooks_of_empty hempty)
  obtain ⟨hrows, hlater⟩ := run_keepsBooks later hbooks
  rw [run_append]
  refine ⟨hrows, fun k hk k' hk' hid => ?_, hlater.keyed.ids, hlater.linked⟩
  obtain ⟨l, hl, hsame⟩ := hrows.exists_mem hk
  have hlk : l.id = k'.id := (congrArg KpiIdentity.id hsame).trans hid.symm
  have hrow : l = k' := List.inj_on_of_nodup_map hlater.keyed.ids hl hk' hlk
  rw [← hrow, hsame]

/-- The KPI that the sample's request creates stays, and its experiment is linked to it. -/
theorem run_keepsRows_sample :
    sample.store.kpis = [] ∧ (sample.run [(0, sampleRequest)]).store.kpis.map (·.id) = [1] ∧
      (sample.run [(0, sampleRequest)]).store.KeepsRows
        (sample.run ([(0, sampleRequest)] ++ [(5, sampleRequest)])).store ∧
      (sample.run ([(0, sampleRequest)] ++ [(5, sampleRequest)])).store.IsLinked := by
  have hkpis : (sample.run [(0, sampleRequest)]).store.kpis.map (·.id) = [1] := by
    rw [run_singleton, asks_sampleRequest.handle_eq rfl]
    exact kpis_sampleRequest
  obtain ⟨hrows, -, -, hlinked⟩ := run_keepsRows sample [(0, sampleRequest)] [(5, sampleRequest)] rfl
  exact ⟨rfl, hkpis, hrows, hlinked⟩

end App

end ExperimentKpi

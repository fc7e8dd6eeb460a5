/-
# Requests on different experiments commute

Two requests on different experiments get the same responses in either order and leave the same
application behind, whatever they ask for and whether they succeed or fail, unless both of them create
a KPI (`App.handle_comm`): the ids of new KPIs are given in the order of their creation. What a request
comes to at first does not depend on what other requests write (`App.EvolvesTo.operationOf`), and the
actions that they come to commute (`KpiAction.commute`).

Key definitions: `App.Commute`.
Key theorems: `App.exists_action_of_operationOf`, `App.handle_comm`.
-/
import ExperimentKpi.Proofs.Api.CreatesOnce
import ExperimentKpi.Proofs.Api.Frame
import ExperimentKpi.Proofs.Service.Commuting

namespace ExperimentKpi

namespace App

/-- Two requests get the same responses in either order, and the application that they leave is the
same. -/
structure Commute (app : App) (now : Int) (r : Request) (now' : Int) (r' : Request) : Prop where
  first : ((app.handle now' r').1.handle now r).2 = (app.handle now r).2
  second : ((app.handle now r).1.handle now' r').2 = (app.handle now' r').2
  final : ((app.handle now r).1.handle now' r').1 = ((app.handle now' r').1.handle now r).1

variable {app app' : App} {now now' : Int} {r r' : Request} {experiment other : Int}

theorem Commute.symm (h : app.Commute now r now' r') : app.Commute now' r' now r :=
  ⟨h.second, h.first, h.final.symm⟩

/-- A request changes nothing that the first step of another one depends on. -/
theorem handle_evolvesTo (hk : (app.store.kpis.map (·.id)).Nodup) (now : Int) (r : Request) :
    app.EvolvesTo (app.handle now r).1 := by
  have ho : Outcome app now r (app.handle now r).1 (app.handle now r).2 := handle_outcome
  generalize app.handle now r = result at ho ⊢
  obtain ⟨app', response⟩ := result
  cases ho with
  | kept => exact .refl _
  | wrote _ _ _ _ effect applied => exact .of_writesRow hk (effect.isFor.writesRow applied)

/-- A request to an experiment comes to an action on it, if it comes to an operation at all. Only a
request to create comes to a creation. -/
theorem exists_action_of_operationOf {op : Operation} (he : r.experiment? = some experiment)
    (h : app.operationOf now r = .ok op) :
    ∃ user action, op = KpiAction.operation app.environment user experiment action ∧
      ∀ document, action = .create document → r.CreatesFor experiment := by
  obtain ⟨user, route, endpoint, -, hroute, hendpoint, hop⟩ := exists_of_operationOf h
  have haddressed : endpoint.experiment? = some experiment := by
    simpa [Request.experiment?, hroute, hendpoint] using he
  rcases Endpoint.exists_action hop with
    ⟨project, page, rfl, hnone⟩ | ⟨experiment', action, haddressed', rfl, -, -, hcreate⟩
  · cases haddressed.symm.trans hnone
  · obtain rfl := Option.some.inj (haddressed.symm.trans haddressed')
    refine ⟨user, action, rfl, fun document hdocument => ?_⟩
    obtain ⟨segment, rfl⟩ := hcreate document hdocument
    exact ⟨route, segment, hroute, hendpoint, haddressed⟩

/-- A request that is answered at once commutes with every other one. -/
theorem commute_of_operationOf_error {response : Response}
    (hk : (app.store.kpis.map (·.id)).Nodup) (h : app.operationOf now r = .error response) :
    app.Commute now r now' r' := by
  have hafter : ∀ app', app.EvolvesTo app' →
      app'.handle now r = (app', r.delivered response) := by
    intro app' hevolves
    rw [handle_eq_operationOf, hevolves.operationOf, h]
  have hfirst := hafter app (.refl app)
  have hsecond := hafter _ (handle_evolvesTo hk now' r')
  exact ⟨by rw [hfirst, hsecond], by rw [hfirst], by rw [hfirst, hsecond]⟩

/-- A request that comes to an operation does what the operation does. -/
theorem handle_of_operationOf {op : Operation} (h : app.operationOf now r = .ok op) :
    app.handle now r =
      ({ app with store := (op.run app.store).1 },
        r.delivered (responseTo (op.run app.store).2)) := by
  obtain ⟨user, -, -, hauth, -⟩ := exists_of_operationOf h
  rw [handle_eq_operationOf, h]
  simp only [perform_of_isOpen (isOpen_of_authenticate hauth)]

/-- Requests whose operations commute do so. -/
theorem commute_of_operationOf {op op' : Operation} (hk : (app.store.kpis.map (·.id)).Nodup)
    (hop : app.operationOf now r = .ok op) (hop' : app.operationOf now' r' = .ok op')
    (h : Operation.Commute app.store op op') : app.Commute now r now' r' := by
  have hevolves := handle_evolvesTo hk now r
  have hevolves' := handle_evolvesTo hk now' r'
  have hlater := hevolves.operationOf now' r'
  have hlater' := hevolves'.operationOf now r
  have hfirst := handle_of_operationOf hop
  have hfirst' := handle_of_operationOf hop'
  rw [hop', hfirst] at hlater
  rw [hop, hfirst'] at hlater'
  have hsecond := handle_of_operationOf hlater
  have hsecond' := handle_of_operationOf hlater'
  refine ⟨?_, ?_, ?_⟩
  · rw [hfirst', hsecond', hfirst, h.first]
  · rw [hfirst, hsecond, hfirst', h.second]
  · rw [hfirst, hsecond, hfirst', hsecond', h.store]

/-- **Requests on different experiments commute unless both create.** The ids of KPIs are a key of their
table, and the times that rows get from the clock are not told apart. -/
theorem handle_comm (app : App) (now now' : Int) (r r' : Request) (experiment other : Int)
    (hk : (app.store.kpis.map (·.id)).Nodup) (he : r.experiment? = some experiment)
    (he' : r'.experiment? = some other) (hne : experiment ≠ other)
    (hcreate : ¬ (r.CreatesFor experiment ∧ r'.CreatesFor other)) : app.Commute now r now' r' := by
  cases hop : app.operationOf now r with
  | error response => exact commute_of_operationOf_error hk hop
  | ok op =>
    cases hop' : app.operationOf now' r' with
    | error response => exact (commute_of_operationOf_error hk hop').symm
    | ok op' =>
      obtain ⟨user, action, rfl, hfor⟩ := exists_action_of_operationOf he hop
      obtain ⟨user', action', rfl, hfor'⟩ := exists_action_of_operationOf he' hop'
      refine commute_of_operationOf hk hop hop' (KpiAction.commute hk hne ?_)
      by_cases hcreates : r.CreatesFor experiment
      · exact .inr fun document hdocument => hcreate ⟨hcreates, hfor' document hdocument⟩
      · exact .inl fun document hdocument => hcreates (hfor document hdocument)

/-! ### An administrator who deletes two KPIs -/

/-- The request that deletes the KPI of the second experiment. -/
def secondDeletion : Request :=
  ⟨.delete, "/api/v2/experiments/2/kpis", some ("Bearer " ++ withTwoKpis.key.issue 0 1 "ada"), []⟩

theorem handle_comm_deletions :
    (withTwoKpis.store.kpis.map (·.id)).Nodup ∧ deletion.experiment? = some 1 ∧
      secondDeletion.experiment? = some 2 ∧
      ¬ (deletion.CreatesFor 1 ∧ secondDeletion.CreatesFor 2) ∧
      withTwoKpis.Commute 0 deletion 0 secondDeletion := by
  have hk : (withTwoKpis.store.kpis.map (·.id)).Nodup := by decide
  have hcreate : ¬ (deletion.CreatesFor 1 ∧ secondDeletion.CreatesFor 2) := by
    rintro ⟨h, -⟩
    cases h.method_eq
  exact ⟨hk, rfl, rfl, hcreate,
    handle_comm withTwoKpis 0 0 deletion secondDeletion 1 2 hk rfl rfl (by decide) hcreate⟩

end App

end ExperimentKpi

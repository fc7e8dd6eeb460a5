/-
# What the steps of requests go back to

Whatever the order in which requests take their steps: from an application whose table of KPIs has its
keys, the keys stay, the application keeps everything but rows of KPIs and links, and what is left of
a task's operation goes back to the store that it read last (`System.Sound`, `System.sound_run`). A
task that has come to a command has therefore found out, on the store of its last read, what the
operation would have found out there at once (`System.ReadsLast.decides`), and the command is about a
row that the experiment still has when it is applied (`System.Sound.exists_decides`). A response was
given in one step, the last one of its task (`System.Answered.exists_ends`), and a task without success
has changed nothing in any step (`System.app_step_of_not_isSuccess`).

Key definitions: `System.Writes`, `System.ReadsLast`, `System.Sound`, `System.Decides`, `Task.Ends`,
`System.Answered`.
Key theorems: `System.step_cases`, `System.ReadsLast.decides`, `System.Sound.exists_decides`,
`System.sound_run`, `Task.ends_of_advance`, `System.Answered.exists_ends`.
-/
import ExperimentKpi.Proofs.Api.Interleaving
import ExperimentKpi.Proofs.Service.Lifecycle
import Mathlib.Data.List.Induction

namespace ExperimentKpi

namespace System

/-- An event is the last step of a task that applies a command. -/
inductive Writes (sys : System) : Event → Command → Store → Prop where
  | last {i : Nat} {now : Int} {r : Request} {c : Command} {s : Store} {kpi : Int}
      (task : sys.tasks[i]? = some ⟨now, r, .operating (.finished (.ok (.write c)))⟩)
      (isOpen : sys.app.isOpen = true) (applied : c.apply sys.app.store = .ok (s, kpi)) :
      Writes sys (.advance i) c s

/-- What is left of a task's operation goes back to a store that was read last: after `read`, the task
came to where it stands. -/
structure ReadsLast (app : App) (read : List Event) (i : Nat) (now : Int) (r : Request)
    (rest : Operation) : Prop where
  task : ((of app).run read).tasks[i]? = some ⟨now, r, .operating rest⟩
  leads : ∃ op, app.operationOf now r = .ok op ∧ op.Leads ((of app).run read).app.store rest

/-- What the steps of requests preserve. -/
structure Sound (app : App) (events : List Event) : Prop where
  keyed : ((of app).run events).app.store.Keyed
  evolves : ∀ read later, events = read ++ later →
    ((of app).run read).app.EvolvesTo ((of app).run events).app
  operates : ∀ i now r rest, ((of app).run events).tasks[i]? = some ⟨now, r, .operating rest⟩ →
    ∃ read later, events = read ++ later ∧ ReadsLast app read i now r rest

section

variable {sys : System} {app : App} {events : List Event} {event : Event} {i : Nat}

theorem run_concat (sys : System) (events : List Event) (event : Event) :
    sys.run (events ++ [event]) = (sys.run events).step event :=
  run_append sys events [event]

/-- **A step leaves the application or applies a command.** -/
theorem step_cases (sys : System) (event : Event) :
    (sys.step event).app = sys.app ∨
      ∃ c s, sys.Writes event c s ∧ (sys.step event).app = { sys.app with store := s } := by
  cases event with
  | arrive now r => exact .inl rfl
  | advance i =>
    cases ht : sys.tasks[i]? with
    | none => exact .inl (by simp only [step, ht])
    | some t =>
      obtain ⟨now, r, progress⟩ := t
      rw [step_advance ht]
      cases progress with
      | answered => exact .inl rfl
      | received =>
        left
        simp only [Task.advance]
        split <;> rfl
      | operating rest =>
        cases rest with
        | read next =>
          left
          simp only [Task.advance]
          split <;> rfl
        | finished result =>
          rcases App.perform_cases sys.app (.finished result) with
            hkept | ⟨c, s, kpi, hopen, hrun, happly, hperform⟩
          · exact .inl (by simp only [Task.advance, hkept])
          · obtain rfl : result = .ok (.write c) := hrun
            exact .inr ⟨c, s, .last ht hopen happly, by simp only [Task.advance, hperform]⟩

/-- A task after an event is as it was before, new, or took the step. -/
theorem task_cases {t : Task} (h : (sys.step event).tasks[i]? = some t) :
    sys.tasks[i]? = some t ∨ (∃ now r, event = .arrive now r ∧ t = ⟨now, r, .received⟩) ∨
      ∃ t', event = .advance i ∧ sys.tasks[i]? = some t' ∧
        t = { t' with progress := (t'.advance sys.app).2 } ∧
        (sys.step event).app = (t'.advance sys.app).1 := by
  cases event with
  | arrive now r =>
    have hmem : (sys.tasks ++ [⟨now, r, .received⟩])[i]? = some t := h
    rw [List.getElem?_append] at hmem
    split at hmem
    · exact .inl hmem
    · have hnew := List.mem_of_getElem? hmem
      exact .inr (.inl ⟨now, r, rfl, List.mem_singleton.mp hnew⟩)
  | advance j =>
    cases ht : sys.tasks[j]? with
    | none =>
      simp only [step, ht] at h
      exact .inl h
    | some t' =>
      rw [step_advance ht] at h ⊢
      dsimp only at h
      by_cases hij : j = i
      · subst hij
        have hj : j < sys.tasks.length := (List.getElem?_eq_some_iff.mp ht).1
        rw [List.getElem?_set_self hj, Option.some.injEq] at h
        exact .inr (.inr ⟨t', rfl, ht, h.symm, rfl⟩)
      · rw [List.getElem?_set_ne hij] at h
        exact .inl h

/-- A task that is to go on with an operation stood so before, or it has just started, or it has just
read. -/
theorem operating_cases {now : Int} {r : Request} {rest : Operation}
    (h : (sys.step event).tasks[i]? = some ⟨now, r, .operating rest⟩) :
    sys.tasks[i]? = some ⟨now, r, .operating rest⟩ ∨
      (sys.step event).app = sys.app ∧
        (sys.app.operationOf now r = .ok rest ∨
          ∃ next, sys.tasks[i]? = some ⟨now, r, .operating (.read next)⟩ ∧
            rest = next sys.app.store) := by
  rcases task_cases h with hsame | ⟨_, _, -, hnew⟩ | ⟨t, -, ht, hstep, happ⟩
  · exact .inl hsame
  · cases hnew
  · obtain ⟨now', r', progress⟩ := t
    rw [happ]
    obtain ⟨rfl, rfl, hprogress⟩ := Task.mk.inj hstep
    cases progress with
    | answered => cases hprogress
    | received =>
      simp only [Task.advance] at hprogress ⊢
      cases hop : sys.app.operationOf now r with
      | error response => simp [hop] at hprogress
      | ok op =>
        simp only [hop, Progress.operating.injEq] at hprogress
        rw [hprogress]
        exact .inr ⟨rfl, .inl rfl⟩
    | operating rest' =>
      cases rest' with
      | finished result => simp [Task.advance] at hprogress
      | read next =>
        simp only [Task.advance] at hprogress ⊢
        cases hdatabase : sys.app.database with
        | error e => simp [hdatabase] at hprogress
        | ok s =>
          obtain rfl : sys.app.store = s := by
            unfold App.database at hdatabase
            split at hdatabase
            · exact Except.ok.inj hdatabase
            · cases hdatabase
          simp only [hdatabase, Progress.operating.injEq] at hprogress
          exact .inr ⟨rfl, .inr ⟨next, ht, hprogress⟩⟩

theorem ReadsLast.run_eq {read : List Event} {now : Int} {r : Request}
    {result : Except Failure Decision} {user : User} {experiment : Int} {action : KpiAction}
    (h : ReadsLast app read i now r (.finished result))
    (hop : app.operationOf now r = .ok (action.operation app.environment user experiment)) :
    Inquiry.run ((of app).run read).app.store (action.operation app.environment user experiment) =
      result := by
  obtain ⟨op, hop', hleads⟩ := h.leads
  obtain rfl := Except.ok.inj (hop.symm.trans hop')
  exact hleads.run_eq (action.steady_operation app.environment user experiment)

/-- A task has come to a command of an action on an experiment: to what the action comes to at once on
the store after `read`, when the task read last. -/
structure Decides (app : App) (read : List Event) (i : Nat) (c : Command) (r : Request)
    (experiment : Int) : Prop where
  task : ∃ now, ((of app).run read).tasks[i]? =
    some ⟨now, r, .operating (.finished (.ok (.write c)))⟩
  addressed : r.experiment? = some experiment
  effect : ∃ user, Effect app.environment ((of app).run read).app.store user experiment
    (readJsonBody r.body) c

theorem ReadsLast.decides {read : List Event} {now : Int} {r : Request} {c : Command}
    (h : ReadsLast app read i now r (.finished (.ok (.write c)))) :
    ∃ experiment, Decides app read i c r experiment := by
  obtain ⟨op, hop, hleads⟩ := h.leads
  obtain ⟨user, route, endpoint, -, hroute, hendpoint, hendpointOp⟩ := App.exists_of_operationOf hop
  rcases Endpoint.exists_action hendpointOp with
    ⟨project, page, rfl, -⟩ | ⟨experiment, action, haddressed, rfl, hbody, -⟩
  · cases (listKpis_onlyShows project page).of_leads hleads with
    | finished shows => exact absurd rfl (shows c)
  · have hexperiment : r.experiment? = some experiment := by
      simp [Request.experiment?, hroute, hendpoint, haddressed]
    exact ⟨experiment, ⟨now, h.task⟩, hexperiment, user, .of_action hbody (h.run_eq hop)⟩

/-- **A command that is applied is one that its task came to**, on the store of its last read, and it
writes the row of an experiment. -/
theorem Sound.exists_decides (h : Sound app events) {c : Command} {s : Store}
    (hw : ((of app).run events).Writes event c s) :
    ∃ i read later r experiment, event = .advance i ∧ events = read ++ later ∧
      Decides app read i c r experiment ∧ c.IsFor ((of app).run events).app.store experiment ∧
        ((of app).run events).app.store.WritesRow experiment s := by
  cases hw with
  | @last i now r c s kpi task isOpen applied =>
    obtain ⟨read, later, hevents, hread⟩ := h.operates i now r _ task
    obtain ⟨experiment, hdecides⟩ := hread.decides
    obtain ⟨user, heffect⟩ := hdecides.effect
    have hfor := (h.evolves read later hevents).rows.isFor heffect.isFor
    exact ⟨i, read, later, r, experiment, rfl, hevents, hdecides, hfor, hfor.writesRow applied⟩

/-- A step keeps the keys, and the application evolves. -/
theorem Sound.step (h : Sound app events) (event : Event) :
    (((of app).run events).step event).app.store.Keyed ∧
      ((of app).run events).app.EvolvesTo (((of app).run events).step event).app := by
  rcases step_cases ((of app).run events) event with hkept | ⟨c, s, hw, hstep⟩
  · rw [hkept]
    exact ⟨h.keyed, .refl _⟩
  · obtain ⟨-, -, -, -, experiment, -, -, -, -, hwrites⟩ := h.exists_decides hw
    rw [hstep]
    exact ⟨(hwrites.changesOnly h.keyed.ids).keyed h.keyed, .of_writesRow h.keyed.ids hwrites⟩

theorem Sound.concat (h : Sound app events) (event : Event) : Sound app (events ++ [event]) := by
  obtain ⟨hkeyed, hevolves⟩ := h.step event
  refine ⟨?_, fun read later hsplit => ?_, fun i now r rest ht => ?_⟩
  · rw [run_concat]
    exact hkeyed
  · rw [run_concat]
    rcases List.eq_nil_or_concat later with rfl | ⟨later, last, rfl⟩
    · rw [List.append_nil] at hsplit
      rw [← hsplit, run_concat]
      exact .refl _
    · rw [List.concat_eq_append, ← List.append_assoc] at hsplit
      obtain ⟨hevents, -⟩ := List.append_inj' hsplit rfl
      exact (h.evolves read later hevents).trans hevolves
  · rw [run_concat] at ht
    rcases operating_cases ht with hsame | ⟨happ, hnew⟩
    · obtain ⟨read, later, hevents, hread⟩ := h.operates i now r rest hsame
      exact ⟨read, later ++ [event], by rw [hevents, List.append_assoc], hread⟩
    · refine ⟨events ++ [event], [], (List.append_nil _).symm, ?_, ?_⟩
      · rw [run_concat]
        exact ht
      · rw [run_concat, happ]
        rcases hnew with hop | ⟨next, hread, rfl⟩
        · refine ⟨rest, ?_, .start _⟩
          have hsame : ((of app).run events).app.operationOf now r = app.operationOf now r :=
            (h.evolves [] events rfl).operationOf now r
          exact hsame.symm.trans hop
        · obtain ⟨read, later, hevents, -, op, hop, hleads⟩ := h.operates i now r _ hread
          exact ⟨op, hop, .read hleads (h.evolves read later hevents).alike⟩

/-- **The steps of requests, in whatever order they come, are sound.** -/
theorem sound_run (hkeyed : app.store.Keyed) (events : List Event) : Sound app events := by
  induction events using List.reverseRecOn with
  | nil =>
    refine ⟨hkeyed, fun read later hsplit => ?_, fun i now r rest ht => ?_⟩
    · obtain ⟨rfl, rfl⟩ := List.append_eq_nil_iff.mp hsplit.symm
      exact .refl _
    · cases ht
  | append_singleton events event ih => exact ih.concat event

end

end System

/-! ### Answers -/

/-- The last step of a task: what it did and the response that it gave. -/
inductive Task.Ends (app : App) (now : Int) (r : Request) : Progress → App → Response → Prop where
  /-- The request was not one for an operation. -/
  | refused {response : Response} (refused : app.operationOf now r = .error response) :
      Ends app now r .received app (r.delivered response)
  | closed {rest : Operation} (closed : app.isOpen ≠ true) :
      Ends app now r (.operating rest) app (r.delivered Failure.database.response)
  | failed {failure : Failure} (isOpen : app.isOpen = true) :
      Ends app now r (.operating (.finished (.error failure))) app (r.delivered failure.response)
  /-- The command could not be applied. -/
  | conflict {decision : Decision} {failure : Failure} (isOpen : app.isOpen = true)
      (unsettled : decision.settle app.store = .error failure) :
      Ends app now r (.operating (.finished (.ok decision))) app (r.delivered failure.response)
  | settled {decision : Decision} {s : Store} {answer : Answer} (isOpen : app.isOpen = true)
      (settled : decision.settle app.store = .ok (s, answer)) :
      Ends app now r (.operating (.finished (.ok decision))) { app with store := s }
        (r.delivered answer.response)

/-- **A step that answers is the last one.** -/
theorem Task.ends_of_advance {app app' : App} {now : Int} {r : Request} {progress : Progress}
    {response : Response} (hnot : ∀ response', progress ≠ .answered response')
    (h : Task.advance ⟨now, r, progress⟩ app = (app', .answered response)) :
    Ends app now r progress app' response := by
  cases progress with
  | answered response' => exact absurd rfl (hnot response')
  | received =>
    simp only [advance] at h
    cases hop : app.operationOf now r with
    | ok op => simp [hop] at h
    | error response' =>
      simp only [hop] at h
      cases h
      exact .refused hop
  | operating rest =>
    by_cases hopen : app.isOpen = true
    · cases rest with
      | read next =>
        have hdatabase : app.database = .ok app.store := if_pos hopen
        simp [advance, hdatabase] at h
      | finished result =>
        simp only [advance, App.perform_of_isOpen hopen] at h
        cases result with
        | error failure =>
          cases h
          exact .failed hopen
        | ok decision =>
          cases hsettle : decision.settle app.store with
          | error failure =>
            simp only [Operation.run, Inquiry.run_finished, hsettle] at h
            cases h
            exact .conflict hopen hsettle
          | ok p =>
            simp only [Operation.run, Inquiry.run_finished, hsettle] at h
            cases h
            exact .settled hopen hsettle
    · have hdatabase : app.database = .error .database := if_neg hopen
      cases rest with
      | read next =>
        simp only [advance, hdatabase] at h
        cases h
        exact .closed hopen
      | finished result =>
        simp only [advance, App.perform, hdatabase] at h
        cases h
        exact .closed hopen

namespace System

variable {sys : System} {app : App} {events : List Event} {event : Event} {i : Nat} {now : Int}
  {r : Request} {response : Response}

/-- A task has got its response. -/
def Answered (sys : System) (i : Nat) (now : Int) (r : Request) (response : Response) : Prop :=
  sys.tasks[i]? = some ⟨now, r, .answered response⟩

/-- A task that is answered stays so. -/
theorem Answered.step (h : sys.Answered i now r response) (event : Event) :
    (sys.step event).Answered i now r response := by
  have hi : i < sys.tasks.length := (List.getElem?_eq_some_iff.mp h).1
  cases event with
  | arrive => exact (List.getElem?_append_left hi).trans h
  | advance j =>
    cases ht : sys.tasks[j]? with
    | none =>
      have hsame : sys.step (.advance j) = sys := by simp only [System.step, ht]
      rw [hsame]
      exact h
    | some t =>
      rw [step_advance ht]
      by_cases hij : j = i
      · subst hij
        obtain rfl := Option.some.inj (ht.symm.trans h)
        exact List.getElem?_set_self hi
      · exact (List.getElem?_set_ne hij).trans h

theorem Answered.run (h : sys.Answered i now r response) (later : List Event) :
    (sys.run later).Answered i now r response := by
  induction later generalizing sys with
  | nil => exact h
  | cons event later ih => exact ih (h.step event)

/-- A task that is answered was answered in one of its steps. -/
theorem Answered.exists_ends (h : ((of app).run events).Answered i now r response) :
    ∃ before after progress, events = before ++ Event.advance i :: after ∧
      ((of app).run before).tasks[i]? = some ⟨now, r, progress⟩ ∧
      Task.Ends ((of app).run before).app now r progress
        ((of app).run (before ++ [Event.advance i])).app response := by
  induction events using List.reverseRecOn with
  | nil => cases h
  | append_singleton events event ih =>
    rw [run_concat] at h
    have hearlier : ((of app).run events).Answered i now r response →
        ∃ before after progress, events ++ [event] = before ++ Event.advance i :: after ∧
          ((of app).run before).tasks[i]? = some ⟨now, r, progress⟩ ∧
          Task.Ends ((of app).run before).app now r progress
            ((of app).run (before ++ [Event.advance i])).app response := by
      intro h
      obtain ⟨before, after, progress, rfl, hstep⟩ := ih h
      exact ⟨before, after ++ [event], progress, by rw [List.append_assoc]; rfl, hstep⟩
    rcases task_cases h with hsame | ⟨_, _, -, hnew⟩ | ⟨t, rfl, ht, hstep, happ⟩
    · exact hearlier hsame
    · cases hnew
    · obtain ⟨now', r', progress⟩ := t
      obtain ⟨rfl, rfl, hprogress⟩ := Task.mk.inj hstep
      cases progress with
      | answered response' =>
        cases hprogress
        exact hearlier ht
      | _ =>
        refine ⟨events, [], _, rfl, ht, Task.ends_of_advance nofun ?_⟩
        rw [run_concat, happ, hprogress]

/-- The last step of a task applies its command and answers it. -/
theorem step_of_apply_ok {c : Command} {s : Store} {kpi : Int}
    (task : sys.tasks[i]? = some ⟨now, r, .operating (.finished (.ok (.write c)))⟩)
    (isOpen : sys.app.isOpen = true) (applied : c.apply sys.app.store = .ok (s, kpi)) :
    sys.step (.advance i) = ⟨{ sys.app with store := s },
      sys.tasks.set i ⟨now, r, .answered (r.delivered (c.answer kpi).response)⟩⟩ := by
  have hrun : Operation.run (.finished (.ok (.write c))) sys.app.store = (s, .ok (c.answer kpi)) :=
    Operation.run_of_write rfl applied
  rw [step_advance task]
  simp only [Task.advance, App.perform_of_isOpen isOpen, hrun]
  rfl

/-- The last step of a task whose command cannot be applied refuses it. -/
theorem step_of_apply_error {c : Command} {failure : Failure}
    (task : sys.tasks[i]? = some ⟨now, r, .operating (.finished (.ok (.write c)))⟩)
    (isOpen : sys.app.isOpen = true) (unapplied : c.apply sys.app.store = .error failure) :
    sys.step (.advance i) =
      ⟨sys.app, sys.tasks.set i ⟨now, r, .answered (r.delivered failure.response)⟩⟩ := by
  have hrun : Operation.run (.finished (.ok (.write c))) sys.app.store =
      (sys.app.store, .error failure) := by
    simp only [Operation.run, Inquiry.run_finished, Decision.settle, unapplied, Except.map]
  rw [step_advance task]
  simp only [Task.advance, App.perform_of_isOpen isOpen, hrun]
  rfl

/-- A request that finds out its command, with all that it reads read at once. -/
theorem run_to_command {op : Operation} {tasks : List Task} {c : Command} {n : Nat}
    (hopen : app.isOpen = true) (hop : app.operationOf now r = .ok op)
    (h : tasks[i]? = some ⟨now, r, .received⟩) (hreads : op.reads app.store = n)
    (hrun : Inquiry.run app.store op = .ok (.write c)) :
    run ⟨app, tasks⟩ (List.replicate (n + 1) (.advance i)) =
      ⟨app, tasks.set i ⟨now, r, .operating (.finished (.ok (.write c)))⟩⟩ := by
  rw [← hreads, run_received hopen hop h, hrun]

/-- A request that applies its command with no other step in between. -/
theorem run_through_command {op : Operation} {tasks : List Task} {c : Command} {s : Store} {kpi : Int}
    {n : Nat} (hopen : app.isOpen = true) (hop : app.operationOf now r = .ok op)
    (h : tasks[i]? = some ⟨now, r, .received⟩) (hreads : op.reads app.store = n)
    (hrun : Inquiry.run app.store op = .ok (.write c)) (happly : c.apply app.store = .ok (s, kpi)) :
    run ⟨app, tasks⟩ (List.replicate (n + 2) (.advance i)) = ⟨{ app with store := s },
      tasks.set i ⟨now, r, .answered (r.delivered (c.answer kpi).response)⟩⟩ := by
  have hi : i < tasks.length := (List.getElem?_eq_some_iff.mp h).1
  rw [List.replicate_succ', run_append, run_to_command hopen hop h hreads hrun]
  show step _ (.advance i) = _
  rw [step_of_apply_ok (List.getElem?_set_self hi) hopen happly, List.set_set]

theorem Writes.answers {c : Command} {s : Store} (h : sys.Writes (.advance i) c s) :
    ∃ now r kpi, c.apply sys.app.store = .ok (s, kpi) ∧
      (sys.step (.advance i)).Answered i now r (r.delivered (c.answer kpi).response) := by
  cases h with
  | @last _ now r _ _ kpi task isOpen applied =>
    refine ⟨now, r, kpi, applied, ?_⟩
    have hi : i < sys.tasks.length := (List.getElem?_eq_some_iff.mp task).1
    unfold Answered
    rw [step_of_apply_ok task isOpen applied]
    exact List.getElem?_set_self hi

/-- A task whose answer is no success changes nothing in any of its steps. -/
theorem app_step_of_not_isSuccess {before after : List Event}
    (hevents : events = before ++ Event.advance i :: after)
    (h : ((of app).run events).Answered i now r response)
    (hfailed : ¬ response.IsSuccess) :
    ((of app).run (before ++ [Event.advance i])).app = ((of app).run before).app := by
  rw [run_concat]
  rcases step_cases ((of app).run before) (.advance i) with hkept | ⟨c, s, hw, -⟩
  · exact hkept
  · obtain ⟨now', r', kpi, -, hanswered⟩ := hw.answers
    have hfinal := hanswered.run after
    rw [← run_concat, ← run_append, List.append_assoc, List.singleton_append, ← hevents] at hfinal
    cases h.symm.trans hfinal
    refine absurd ?_ hfailed
    unfold Request.delivered
    split <;> exact Answer.isSuccess_response (c.answer kpi)

end System

end ExperimentKpi

/-
# Where the settings and the reaction query of a row come from

A row of the table of KPIs after a command is as it was before, as far as its settings and its reaction
query go, or the command gave it one of them or both (`Command.Brings`, `Command.brings_of_apply`). New
settings come with their queries, all made from one document (`Composes`); a reaction query that comes
alone was compiled from the settings of the row as it was found (`Effect.of_regenerate`).

Key definitions: `Command.Updates`, `Command.SetsReaction`, `Command.Brings`, `Composes`.
Key theorems: `Command.brings_of_apply`, `Command.Brings.settings_eq`, `Effect.of_regenerate`.
-/
import ExperimentKpi.Proofs.Store.Kpis

namespace ExperimentKpi

/-! ### Rows after a command -/

namespace Command

/-- A command gives a KPI new settings. -/
def Updates (id : Int) : Command → Prop
  | replace kpi .. => kpi = id
  | create .. | remove .. | customize .. | regenerate .. => False

/-- A command sets the reaction query of a KPI that is there already. -/
def SetsReaction (id : Int) : Command → Prop
  | replace kpi .. | regenerate kpi .. => kpi = id
  | customize kpi _ kind _ => kpi = id ∧ kind = .reaction
  | create .. | remove .. => False

/-- How a row comes about by a command, as far as its settings and its reaction query go. -/
inductive Brings (s : Store) (k : KpiRow) : Command → Prop where
  | left {c : Command} {l : KpiRow} (mem : l ∈ s.kpis) (identity : k.identity = l.identity)
      (settings : k.settings = l.settings) (reaction : k.reaction = l.reaction)
      (custom : k.reactionIsCustom = l.reactionIsCustom) (untouched : ¬ c.SetsReaction k.id) :
      Brings s k c
  | created {project user : Int} {name : String} {queries : Queries}
      (fresh : ∀ l ∈ s.kpis, l.id ≠ k.id) (reaction : k.reaction = some queries.reaction) :
      Brings s k (.create k.experiment project name user k.settings queries)
  | replaced {experiment user : Int} {queries : Queries}
      (reaction : k.reaction = some queries.reaction) :
      Brings s k (.replace k.id experiment user k.settings queries)
  | customized {user : Int} {query : String} {l : KpiRow} (mem : l ∈ s.kpis)
      (identity : k.identity = l.identity) (settings : k.settings = l.settings)
      (custom : k.reactionIsCustom = true) : Brings s k (.customize k.id user .reaction query)
  | regenerated {experiment : Int} {reaction : String} {l : KpiRow} (mem : l ∈ s.kpis)
      (identity : k.identity = l.identity) (settings : k.settings = l.settings)
      (set : k.reaction = some reaction) : Brings s k (.regenerate k.id experiment reaction)

variable {s s' : Store} {c : Command} {kpi : Int} {k : KpiRow}

/-- **Every row after a command is as it was, or the command brought it about.** -/
theorem brings_of_apply (ha : c.apply s = .ok (s', kpi)) (hk : k ∈ s'.kpis) : c.Brings s k := by
  cases c with
  | create experiment project name user settings queries =>
    obtain ⟨-, hid, rfl⟩ := apply_create_ok ha
    rcases List.mem_append.mp hk with hk | hk
    · exact .left hk rfl rfl rfl rfl id
    · rw [List.mem_singleton.mp hk]
      refine .created (fun l hl => Int.ne_of_lt ?_) rfl
      show l.id < kpi
      rw [hid]
      exact lt_nextId (List.mem_map_of_mem hl)
  | replace id experiment user settings queries =>
    cases ha
    obtain ⟨l, hl, ⟨rfl, rfl⟩ | ⟨hid, rfl⟩⟩ := Store.exists_of_mem_changeKpi hk
    · exact .replaced rfl
    · exact .left hl rfl rfl rfl rfl (Ne.symm hid)
  | remove id user =>
    cases ha
    obtain ⟨l, hl, ⟨-, rfl⟩ | ⟨-, rfl⟩⟩ := Store.exists_of_mem_changeKpi hk
    · exact .left hl rfl rfl rfl rfl not_false
    · exact .left hl rfl rfl rfl rfl not_false
  | customize id user kind query =>
    cases ha
    obtain ⟨l, hl, ⟨rfl, rfl⟩ | ⟨hid, rfl⟩⟩ := Store.exists_of_mem_changeKpi hk
    · cases kind with
      | reaction => exact .customized hl rfl rfl rfl
      | report => exact .left hl rfl rfl rfl rfl fun h => nomatch h.2
    · exact .left hl rfl rfl rfl rfl fun h => hid h.1.symm
  | regenerate id experiment reaction =>
    cases ha
    obtain ⟨l, hl, ⟨rfl, rfl⟩ | ⟨hid, rfl⟩⟩ := Store.exists_of_mem_changeKpi hk
    · exact .regenerated hl rfl rfl rfl
    · exact .left hl rfl rfl rfl rfl (Ne.symm hid)

/-- A row that was there has the settings that it had, unless the command updates it. -/
theorem Brings.settings_eq (h : c.Brings s k) (hkeyed : s.Keyed) {l : KpiRow} (hl : l ∈ s.kpis)
    (hid : l.id = k.id) : k.settings = l.settings ∨ c.Updates k.id := by
  have hsame : ∀ l' ∈ s.kpis, k.identity = l'.identity → l' = l := fun l' hl' hidentity =>
    List.inj_on_of_nodup_map hkeyed.ids hl' hl
      ((congrArg KpiIdentity.id hidentity).symm.trans hid.symm)
  cases h with
  | left mem identity settings => exact .inl (by rw [settings, hsame _ mem identity])
  | created fresh => exact absurd hid (fresh l hl)
  | replaced => exact .inr rfl
  | customized mem identity settings => exact .inl (by rw [settings, hsame _ mem identity])
  | regenerated mem identity settings => exact .inl (by rw [settings, hsame _ mem identity])

end Command

/-! ### What commands were made from -/

/-- A text of settings and queries are made from the document that is sent for an experiment. -/
def Composes (env : Environment) (s : Store) (experiment : Int) (body : Except Failure Json)
    (text : String) (queries : Queries) : Prop :=
  ∃ document context accepted settings, body = .ok document ∧
    (loadContext experiment).run s = .ok context ∧ Settings.validate document = .ok accepted ∧
      canonical context document = .ok (text, settings) ∧
        compileQueries context settings env.warehouse = .ok queries

section

variable {env : Environment} {s : Store} {user : User} {experiment : Int} {body : Except Failure Json}

theorem Effect.of_create {experiment' project user' : Int} {name text : String} {queries : Queries}
    (h : Effect env s user experiment body
      (.create experiment' project name user' text queries)) :
    experiment' = experiment ∧ Composes env s experiment body text queries := by
  cases h with
  | create given loaded valid _ canonical compiled =>
    exact ⟨rfl, _, _, _, _, given, loaded, valid, canonical, compiled⟩

theorem Effect.of_replace {id experiment' user' : Int} {text : String} {queries : Queries}
    (h : Effect env s user experiment body (.replace id experiment' user' text queries)) :
    (∃ k ∈ s.kpis, k.id = id ∧ k.experiment = experiment) ∧
      Composes env s experiment body text queries := by
  cases h with
  | replace given loaded _ valid found canonical compiled =>
    obtain ⟨hm, hown⟩ := Store.mem_of_kpiOf found
    exact ⟨⟨_, hm, rfl, hown⟩, _, _, _, _, given, loaded, valid, canonical, compiled⟩

/-- A reaction query that comes alone is compiled from the settings of the row that was found. -/
theorem Effect.of_regenerate {id experiment' : Int} {reaction : String}
    (h : Effect env s user experiment body (.regenerate id experiment' reaction)) :
    experiment' = experiment ∧ ∃ k ∈ s.kpis, k.id = id ∧ k.experiment = experiment ∧
      ∃ context settings, (loadContext experiment).run s = .ok context ∧
        Settings.revalidate k.settings = .ok settings ∧
          compileReaction context settings env.warehouse = .ok reaction := by
  cases h with
  | regenerate loaded found valid compiled =>
    obtain ⟨hm, hown⟩ := Store.mem_of_liveKpiOf found
    exact ⟨rfl, _, hm, rfl, hown, _, _, loaded, valid, compiled⟩

end

end ExperimentKpi

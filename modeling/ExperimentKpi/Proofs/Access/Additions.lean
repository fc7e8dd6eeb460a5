/-
# Grants that are added one by one

Permits of roles and roles of users are added one after another, and each addition is answered with
whether it is new. Grants keep what has been added and nothing else (`Grants.Records`): one addition keeps
this (`Grants.Records.add`), so a row of them does (`Grants.Records.addAll`). What the grants decide is
therefore a matter of which additions there were and not of their order, and one addition more never
takes anything back (`addAll_isOutcome`).

The same additions can be made to a policy over texts, in which users and roles are subjects of one graph.
It gives the same answers and ends as the policy that the grants stand for (`policy_addAll`): the texts
keep users and roles apart, so no text is there already that stands for another grant.

Key definitions: `Addition`, `Grants.addAll`, `Policy.addAll`, `Grants.Records`, `IsOutcome`.
Key theorems: `policy_addAll`, `Grants.Records.addAll`, `addAll_isOutcome`.
-/
import ExperimentKpi.Proofs.Access.Policy
import Mathlib.Data.List.Basic

namespace ExperimentKpi

/-- What can be added: that a role may do something, or that a user has a role. -/
inductive Addition where
  | permit (p : Permit)
  | assign (a : Assignment)
deriving DecidableEq, Repr

/-! ### Rows of additions -/

section

variable {σ τ α β : Type}

/-- What the additions of a row are answered, one after another, and the state behind them. -/
def addInTurn (add : σ → α → Bool × σ) (s : σ) : List α → List Bool × σ
  | [] => ([], s)
  | a :: as =>
    let (isNew, s) := add s a
    let (answers, s) := addInTurn add s as
    (isNew :: answers, s)

theorem length_addInTurn (add : σ → α → Bool × σ) : ∀ (s : σ) (as : List α),
    (addInTurn add s as).1.length = as.length
  | _, [] => rfl
  | s, a :: as => congrArg (· + 1) (length_addInTurn add (add s a).2 as)

theorem addInTurn_snd (add : σ → α → Bool × σ) : ∀ (s : σ) (as : List α),
    (addInTurn add s as).2 = as.foldl (fun s a => (add s a).2) s
  | _, [] => rfl
  | s, a :: as => addInTurn_snd add (add s a).2 as

/-- Where one addition to a view of the state is the view of the addition, a row of them is. -/
theorem addInTurn_map {add : σ → α → Bool × σ} {add' : τ → α → Bool × τ} {view : σ → τ}
    (h : ∀ s a, add' (view s) a = ((add s a).1, view (add s a).2)) : ∀ (s : σ) (as : List α),
    addInTurn add' (view s) as = ((addInTurn add s as).1, view (addInTurn add s as).2)
  | _, [] => rfl
  | s, a :: as => by
    simp only [addInTurn, h]
    rw [addInTurn_map h (add s a).2 as]

variable [DecidableEq α] [DecidableEq β]

/-- One entry more at the end of a list unless it is there, and whether it is new. -/
def addNew (l : List α) (a : α) : Bool × List α :=
  if a ∈ l then (false, l) else (true, l ++ [a])

theorem addNew_fst (l : List α) (a : α) : (addNew l a).1 = decide (a ∉ l) := by
  unfold addNew
  by_cases h : a ∈ l <;> simp [h]

theorem mem_addNew {l : List α} {a b : α} : b ∈ (addNew l a).2 ↔ b ∈ l ∨ b = a := by
  unfold addNew
  by_cases h : a ∈ l
  · rw [if_pos h]
    exact ⟨.inl, fun hb => hb.elim id fun heq => heq ▸ h⟩
  · rw [if_neg h, List.mem_append, List.mem_singleton]

/-- An entry is new exactly if what it is sent to, as the only one, is. -/
theorem addNew_map {f : α → β} (hf : Function.Injective f) (l : List α) (a : α) :
    addNew (l.map f) (f a) = ((addNew l a).1, (addNew l a).2.map f) := by
  have hmem : f a ∈ l.map f ↔ a ∈ l := List.mem_map_of_injective hf
  unfold addNew
  by_cases h : a ∈ l <;> simp only [hmem, h, if_true, if_false, List.map_append, List.map_singleton]

end

/-! ### Additions to grants and to their policy -/

deriving instance DecidableEq for Rule

/-- The rule that a permit stands for. -/
def Permit.rule (p : Permit) : Rule :=
  ⟨roleSubject p.role, p.resource, p.action⟩

/-- The link that a role of a user stands for. -/
def Assignment.link (a : Assignment) : String × String :=
  (userSubject a.user, roleSubject a.role)

theorem Permit.rule_injective : Function.Injective rule := by
  rintro ⟨r, o, a⟩ ⟨r', o', a'⟩ h
  simp only [rule, Rule.mk.injEq, roleSubject_inj] at h
  rw [h.1, h.2.1, h.2.2]

theorem Assignment.link_injective : Function.Injective link := by
  rintro ⟨u, r⟩ ⟨u', r'⟩ h
  simp only [link, Prod.mk.injEq, userSubject_inj, roleSubject_inj] at h
  rw [h.1, h.2]

namespace Policy

/-- A policy that allows nothing. -/
def empty : Policy := ⟨[], []⟩

/-- One rule or link more, and whether it is new. -/
def add (p : Policy) : Addition → Bool × Policy
  | .permit q => ((addNew p.rules q.rule).1, { p with rules := (addNew p.rules q.rule).2 })
  | .assign a => ((addNew p.links a.link).1, { p with links := (addNew p.links a.link).2 })

/-- The answers to additions and the policy behind them. -/
def addAll (p : Policy) : List Addition → List Bool × Policy :=
  addInTurn add p

end Policy

namespace Grants

/-- One grant more, and whether it is new. -/
def add (g : Grants) : Addition → Bool × Grants
  | .permit p => g.permit p
  | .assign a => g.assign a

/-- The answers to additions and the grants behind them. -/
def addAll (g : Grants) : List Addition → List Bool × Grants :=
  addInTurn add g

theorem permit_eq (g : Grants) (p : Permit) :
    g.permit p = ((addNew g.permits p).1, { g with permits := (addNew g.permits p).2 }) := by
  unfold permit addNew
  by_cases h : p ∈ g.permits <;> simp [h]

theorem assign_eq (g : Grants) (a : Assignment) : g.assign a =
    ((addNew g.assignments a).1, { g with assignments := (addNew g.assignments a).2 }) := by
  unfold assign addNew
  by_cases h : a ∈ g.assignments <;> simp [h]

/-- One addition to the policy of grants is the addition to the grants. -/
theorem policy_add (g : Grants) (a : Addition) :
    g.policy.add a = ((g.add a).1, (g.add a).2.policy) := by
  cases a with
  | permit p =>
    have hrule : addNew g.policy.rules p.rule = _ := addNew_map Permit.rule_injective g.permits p
    rw [add, permit_eq, Policy.add, hrule]
    rfl
  | assign a =>
    have hlink : addNew g.policy.links a.link = _ :=
      addNew_map Assignment.link_injective g.assignments a
    rw [add, assign_eq, Policy.add, hlink]
    rfl

/-- **Additions to the policy of grants are additions to the grants**: they are answered the same and
end as the policy that the grants stand for. -/
theorem policy_addAll (g : Grants) (as : List Addition) :
    g.policy.addAll as = ((g.addAll as).1, (g.addAll as).2.policy) :=
  addInTurn_map policy_add g as

/-! ### What has been added -/

/-- The grants have what an addition adds. -/
def Has (g : Grants) : Addition → Prop
  | .permit p => p ∈ g.permits
  | .assign a => a ∈ g.assignments

/-- The grants are what has been added, and nothing else. -/
def Records (g : Grants) (added : List Addition) : Prop :=
  ∀ a, g.Has a ↔ a ∈ added

variable {g : Grants} {added as bs : List Addition} {a : Addition}

theorem records_empty : empty.Records [] := by
  intro a
  cases a <;> simp [Has, empty]

theorem has_add (g : Grants) (a b : Addition) : (g.add a).2.Has b ↔ g.Has b ∨ b = a := by
  cases a with
  | permit p =>
    rw [add, permit_eq]
    cases b with
    | permit q => simp only [Has, mem_addNew, Addition.permit.injEq]
    | assign b => simp [Has]
  | assign a =>
    rw [add, assign_eq]
    cases b with
    | permit q => simp [Has]
    | assign b => simp only [Has, mem_addNew, Addition.assign.injEq]

theorem add_fst_iff (g : Grants) (a : Addition) : (g.add a).1 = true ↔ ¬ g.Has a := by
  cases a with
  | permit p => rw [add, permit_eq, addNew_fst, decide_eq_true_iff, Has]
  | assign a => rw [add, assign_eq, addNew_fst, decide_eq_true_iff, Has]

/-- One addition is new if it was not added before, and is kept. -/
theorem Records.add (h : g.Records added) (a : Addition) :
    (g.add a).1 = decide (a ∉ added) ∧ (g.add a).2.Records (added ++ [a]) := by
  refine ⟨?_, fun b => ?_⟩
  · rw [Bool.eq_iff_iff, add_fst_iff, h a, decide_eq_true_iff]
  · rw [has_add, h b, List.mem_append, List.mem_singleton]

/-- **Additions in a row are kept**, and each of them is new exactly if it was not added before. -/
theorem Records.addAll (h : g.Records added) (as : List Addition) :
    (g.addAll as).2.Records (added ++ as) ∧
      ∀ i a, as[i]? = some a → (g.addAll as).1[i]? = some (decide (a ∉ added ++ as.take i)) := by
  induction as generalizing g added with
  | nil =>
    rw [List.append_nil]
    exact ⟨h, nofun⟩
  | cons b as ih =>
    obtain ⟨hnew, hkept⟩ := h.add b
    obtain ⟨hall, hanswers⟩ := ih hkept
    rw [List.append_assoc, List.singleton_append] at hall
    refine ⟨hall, fun i a ha => ?_⟩
    cases i with
    | zero =>
      obtain rfl := Option.some.inj ha
      rw [List.take_zero, List.append_nil, ← hnew]
      rfl
    | succ i =>
      have hrest := hanswers i a ha
      rw [List.append_assoc, List.singleton_append] at hrest
      exact hrest

/-- Recorded grants allow a user what some role of the user may do. -/
theorem Records.allows_iff (h : g.Records added) {user : Int} {resource action : String} :
    g.allows user resource action = true ↔
      ∃ role, .assign ⟨user, role⟩ ∈ added ∧ .permit ⟨role, resource, action⟩ ∈ added := by
  rw [ExperimentKpi.allows_iff]
  apply exists_congr
  intro role
  rw [← h (.assign ⟨user, role⟩), ← h (.permit ⟨role, resource, action⟩)]
  rfl

end Grants

/-! ### Decisions -/

/-- What comes of additions: their answers, and what is allowed behind them. -/
structure IsOutcome (additions : List Addition) (answers : List Bool)
    (allows : Int → String → String → Prop) : Prop where
  length_eq : answers.length = additions.length
  /-- An addition is new exactly if the same one was not made before. -/
  answer : ∀ i a, additions[i]? = some a → answers[i]? = some (decide (a ∉ additions.take i))
  /-- A user may do what has been permitted to some role that the user has been given. -/
  allows_iff : ∀ user resource action, allows user resource action ↔
    ∃ role, .assign ⟨user, role⟩ ∈ additions ∧ .permit ⟨role, resource, action⟩ ∈ additions

theorem Grants.addAll_isOutcome (additions : List Addition) :
    IsOutcome additions (Grants.empty.addAll additions).1
      fun user resource action =>
        (Grants.empty.addAll additions).2.allows user resource action = true := by
  obtain ⟨hkept, hanswers⟩ := Grants.records_empty.addAll additions
  exact ⟨length_addInTurn _ _ _, hanswers, fun _ _ _ => hkept.allows_iff⟩

theorem Policy.addAll_isOutcome (additions : List Addition) :
    IsOutcome additions (Policy.empty.addAll additions).1
      fun user resource action =>
        (Policy.empty.addAll additions).2.Allows (userSubject user) resource action := by
  have houtcome := Grants.addAll_isOutcome additions
  rw [show Policy.empty = Grants.empty.policy from rfl, Grants.policy_addAll]
  refine ⟨houtcome.length_eq, houtcome.answer, fun user resource action => ?_⟩
  rw [← allows_iff_policy]
  exact houtcome.allows_iff user resource action

/-- **Grants decide by what has been added.** Grants and the policy over texts, both of them empty at
first, answer any additions alike, and allow a user what was permitted to a role that the user was given.
So the order of the additions plays no part, more of them take nothing back, and a role with the id of a
user, whatever it is permitted, is of no use to the user without being given. -/
theorem allows_addAll_iff (additions : List Addition) :
    IsOutcome additions (Grants.empty.addAll additions).1
        (fun user resource action =>
          (Grants.empty.addAll additions).2.allows user resource action = true) ∧
      IsOutcome additions (Policy.empty.addAll additions).1
        (fun user resource action =>
          (Policy.empty.addAll additions).2.Allows (userSubject user) resource action) ∧
      (∀ others user resource action, additions.Perm others →
        (Grants.empty.addAll others).2.allows user resource action =
          (Grants.empty.addAll additions).2.allows user resource action) ∧
      (∀ more user resource action, additions ⊆ more →
        (Grants.empty.addAll additions).2.allows user resource action = true →
          (Grants.empty.addAll more).2.allows user resource action = true) ∧
      ∀ id resource action, (∀ role, .assign ⟨id, role⟩ ∉ additions) →
        (Grants.empty.addAll additions).2.allows id resource action = false := by
  have hiff := fun as => (Grants.addAll_isOutcome as).allows_iff
  refine ⟨Grants.addAll_isOutcome additions, Policy.addAll_isOutcome additions,
    fun others user resource action hperm => ?_, fun more user resource action hsub h => ?_,
    fun id resource action hnone => ?_⟩
  · rw [Bool.eq_iff_iff, hiff others, hiff additions]
    simp only [hperm.mem_iff]
  · obtain ⟨role, hassign, hpermit⟩ := (hiff additions user resource action).mp h
    exact (hiff more user resource action).mpr ⟨role, hsub hassign, hsub hpermit⟩
  · rw [← Bool.not_eq_true]
    intro h
    obtain ⟨role, hassign, -⟩ := (hiff additions id resource action).mp h
    exact hnone role hassign

/-- User 1 has role 2, user 2 has role 7, and each of these roles may do something; one of the additions
is made twice. -/
def chainedAdditions : List Addition :=
  [.permit ⟨7, "org:1:kpi", "edit"⟩, .assign ⟨1, 2⟩, .assign ⟨2, 7⟩,
    .permit ⟨2, "org:1:kpi", "view"⟩, .assign ⟨1, 2⟩]

/-- Ids of users and of roles do not mix: user 1 does not have role 7 through user 2, and user 7 has
no role. -/
theorem allows_addAll_chained :
    (Grants.empty.addAll chainedAdditions).1 = [true, true, true, true, false] ∧
      (Grants.empty.addAll chainedAdditions).2.allows 1 "org:1:kpi" "view" = true ∧
      ¬ (Policy.empty.addAll chainedAdditions).2.Allows (userSubject 1) "org:1:kpi" "edit" ∧
      chainedAdditions.Perm chainedAdditions.reverse ∧
      (Grants.empty.addAll chainedAdditions.reverse).2.allows 2 "org:1:kpi" "edit" = true ∧
      chainedAdditions ⊆ .assign ⟨3, 7⟩ :: chainedAdditions ∧
      (Grants.empty.addAll (.assign ⟨3, 7⟩ :: chainedAdditions)).2.allows 2 "org:1:kpi" "edit" =
        true ∧
      (∀ role, .assign ⟨7, role⟩ ∉ chainedAdditions) ∧
      (Grants.empty.addAll chainedAdditions).2.allows 7 "org:1:kpi" "edit" = false := by
  obtain ⟨hgrants, hpolicy, hperm, hmore, hown⟩ := allows_addAll_iff chainedAdditions
  have hreverse : chainedAdditions.Perm chainedAdditions.reverse := (List.reverse_perm _).symm
  have hsub : chainedAdditions ⊆ .assign ⟨3, 7⟩ :: chainedAdditions := List.subset_cons_self _ _
  have hsecond : (Grants.empty.addAll chainedAdditions).2.allows 2 "org:1:kpi" "edit" = true :=
    (hgrants.allows_iff _ _ _).mpr ⟨7, by decide, by decide⟩
  have hnone : ∀ role, .assign ⟨7, role⟩ ∉ chainedAdditions := by
    intro role h
    simp [chainedAdditions] at h
  refine ⟨by decide, (hgrants.allows_iff _ _ _).mpr ⟨2, by decide, by decide⟩, fun h => ?_, hreverse,
    (hperm _ _ _ _ hreverse).trans hsecond, hsub, hmore _ _ _ _ hsub hsecond, hnone,
    hown _ _ _ hnone⟩
  obtain ⟨role, hassign, hpermit⟩ := (hpolicy.allows_iff _ _ _).mp h
  simp [chainedAdditions] at hassign hpermit
  omega

end ExperimentKpi

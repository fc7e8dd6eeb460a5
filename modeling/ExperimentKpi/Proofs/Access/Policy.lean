/-
# Grants as a policy over texts

An access policy knows texts only: rules, each with a subject, an object and an action, and links from
subjects to the roles that they have. A request is allowed if a rule has its object and its action and
a subject that links lead to from its own. Grants stand for such a policy in which users and roles are
subjects with prefixed ids and the objects are the keys of resources (`Grants.policy`).

The texts tell all of these apart: a user from a role, and the resources of the organizations from
each other and from those of the system (`resourceKey_inj`). So the links lead from a user to the
user's roles and no further, and the policy allows what the grants do (`allows_iff_policy`).

Key definitions: `Policy`, `Policy.Allows`, `Grants.policy`.
Key theorems: `resourceKey_inj`, `allows_iff_policy`.
-/
import ExperimentKpi.Access.Grants
import ExperimentKpi.Proofs.Text.Cutting
import ExperimentKpi.Proofs.Text.Decimal
import Mathlib.Logic.Relation

namespace ExperimentKpi

/-! ### Policies -/

/-- A rule of an access policy. -/
structure Rule where
  subject : String
  object : String
  action : String

/-- The rules of an access policy and its links from subjects to roles. -/
structure Policy where
  rules : List Rule
  links : List (String × String)

/-- Links lead from one subject to another. -/
def Policy.Leads (p : Policy) : String → String → Prop :=
  Relation.ReflTransGen fun a b => (a, b) ∈ p.links

/-- A rule with the object and the action has a subject that links lead to. -/
def Policy.Allows (p : Policy) (subject object action : String) : Prop :=
  ∃ rule ∈ p.rules, p.Leads subject rule.subject ∧ rule.object = object ∧ rule.action = action

/-- The subject that a user is. -/
def userSubject (id : Int) : String := s!"u:{id}"

/-- The subject that a role is. -/
def roleSubject (id : Int) : String := s!"r:{id}"

/-- The policy that grants stand for. -/
def Grants.policy (g : Grants) : Policy where
  rules := g.permits.map fun p => ⟨roleSubject p.role, p.resource, p.action⟩
  links := g.assignments.map fun a => (userSubject a.user, roleSubject a.role)

/-! ### Texts of subjects and resources -/

theorem colon_not_mem_toString (z : Int) : ∀ c ∈ (toString z).toList, (c == ':') = false := by
  have hdigit {n : Nat} {c : Char} (h : c ∈ Nat.toDigits 10 n) : (c == ':') = false := by
    refine beq_eq_false_iff_ne.mpr ?_
    rintro rfl
    exact absurd (Text.isDigit_of_mem_toDigits h) (by decide)
  intro c hc
  rcases Int.lt_or_le z 0 with hz | hz
  · rw [Text.toDigits_of_neg hz] at hc
    rcases List.mem_cons.mp hc with rfl | hc
    · rfl
    · exact hdigit hc
  · rw [Text.toDigits_of_nonneg hz] at hc
    exact hdigit hc

theorem toList_userSubject (id : Int) :
    (userSubject id).toList = 'u' :: ':' :: (toString id).toList := by
  simp only [userSubject, String.toList_append]
  rfl

theorem toList_roleSubject (id : Int) :
    (roleSubject id).toList = 'r' :: ':' :: (toString id).toList := by
  simp only [roleSubject, String.toList_append]
  rfl

theorem toList_resourceKey_some (id : Int) (resource : String) :
    (resourceKey (some id) resource).toList =
      "org:".toList ++ ((toString id).toList ++ ':' :: resource.toList) := by
  simp only [resourceKey, String.toList_append, List.append_assoc]
  rfl

theorem toList_resourceKey_none (resource : String) :
    (resourceKey none resource).toList = "system:".toList ++ resource.toList := by
  simp only [resourceKey, String.toList_append]
  rfl

@[simp] theorem userSubject_inj {m n : Int} : userSubject m = userSubject n ↔ m = n := by
  refine ⟨fun h => ?_, congrArg _⟩
  have h' := congrArg String.toList h
  rw [toList_userSubject, toList_userSubject, List.cons.injEq, List.cons.injEq] at h'
  exact Text.toString_int_injective (String.toList_injective h'.2.2)

@[simp] theorem roleSubject_inj {m n : Int} : roleSubject m = roleSubject n ↔ m = n := by
  refine ⟨fun h => ?_, congrArg _⟩
  have h' := congrArg String.toList h
  rw [toList_roleSubject, toList_roleSubject, List.cons.injEq, List.cons.injEq] at h'
  exact Text.toString_int_injective (String.toList_injective h'.2.2)

theorem userSubject_ne_roleSubject (m n : Int) : userSubject m ≠ roleSubject n := by
  intro h
  have h' := congrArg String.toList h
  rw [toList_userSubject, toList_roleSubject, List.cons.injEq] at h'
  exact absurd h'.1 (by decide)

/-- Resources of different organizations, or of an organization and the system, have different keys,
whatever the resources are called. -/
@[simp] theorem resourceKey_inj {o o' : Option Int} {resource resource' : String} :
    resourceKey o resource = resourceKey o' resource' ↔ o = o' ∧ resource = resource' := by
  refine ⟨fun h => ?_, fun ⟨ho, hr⟩ => by rw [ho, hr]⟩
  have h' := congrArg String.toList h
  cases o with
  | none =>
    cases o' with
    | none =>
      rw [toList_resourceKey_none, toList_resourceKey_none, List.append_cancel_left_eq] at h'
      exact ⟨rfl, String.toList_injective h'⟩
    | some m =>
      rw [toList_resourceKey_none, toList_resourceKey_some] at h'
      exact absurd (List.cons.inj h').1 (by decide)
  | some n =>
    cases o' with
    | none =>
      rw [toList_resourceKey_none, toList_resourceKey_some] at h'
      exact absurd (List.cons.inj h').1 (by decide)
    | some m =>
      rw [toList_resourceKey_some, toList_resourceKey_some, List.append_cancel_left_eq] at h'
      -- An id has no colon, so both keys are cut at the same place.
      have hcut := congrArg (Text.cutAt? (· == ':')) h'
      rw [Text.cutAt?_append_cons (colon_not_mem_toString n) rfl,
        Text.cutAt?_append_cons (colon_not_mem_toString m) rfl, Option.some.injEq,
        Prod.mk.injEq] at hcut
      have hid : n = m := Text.toString_int_injective (String.toList_injective hcut.1)
      exact ⟨congrArg some hid, String.toList_injective hcut.2⟩

/-! ### What a policy of grants allows -/

section

variable {g : Grants} {user role : Int} {resource action : String}

theorem link_mem_policy {a b : String} :
    (a, b) ∈ g.policy.links ↔
      ∃ l ∈ g.assignments, userSubject l.user = a ∧ roleSubject l.role = b := by
  simp only [Grants.policy, List.mem_map, Prod.mk.injEq]

/-- No link leads away from a role. -/
theorem leads_roleSubject {b : String} (h : g.policy.Leads (roleSubject role) b) :
    b = roleSubject role := by
  induction h with
  | refl => rfl
  | tail _ hlink ih =>
    obtain ⟨l, -, hfrom, -⟩ := link_mem_policy.mp hlink
    exact (userSubject_ne_roleSubject _ _ (hfrom.trans ih)).elim

/-- Links lead from a user to the user's roles only. -/
theorem leads_userSubject_iff :
    g.policy.Leads (userSubject user) (roleSubject role) ↔ ⟨user, role⟩ ∈ g.assignments := by
  constructor
  · intro h
    rcases Relation.ReflTransGen.cases_head h with heq | ⟨b, hlink, hrest⟩
    · exact (userSubject_ne_roleSubject _ _ heq).elim
    · obtain ⟨⟨u, r⟩, hl, hfrom, rfl⟩ := link_mem_policy.mp hlink
      obtain rfl := userSubject_inj.mp hfrom
      obtain rfl := roleSubject_inj.mp (leads_roleSubject hrest)
      exact hl
  · intro h
    exact .single (link_mem_policy.mpr ⟨_, h, rfl, rfl⟩)

theorem allows_iff :
    g.allows user resource action = true ↔
      ∃ role, ⟨user, role⟩ ∈ g.assignments ∧ ⟨role, resource, action⟩ ∈ g.permits := by
  rw [Grants.allows, List.any_eq_true]
  constructor
  · rintro ⟨⟨u, role⟩, hl, h⟩
    rw [Bool.and_eq_true, beq_iff_eq, List.contains_iff_mem] at h
    obtain ⟨rfl, hp⟩ := h
    exact ⟨role, hl, hp⟩
  · rintro ⟨role, hl, hp⟩
    refine ⟨_, hl, ?_⟩
    rw [Bool.and_eq_true, beq_iff_eq, List.contains_iff_mem]
    exact ⟨rfl, hp⟩

/-- Grants allow what their policy does. -/
theorem allows_iff_policy :
    g.allows user resource action = true ↔
      g.policy.Allows (userSubject user) resource action := by
  rw [allows_iff, Policy.Allows]
  constructor
  · rintro ⟨role, hl, hp⟩
    exact ⟨_, List.mem_map.mpr ⟨_, hp, rfl⟩, leads_userSubject_iff.mpr hl, rfl, rfl⟩
  · rintro ⟨rule, hrule, hlead, hobject, haction⟩
    obtain ⟨⟨role, r, a⟩, hp, rfl⟩ := List.mem_map.mp hrule
    obtain rfl : r = resource := hobject
    obtain rfl : a = action := haction
    exact ⟨role, leads_userSubject_iff.mp hlead, hp⟩

end

end ExperimentKpi

/-
# What a reload grants

What a store entitles its users to is said here without any search in it (`Store.Entitles`): a live
user has a live role of the organization with a permission that names the resource and the action
(`PermissionRow.Names`). After a reload exactly these requests are allowed, whatever had been granted
before (`require_reload_iff`), so a second reload changes nothing. If the database is closed, a reload
leaves no grants at all (`require_reload_of_closed`). A reload adds what the rows grant to an empty set
of grants (`grants_eq_addAll`).

The tables are joined by ids, and a search for an id finds the row that has it as long as no id occurs
twice (`Store.AccessKeyed`).

Key definitions: `PermissionRow.Names`, `Store.additions`, `Store.Entitles`, `Store.AccessKeyed`.
Key theorems: `grant?_eq_some_iff`, `records_grants`, `allows_grants_iff`, `require_reload_iff`.
-/
import ExperimentKpi.Api.App
import ExperimentKpi.Proofs.Access.Additions
import Mathlib.Data.List.Nodup

namespace ExperimentKpi

/-! ### Permissions -/

/-- The second part of a permission's code is the resource. The action is the permission's own or, if
it has none, the rest of the code, and `view` where the code ends with the resource. -/
def PermissionRow.Names (p : PermissionRow) (resource action : String) : Prop :=
  ∃ first : List Char, ':' ∉ first ∧ ':' ∉ resource.toList ∧
    (p.code.toList = first ++ ':' :: resource.toList ∧
        action = (if p.action = "" then "view" else p.action) ∨
      ∃ rest : String, p.code.toList = first ++ ':' :: (resource.toList ++ ':' :: rest.toList) ∧
        action = (if p.action = "" then rest else p.action))

theorem colon_not_mem_iff {w : List Char} : ':' ∉ w ↔ ∀ c ∈ w, (c == ':') = false := by
  simp only [beq_eq_false_iff_ne]
  exact ⟨fun h c hc heq => h (heq ▸ hc), fun h hc => h _ hc rfl⟩

section

variable {p : PermissionRow} {resource action : String}

theorem grant?_of_splitAt {first second : List Char} {rest : List (List Char)}
    (h : Text.splitAt (· == ':') p.code.toList = first :: second :: rest) :
    p.grant? = some (String.ofList second,
      if p.action = "" then
        if rest = [] then "view" else String.ofList (List.intercalate [':'] rest)
      else p.action) := by
  unfold PermissionRow.grant?
  rw [h]
  by_cases ha : p.action = "" <;> cases rest <;> simp [ha]

/-- What a permission grants is what it names. -/
theorem grant?_eq_some_iff : p.grant? = some (resource, action) ↔ p.Names resource action := by
  constructor
  · intro h
    obtain ⟨first, parts, hparts⟩ :=
      List.exists_cons_of_ne_nil (Text.splitAt_ne_nil (· == ':') p.code.toList)
    cases parts with
    | nil =>
      rw [PermissionRow.grant?, hparts] at h
      cases h
    | cons second rest =>
      rw [grant?_of_splitAt hparts, Option.some.injEq, Prod.mk.injEq] at h
      obtain ⟨rfl, haction⟩ := h
      obtain ⟨hfirst, hcut⟩ := Text.exists_of_splitAt hparts
      obtain ⟨hnil, -⟩ | ⟨c, t, hc, hcode, ht⟩ := hcut
      · cases hnil
      obtain rfl := beq_iff_eq.mp hc
      obtain ⟨hsecond, hend⟩ := Text.exists_of_splitAt ht
      refine ⟨first, colon_not_mem_iff.mpr hfirst, ?_, ?_⟩
      · rw [String.toList_ofList]
        exact colon_not_mem_iff.mpr hsecond
      · obtain ⟨rfl, rfl⟩ | ⟨c, t', hc, rfl, ht'⟩ := hend
        · rw [if_pos rfl] at haction
          exact .inl ⟨by rw [hcode, String.toList_ofList], haction.symm⟩
        · obtain rfl := beq_iff_eq.mp hc
          have hne : rest ≠ [] := ht' ▸ Text.splitAt_ne_nil _ _
          rw [if_neg hne, ← ht', Text.intercalate_splitAt] at haction
          exact .inr ⟨String.ofList t', by simp only [hcode, String.toList_ofList], haction.symm⟩
  · rintro ⟨first, hfirst, hresource, ⟨hcode, rfl⟩ | ⟨rest, hcode, rfl⟩⟩
    · have hparts : Text.splitAt (· == ':') p.code.toList = [first, resource.toList] := by
        rw [hcode, Text.splitAt_append_cons (colon_not_mem_iff.mp hfirst) rfl,
          Text.splitAt_of_forall (colon_not_mem_iff.mp hresource)]
      rw [grant?_of_splitAt hparts, if_pos rfl, String.ofList_toList]
    · have hparts : Text.splitAt (· == ':') p.code.toList =
          first :: resource.toList :: Text.splitAt (· == ':') rest.toList := by
        rw [hcode, Text.splitAt_append_cons (colon_not_mem_iff.mp hfirst) rfl,
          Text.splitAt_append_cons (colon_not_mem_iff.mp hresource) rfl]
      rw [grant?_of_splitAt hparts, if_neg (Text.splitAt_ne_nil _ _), Text.intercalate_splitAt,
        String.ofList_toList, String.ofList_toList]

end

/-! ### Grants of a store -/

/-- No id occurs twice among the roles, nor among the permissions. -/
structure Store.AccessKeyed (s : Store) : Prop where
  roles : (s.roles.map (·.id)).Nodup
  permissions : (s.permissions.map (·.id)).Nodup

/-- The store has a live user with the id and a live role of that user, of the organization, that has
a permission for the action on the resource. -/
def Store.Entitles (s : Store) (user : Int) (organization : Option Int)
    (resource action : String) : Prop :=
  (∃ u ∈ s.users, u.id = user ∧ u.deleted = false) ∧
    ∃ role ∈ s.roles, role.deleted = false ∧ role.organization = organization ∧
      ⟨user, role.id⟩ ∈ s.userRoles ∧
      ∃ p ∈ s.permissions, ⟨role.id, p.id⟩ ∈ s.rolePermissions ∧ p.Names resource action

section

variable {s : Store}

/-- A search finds the one element it is for. -/
theorem find?_eq_some_iff_of_unique {α : Type} {l : List α} {p : α → Bool} {a : α}
    (hunique : ∀ b ∈ l, ∀ c ∈ l, p b = true → p c = true → b = c) :
    l.find? p = some a ↔ a ∈ l ∧ p a = true := by
  refine ⟨fun h => ⟨List.mem_of_find?_eq_some h, List.find?_some h⟩, fun ⟨ha, hpa⟩ => ?_⟩
  cases hfind : l.find? p with
  | none => exact absurd hpa (List.find?_eq_none.mp hfind a ha)
  | some b =>
    rw [hunique b (List.mem_of_find?_eq_some hfind) a ha (List.find?_some hfind) hpa]

theorem find?_permission_iff (hkeyed : s.AccessKeyed) {id : Int} {p : PermissionRow} :
    s.permissions.find? (·.id == id) = some p ↔ p ∈ s.permissions ∧ p.id = id := by
  rw [find?_eq_some_iff_of_unique, beq_iff_eq]
  intro p hp q hq hp' hq'
  exact List.inj_on_of_nodup_map hkeyed.permissions hp hq
    ((beq_iff_eq.mp hp').trans (beq_iff_eq.mp hq').symm)

theorem find?_role_iff (hkeyed : s.AccessKeyed) {id : Int} {r : RoleRow} :
    s.roles.find? (fun r => r.id == id && !r.deleted) = some r ↔
      r ∈ s.roles ∧ r.id = id ∧ r.deleted = false := by
  rw [find?_eq_some_iff_of_unique, Bool.and_eq_true, beq_iff_eq, Bool.not_eq_true']
  intro r hr q hq hr' hq'
  rw [Bool.and_eq_true, beq_iff_eq] at hr' hq'
  exact List.inj_on_of_nodup_map hkeyed.roles hr hq (hr'.1.trans hq'.1.symm)

theorem mem_permits_iff (hkeyed : s.AccessKeyed) {permit : Permit} :
    permit ∈ s.permits ↔
      ∃ role ∈ s.roles, role.deleted = false ∧ role.id = permit.role ∧
        ∃ p ∈ s.permissions, ⟨role.id, p.id⟩ ∈ s.rolePermissions ∧
          ∃ resource, p.Names resource permit.action ∧
            permit.resource = resourceKey role.organization resource := by
  have hpermit {role : RoleRow} {p : PermissionRow} : role.permit? p = some permit ↔
      role.id = permit.role ∧ ∃ resource, p.Names resource permit.action ∧
        permit.resource = resourceKey role.organization resource := by
    obtain ⟨r, k, a⟩ := permit
    simp only [RoleRow.permit?, Option.map_eq_some_iff, Prod.exists, grant?_eq_some_iff,
      Permit.mk.injEq]
    constructor
    · rintro ⟨resource, action, hnames, hid, hkey, rfl⟩
      exact ⟨hid, resource, hnames, hkey.symm⟩
    · rintro ⟨hid, resource, hnames, hkey⟩
      exact ⟨resource, a, hnames, hid, hkey.symm, rfl⟩
  rw [Store.permits, List.mem_filterMap]
  constructor
  · rintro ⟨⟨roleId, permissionId⟩, hrow, h⟩
    simp only [Option.bind_eq_bind, Option.bind_eq_some_iff] at h
    obtain ⟨p, hfindp, role, hfindr, h⟩ := h
    obtain ⟨hp, rfl⟩ := (find?_permission_iff hkeyed).mp hfindp
    obtain ⟨hrole, rfl, hlive⟩ := (find?_role_iff hkeyed).mp hfindr
    obtain ⟨hid, hnames⟩ := hpermit.mp h
    exact ⟨role, hrole, hlive, hid, p, hp, hrow, hnames⟩
  · rintro ⟨role, hrole, hlive, hid, p, hp, hrow, hnames⟩
    refine ⟨_, hrow, ?_⟩
    simp only [Option.bind_eq_bind, Option.bind_eq_some_iff]
    exact ⟨p, (find?_permission_iff hkeyed).mpr ⟨hp, rfl⟩, role,
      (find?_role_iff hkeyed).mpr ⟨hrole, rfl, hlive⟩, hpermit.mpr ⟨hid, hnames⟩⟩

theorem mem_assignments_iff {a : Assignment} :
    a ∈ s.assignments ↔ a ∈ s.userRoles ∧ ∃ u ∈ s.users, u.id = a.user ∧ u.deleted = false := by
  simp only [Store.assignments, List.mem_filter, List.any_eq_true, Bool.and_eq_true, beq_iff_eq,
    Bool.not_eq_true']

/-- What a reload adds: the permits of the store, then the roles of its users. -/
def Store.additions (s : Store) : List Addition :=
  s.permits.map .permit ++ s.assignments.map .assign

theorem grants_eq_addAll (s : Store) : s.grants = (Grants.empty.addAll s.additions).2 := by
  rw [Grants.addAll, addInTurn_snd, Store.additions, List.foldl_append, List.foldl_map,
    List.foldl_map]
  rfl

/-- The grants of a store are its permits and its roles of users, and nothing else. -/
theorem records_grants (s : Store) : s.grants.Records s.additions := by
  rw [grants_eq_addAll]
  exact (Grants.records_empty.addAll s.additions).1

theorem mem_permits_grants {p : Permit} : p ∈ s.grants.permits ↔ p ∈ s.permits := by
  have hrecords : p ∈ s.grants.permits ↔ .permit p ∈ s.additions := records_grants s (.permit p)
  rw [hrecords, Store.additions]
  simp

theorem mem_assignments_grants {a : Assignment} :
    a ∈ s.grants.assignments ↔ a ∈ s.assignments := by
  have hrecords : a ∈ s.grants.assignments ↔ .assign a ∈ s.additions :=
    records_grants s (.assign a)
  rw [hrecords, Store.additions]
  simp

/-- The grants of a store allow what the store entitles to. -/
theorem allows_grants_iff (hkeyed : s.AccessKeyed) {user : Int} {organization : Option Int}
    {resource action : String} :
    s.grants.allows user (resourceKey organization resource) action = true ↔
      s.Entitles user organization resource action := by
  rw [allows_iff]
  constructor
  · rintro ⟨roleId, hassigned, hpermit⟩
    obtain ⟨hrow, huser⟩ := mem_assignments_iff.mp (mem_assignments_grants.mp hassigned)
    obtain ⟨role, hrole, hlive, rfl, p, hp, hpermission, resource', hnames, hkey⟩ :=
      (mem_permits_iff hkeyed).mp (mem_permits_grants.mp hpermit)
    obtain ⟨horganization, rfl⟩ := resourceKey_inj.mp hkey
    exact ⟨huser, role, hrole, hlive, horganization.symm, hrow, p, hp, hpermission, hnames⟩
  · rintro ⟨huser, role, hrole, hlive, rfl, hrow, p, hp, hpermission, hnames⟩
    refine ⟨role.id, mem_assignments_grants.mpr (mem_assignments_iff.mpr ⟨hrow, huser⟩), ?_⟩
    exact mem_permits_grants.mpr ((mem_permits_iff hkeyed).mpr
      ⟨role, hrole, hlive, rfl, p, hp, hpermission, resource, hnames, rfl⟩)

end

/-! ### Reloading -/

section

variable {app : App} {user : User} {organization : Option Int} {resource action : String}

theorem require_ok_iff {g : Grants} (hadmin : user.isAdmin = false) :
    g.require user organization resource action = .ok () ↔
      g.allows user.id (resourceKey organization resource) action = true := by
  unfold Grants.require
  rw [hadmin]
  by_cases h : g.allows user.id (resourceKey organization resource) action = true <;> simp [h]

theorem require_error_iff {g : Grants} (hadmin : user.isAdmin = false) :
    g.require user organization resource action =
        .error (.denied user.username action resource) ↔
      ¬ g.allows user.id (resourceKey organization resource) action = true := by
  unfold Grants.require
  rw [hadmin]
  by_cases h : g.allows user.id (resourceKey organization resource) action = true <;> simp [h]

theorem reload_of_isOpen (hopen : app.isOpen = true) :
    app.reload = ({ app with grants := app.store.grants }, .ok ()) := by
  simp only [App.reload, App.database, hopen, if_true]

/-- A reload from a closed database leaves nothing granted. -/
theorem require_reload_of_closed (hclosed : app.isOpen = false) (hadmin : user.isAdmin = false) :
    app.reload.1.grants.require user organization resource action =
      .error (.denied user.username action resource) := by
  have hreload : app.reload.1.grants = Grants.empty := by
    simp only [App.reload, App.database, hclosed, Bool.false_eq_true, if_false]
  rw [require_error_iff hadmin, hreload]
  exact Bool.false_ne_true

/-- **A reload grants what the store entitles to, and nothing else**, to every user that is no
administrator; a policy over texts that the grants stand for decides the same. What had been granted
before plays no part, and a second reload changes nothing. -/
theorem require_reload_iff (app : App) (hopen : app.isOpen = true)
    (hkeyed : app.store.AccessKeyed) (user : User) (hadmin : user.isAdmin = false)
    (organization : Option Int) (resource action : String) :
    app.reload.2 = .ok () ∧
      (app.reload.1.grants.require user organization resource action = .ok () ↔
        app.store.Entitles user.id organization resource action) ∧
      (app.reload.1.grants.require user organization resource action =
          .error (.denied user.username action resource) ↔
        ¬ app.store.Entitles user.id organization resource action) ∧
      (app.reload.1.grants.policy.Allows (userSubject user.id) (resourceKey organization resource)
          action ↔
        app.store.Entitles user.id organization resource action) ∧
      (∀ granted : Grants, ({ app with grants := granted } : App).reload = app.reload) ∧
      app.reload.1.reload = app.reload := by
  have hreload := reload_of_isOpen hopen
  have hallows : app.store.grants.allows user.id (resourceKey organization resource) action = true ↔
      app.store.Entitles user.id organization resource action := allows_grants_iff hkeyed
  refine ⟨by rw [hreload], ?_, ?_, ?_, fun granted => ?_, ?_⟩
  · rw [require_ok_iff hadmin, hreload, hallows]
  · rw [require_error_iff hadmin, hreload, hallows]
  · rw [← allows_iff_policy, hreload, hallows]
  · exact (reload_of_isOpen hopen).trans hreload.symm
  · rw [hreload]
    exact reload_of_isOpen hopen

end

/-- A user of one organization who was granted something in the whole system. The permission of the
user's role has no action of its own. -/
def staffed : App where
  store :=
    { Store.initial with
      users := [⟨1, "grace", none, some 5, false, false⟩]
      roles := [⟨3, "analyst", "Analyst", some 5, false⟩]
      permissions := [⟨7, "api:report:run:daily", "Run reports", "report", ""⟩]
      rolePermissions := [⟨3, 7⟩]
      userRoles := [⟨1, 3⟩] }
  isOpen := true
  grants := ⟨[⟨4, resourceKey none "report", "run:daily"⟩], [⟨1, 4⟩]⟩
  warehouse := {}
  key := ⟨"secret", 3600⟩

/-- The reload brings what the role permits in the organization and ends the older grant. -/
theorem require_reload_staffed :
    staffed.isOpen = true ∧ staffed.store.AccessKeyed ∧
      staffed.grants.require ⟨1, "grace", false⟩ none "report" "run:daily" = .ok () ∧
      staffed.reload.1.grants.require ⟨1, "grace", false⟩ (some 5) "report" "run:daily" = .ok () ∧
      staffed.reload.1.grants.require ⟨1, "grace", false⟩ none "report" "run:daily" =
        .error (.denied "grace" "run:daily" "report") := by
  have hkeyed : staffed.store.AccessKeyed := ⟨by decide, by decide⟩
  have hold : staffed.grants.require ⟨1, "grace", false⟩ none "report" "run:daily" = .ok () := by
    rw [require_ok_iff rfl, allows_iff]
    exact ⟨4, by decide, by decide⟩
  have hnames : (⟨7, "api:report:run:daily", "Run reports", "report", ""⟩ : PermissionRow).Names
      "report" "run:daily" :=
    ⟨"api".toList, by decide, by decide, .inr ⟨"run:daily", by decide, by decide⟩⟩
  have hentitled : staffed.store.Entitles 1 (some 5) "report" "run:daily" :=
    ⟨⟨_, List.mem_singleton_self _, rfl, rfl⟩, _, List.mem_singleton_self _, rfl, rfl,
      List.mem_singleton_self _, _, List.mem_singleton_self _, List.mem_singleton_self _, hnames⟩
  have hnot : ¬ staffed.store.Entitles 1 none "report" "run:daily" := by
    rintro ⟨-, role, hrole, -, horganization, -⟩
    obtain rfl := List.mem_singleton.mp hrole
    cases horganization
  obtain ⟨-, hok, -⟩ := require_reload_iff staffed rfl hkeyed ⟨1, "grace", false⟩ rfl (some 5)
    "report" "run:daily"
  obtain ⟨-, -, hdenied, -⟩ := require_reload_iff staffed rfl hkeyed ⟨1, "grace", false⟩ rfl none
    "report" "run:daily"
  exact ⟨rfl, hkeyed, hold, hok.mpr hentitled, hdenied.mpr hnot⟩

end ExperimentKpi

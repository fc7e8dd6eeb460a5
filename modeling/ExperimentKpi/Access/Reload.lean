/-
# Grants from the store

The grants that the tables of roles and permissions stand for. A permission's code such as
`api:kpi:edit` names a resource in its second part; the action stands in a column of its own, or in
the parts after the resource, or is `view`. A code of one part grants nothing, and so do deleted roles
and deleted users.

Key definitions: `PermissionRow.grant?`, `Store.permits`, `Store.assignments`, `Store.grants`.
-/
import ExperimentKpi.Store.Basic
import ExperimentKpi.Text.Blank

namespace ExperimentKpi

/-- The resource and the action of a permission. -/
def PermissionRow.grant? (p : PermissionRow) : Option (String × String) :=
  match Text.splitAt (· == ':') p.code.toList with
  | _ :: resource :: rest =>
    let action :=
      if !p.action.isEmpty then p.action
      else if rest.isEmpty then "view"
      else String.ofList (List.intercalate [':'] rest)
    some (String.ofList resource, action)
  | _ => none

/-- The permit that a permission of a role stands for. -/
def RoleRow.permit? (r : RoleRow) (p : PermissionRow) : Option Permit :=
  p.grant?.map fun (resource, action) => ⟨r.id, resourceKey r.organization resource, action⟩

namespace Store

/-- The permits of the live roles. -/
def permits (s : Store) : List Permit :=
  s.rolePermissions.filterMap fun rp => do
    let p ← s.permissions.find? fun p => p.id == rp.permission
    let r ← s.roles.find? fun r => r.id == rp.role && !r.deleted
    r.permit? p

/-- The roles of the live users. -/
def assignments (s : Store) : List Assignment :=
  s.userRoles.filter fun a => s.users.any fun u => u.id == a.user && !u.deleted

/-- All grants that the store stands for. -/
def grants (s : Store) : Grants :=
  let g := s.permits.foldl (fun g p => (g.permit p).2) Grants.empty
  s.assignments.foldl (fun g a => (g.assign a).2) g

end Store

end ExperimentKpi

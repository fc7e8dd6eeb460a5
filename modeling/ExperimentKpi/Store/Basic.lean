/-
# The store

The tables that the service works on, as lists of rows. Times are kept as they are stored; whether
they can be read shows when a row is. Ids are given in increasing order and never twice, since no row
is ever removed.

Key definitions: `Store`, `KpiRow`, `Store.initial`, `nextId`.
-/
import ExperimentKpi.Access.Grants
import ExperimentKpi.Experiment.Basic

namespace ExperimentKpi

/-- A stored time: the clock's, which no answer shows, or a text. -/
inductive StoredTime where
  | clock
  | text (s : String)
deriving DecidableEq, Repr

/-- Whether a stored time can be read. -/
def StoredTime.isReadable : StoredTime → Bool
  | clock => true
  | text s => (DateTime.ofStored? s).isSome

/-- An organization. -/
structure OrganizationRow where
  id : Int
  code : String
  name : String
  deleted : Bool
deriving DecidableEq, Repr

/-- The settings of an organization. -/
structure OrganizationSettingsRow where
  id : Int
  settings : OrganizationSettings
deriving DecidableEq, Repr

/-- An experiment as stored. -/
structure ExperimentRow where
  id : Int
  project : Int
  name : String
  deviceType : String
  start : String
  finish : String
  kpi : Option Int
  deleted : Bool
deriving DecidableEq, Repr

/-- A model that an experiment runs. -/
structure ModelRow where
  id : Int
  experiment : Int
  name : String
  deleted : Bool
deriving DecidableEq, Repr

/-- The KPI of an experiment. -/
structure KpiRow where
  id : Int
  project : Int
  experiment : Int
  name : String
  createdBy : Option Int
  updatedBy : Option Int
  createTime : StoredTime
  updateTime : StoredTime
  deleted : Bool
  settings : String
  reaction : Option String
  reactionIsCustom : Bool
  report : Option String
  reportIsCustom : Bool
deriving DecidableEq, Repr

/-- A user. -/
structure UserRow where
  id : Int
  username : String
  email : Option String
  organization : Option Int
  isAdmin : Bool
  deleted : Bool
deriving DecidableEq, Repr

/-- A role, of an organization or of the whole system. -/
structure RoleRow where
  id : Int
  code : String
  name : String
  organization : Option Int
  deleted : Bool
deriving DecidableEq, Repr

/-- A permission. -/
structure PermissionRow where
  id : Int
  code : String
  name : String
  resource : String
  action : String
deriving DecidableEq, Repr

/-- A permission of a role. -/
structure RolePermissionRow where
  role : Int
  permission : Int
deriving DecidableEq, Repr

/-- All tables. -/
structure Store where
  organizations : List OrganizationRow
  organizationSettings : List OrganizationSettingsRow
  projects : List Project
  experiments : List ExperimentRow
  models : List ModelRow
  variations : List Variation
  conditions : List Condition
  kpis : List KpiRow
  users : List UserRow
  roles : List RoleRow
  permissions : List PermissionRow
  rolePermissions : List RolePermissionRow
  userRoles : List Assignment
deriving DecidableEq, Repr

/-- The id of the next row of a table: one more than the largest, from 1. A counter that never goes back
gives the same, as no row is ever taken away. -/
def nextId (ids : List Int) : Int :=
  ids.foldl max 0 + 1

/-- The store before anything is put in: two permissions exist. -/
def Store.initial : Store where
  organizations := []
  organizationSettings := []
  projects := []
  experiments := []
  models := []
  variations := []
  conditions := []
  kpis := []
  users := []
  roles := []
  permissions :=
    [⟨1, "api:kpi:edit", "Edit KPI settings", "kpi", "edit"⟩,
      ⟨2, "api:kpi:editQuery", "Edit generated KPI queries", "kpi", "editQuery"⟩]
  rolePermissions := []
  userRoles := []

end ExperimentKpi

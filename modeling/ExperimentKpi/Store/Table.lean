/-
# Tables

The tables of the store by their names, for putting rows in and for changing single columns. A row
that is put in without an id gets the next one of its table.

Key definitions: `Table`, `Store.tables`, `Store.insert?`, `Store.update?`.
-/
import ExperimentKpi.Store.Column

namespace ExperimentKpi

/-- One table of the store: its rows, and how a row of it is spelt in columns. -/
structure Table where
  {Row : Type}
  name : String
  rows : Store → List Row
  withRows : Store → List Row → Store
  /-- The id of a row, if rows of the table have one. -/
  id? : Row → Option Int
  columns : Row → Members
  /-- The row that columns spell; it has the given id if the columns give none. -/
  ofColumns? : Int → Members → Option Row

namespace Table

/-- The store with one row more in the table. -/
def insert? (t : Table) (s : Store) (columns : Members) : Option Store := do
  let rows := t.rows s
  let row ← t.ofColumns? (nextId (rows.filterMap t.id?)) columns
  return t.withRows s (rows ++ [row])

/-- A row with some columns changed. -/
def change? (t : Table) (changes : Members) (row : t.Row) : Option t.Row :=
  t.ofColumns? ((t.id? row).getD 0) (changes ++ t.columns row)

/-- The store with some columns of the row with an id changed, and the number of such rows. -/
def update? (t : Table) (s : Store) (id : Int) (changes : Members) : Option (Nat × Store) := do
  let rows := t.rows s
  let isMeant := fun row => t.id? row == some id
  let changed ← rows.mapM fun row => if isMeant row then t.change? changes row else some row
  return (rows.countP isMeant, t.withRows s changed)

end Table

namespace Store

/-- All tables. -/
def tables : List Table :=
  [{ name := "organizations"
     rows := organizations
     withRows := fun s rows => { s with organizations := rows }
     id? := fun r => some r.id
     columns := OrganizationRow.columns
     ofColumns? := OrganizationRow.ofColumns? },
    { name := "organization_settings"
      rows := organizationSettings
      withRows := fun s rows => { s with organizationSettings := rows }
      id? := fun r => some r.id
      columns := OrganizationSettingsRow.columns
      ofColumns? := OrganizationSettingsRow.ofColumns? },
    { name := "projects"
      rows := projects
      withRows := fun s rows => { s with projects := rows }
      id? := fun r => some r.id
      columns := Project.columns
      ofColumns? := Project.ofColumns? },
    { name := "experiments"
      rows := experiments
      withRows := fun s rows => { s with experiments := rows }
      id? := fun r => some r.id
      columns := ExperimentRow.columns
      ofColumns? := ExperimentRow.ofColumns? },
    { name := "experiment_models"
      rows := models
      withRows := fun s rows => { s with models := rows }
      id? := fun r => some r.id
      columns := ModelRow.columns
      ofColumns? := ModelRow.ofColumns? },
    { name := "variations"
      rows := variations
      withRows := fun s rows => { s with variations := rows }
      id? := fun r => some r.id
      columns := Variation.columns
      ofColumns? := Variation.ofColumns? },
    { name := "conditions"
      rows := conditions
      withRows := fun s rows => { s with conditions := rows }
      id? := fun r => some r.id
      columns := Condition.columns
      ofColumns? := Condition.ofColumns? },
    { name := "kpis"
      rows := kpis
      withRows := fun s rows => { s with kpis := rows }
      id? := fun r => some r.id
      columns := KpiRow.columns
      ofColumns? := KpiRow.ofColumns? },
    { name := "users"
      rows := users
      withRows := fun s rows => { s with users := rows }
      id? := fun r => some r.id
      columns := UserRow.columns
      ofColumns? := UserRow.ofColumns? },
    { name := "roles"
      rows := roles
      withRows := fun s rows => { s with roles := rows }
      id? := fun r => some r.id
      columns := RoleRow.columns
      ofColumns? := RoleRow.ofColumns? },
    { name := "permissions"
      rows := permissions
      withRows := fun s rows => { s with permissions := rows }
      id? := fun r => some r.id
      columns := PermissionRow.columns
      ofColumns? := PermissionRow.ofColumns? },
    { name := "role_permissions"
      rows := rolePermissions
      withRows := fun s rows => { s with rolePermissions := rows }
      id? := fun _ => none
      columns := RolePermissionRow.columns
      ofColumns? := fun _ => RolePermissionRow.ofColumns? },
    { name := "user_roles"
      rows := userRoles
      withRows := fun s rows => { s with userRoles := rows }
      id? := fun _ => none
      columns := Assignment.columns
      ofColumns? := fun _ => Assignment.ofColumns? }]

/-- The table with a name. -/
def table? (name : String) : Option Table :=
  tables.find? fun t => t.name == name

/-- The store with one row more in the table with a name. -/
def insert? (s : Store) (name : String) (columns : Members) : Option Store :=
  (table? name).bind fun t => t.insert? s columns

/-- The store with some columns of a row changed, and the number of changed rows. -/
def update? (s : Store) (name : String) (id : Int) (changes : Members) : Option (Nat × Store) :=
  (table? name).bind fun t => t.update? s id changes

end Store

end ExperimentKpi

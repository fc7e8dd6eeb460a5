/-
# Rows as columns

Every row is a list of named columns, which hold texts, integers, flags or nothing. A column that is
not given has its usual value where there is one. Reading the columns of a row gives the row back.

Key definitions: `Column.int?`, `Column.flag?`, `Column.text?`, `Column.time?`, `Columns.read?`, and
for every kind of row `columns` and `ofColumns?`.
-/
import ExperimentKpi.Json.Basic
import ExperimentKpi.Store.Basic

namespace ExperimentKpi

namespace Column

/-- An integer. -/
def int? : Json → Option Int
  | .num (.int z) => some z
  | .bool b => some (if b then 1 else 0)
  | _ => none

/-- A flag; every integer but zero is a set one. -/
def flag? : Json → Option Bool
  | .bool b => some b
  | .num (.int z) => some (z != 0)
  | _ => none

/-- A text. -/
def text? : Json → Option String
  | .str s => some s
  | _ => none

/-- A stored time. -/
def time? (v : Json) : Option StoredTime :=
  (text? v).map .text

/-- A value that may be missing. -/
def orNull {α : Type} (read : Json → Option α) : Json → Option (Option α)
  | .null => some none
  | v => (read v).map some

/-- The column of a value that may be missing. -/
def ofOption {α : Type} (write : α → Json) : Option α → Json
  | none => .null
  | some a => write a

end Column

namespace Columns

/-- The value of a column, or its usual value if the column is not given. -/
def read? {α : Type} (cs : Members) (name : String) (read : Json → Option α)
    (usual : Option α) : Option α :=
  match Members.get? cs name with
  | some v => read v
  | none => usual

/-- The value of a column that has to be given. -/
def required? {α : Type} (cs : Members) (name : String) (read : Json → Option α) : Option α :=
  read? cs name read none

/-- The value of a column that may be null and is null unless it is given. -/
def nullable? {α : Type} (cs : Members) (name : String) (read : Json → Option α) :
    Option (Option α) :=
  read? cs name (Column.orNull read) (some none)

/-- The column of a stored time; the clock's is left out, being the usual one. -/
def ofTime (name : String) : StoredTime → Members
  | .clock => []
  | .text s => [(name, .str s)]

end Columns

open Column Columns

/-- The columns of an organization. -/
def OrganizationRow.columns (r : OrganizationRow) : Members :=
  [("id", .int r.id), ("code", .str r.code), ("name", .str r.name), ("delete_flg", .bool r.deleted)]

/-- The organization that columns spell. -/
def OrganizationRow.ofColumns? (id : Int) (cs : Members) : Option OrganizationRow := do
  return {
    id := ← read? cs "id" int? id
    code := ← required? cs "code" text?
    name := ← required? cs "name" text?
    deleted := ← read? cs "delete_flg" flag? false }

/-- The columns of an organization's settings. -/
def OrganizationSettingsRow.columns (r : OrganizationSettingsRow) : Members :=
  [("id", .int r.id), ("organization_id", .int r.settings.organization),
    ("template_type", .str r.settings.templateType),
    ("reaction_query_template", .str r.settings.reaction),
    ("reaction_r2d2_query_template", .str r.settings.reactionR2d2),
    ("reaction_ctc_query_template", .str r.settings.reactionClickThrough),
    ("report_query_template", .str r.settings.report)]

/-- The settings of an organization that columns spell. -/
def OrganizationSettingsRow.ofColumns? (id : Int) (cs : Members) :
    Option OrganizationSettingsRow := do
  return {
    id := ← read? cs "id" int? id
    settings := {
      organization := ← required? cs "organization_id" int?
      templateType := ← read? cs "template_type" text? "REGULAR"
      reaction := ← read? cs "reaction_query_template" text? ""
      reactionR2d2 := ← read? cs "reaction_r2d2_query_template" text? ""
      reactionClickThrough := ← read? cs "reaction_ctc_query_template" text? ""
      report := ← read? cs "report_query_template" text? "" } }

/-- The columns of a project. -/
def Project.columns (p : Project) : Members :=
  [("id", .int p.id), ("organization_id", ofOption .int p.organization), ("name", .str p.name),
    ("delete_flg", .bool p.deleted)]

/-- The project that columns spell. -/
def Project.ofColumns? (id : Int) (cs : Members) : Option Project := do
  return {
    id := ← read? cs "id" int? id
    organization := ← nullable? cs "organization_id" int?
    name := ← required? cs "name" text?
    deleted := ← read? cs "delete_flg" flag? false }

/-- The columns of an experiment. -/
def ExperimentRow.columns (r : ExperimentRow) : Members :=
  [("id", .int r.id), ("project_id", .int r.project), ("name", .str r.name),
    ("device_type", .str r.deviceType), ("schedule_start_time", .str r.start),
    ("schedule_end_time", .str r.finish), ("kpi_id", ofOption .int r.kpi),
    ("delete_flg", .bool r.deleted)]

/-- The experiment that columns spell. -/
def ExperimentRow.ofColumns? (id : Int) (cs : Members) : Option ExperimentRow := do
  return {
    id := ← read? cs "id" int? id
    project := ← required? cs "project_id" int?
    name := ← required? cs "name" text?
    deviceType := ← read? cs "device_type" text? "PC"
    start := ← required? cs "schedule_start_time" text?
    finish := ← required? cs "schedule_end_time" text?
    kpi := ← nullable? cs "kpi_id" int?
    deleted := ← read? cs "delete_flg" flag? false }

/-- The columns of a model. -/
def ModelRow.columns (r : ModelRow) : Members :=
  [("id", .int r.id), ("experiment_id", .int r.experiment), ("model_name", .str r.name),
    ("delete_flg", .bool r.deleted)]

/-- The model that columns spell. -/
def ModelRow.ofColumns? (id : Int) (cs : Members) : Option ModelRow := do
  return {
    id := ← read? cs "id" int? id
    experiment := ← required? cs "experiment_id" int?
    name := ← required? cs "model_name" text?
    deleted := ← read? cs "delete_flg" flag? false }

/-- The columns of a variation. -/
def Variation.columns (v : Variation) : Members :=
  [("id", .int v.id), ("experiment_id", .int v.experiment), ("type", .str v.kind),
    ("is_root", .bool v.isRoot)]

/-- The variation that columns spell. -/
def Variation.ofColumns? (id : Int) (cs : Members) : Option Variation := do
  return {
    id := ← read? cs "id" int? id
    experiment := ← required? cs "experiment_id" int?
    kind := ← required? cs "type" text?
    isRoot := ← read? cs "is_root" flag? true }

/-- The columns of a condition. -/
def Condition.columns (c : Condition) : Members :=
  [("id", .int c.id), ("variation_id", .int c.variation), ("name", .str c.name),
    ("nested_variation_id", ofOption .int c.nested)]

/-- The condition that columns spell. -/
def Condition.ofColumns? (id : Int) (cs : Members) : Option Condition := do
  return {
    id := ← read? cs "id" int? id
    variation := ← required? cs "variation_id" int?
    name := ← required? cs "name" text?
    nested := ← nullable? cs "nested_variation_id" int? }

/-- The columns of a KPI. -/
def KpiRow.columns (k : KpiRow) : Members :=
  [("id", .int k.id), ("project_id", .int k.project), ("experiment_id", .int k.experiment),
    ("name", .str k.name), ("created_by", ofOption .int k.createdBy),
    ("updated_by", ofOption .int k.updatedBy)] ++
    ofTime "create_time" k.createTime ++ ofTime "update_time" k.updateTime ++
    [("delete_flg", .bool k.deleted), ("kpi_settings", .str k.settings),
      ("reaction_query", ofOption .str k.reaction),
      ("if_custom_reaction_query", .bool k.reactionIsCustom),
      ("report_query", ofOption .str k.report), ("if_custom_report_query", .bool k.reportIsCustom)]

/-- The KPI that columns spell. -/
def KpiRow.ofColumns? (id : Int) (cs : Members) : Option KpiRow := do
  return {
    id := ← read? cs "id" int? id
    project := ← required? cs "project_id" int?
    experiment := ← required? cs "experiment_id" int?
    name := ← required? cs "name" text?
    createdBy := ← nullable? cs "created_by" int?
    updatedBy := ← nullable? cs "updated_by" int?
    createTime := ← read? cs "create_time" time? (some .clock)
    updateTime := ← read? cs "update_time" time? (some .clock)
    deleted := ← read? cs "delete_flg" flag? false
    settings := ← required? cs "kpi_settings" text?
    reaction := ← nullable? cs "reaction_query" text?
    reactionIsCustom := ← read? cs "if_custom_reaction_query" flag? false
    report := ← nullable? cs "report_query" text?
    reportIsCustom := ← read? cs "if_custom_report_query" flag? false }

/-- The columns of a user. -/
def UserRow.columns (u : UserRow) : Members :=
  [("id", .int u.id), ("username", .str u.username), ("email", ofOption .str u.email),
    ("organization_id", ofOption .int u.organization), ("is_system_admin", .bool u.isAdmin),
    ("delete_flg", .bool u.deleted)]

/-- The user that columns spell. -/
def UserRow.ofColumns? (id : Int) (cs : Members) : Option UserRow := do
  return {
    id := ← read? cs "id" int? id
    username := ← required? cs "username" text?
    email := ← nullable? cs "email" text?
    organization := ← nullable? cs "organization_id" int?
    isAdmin := ← read? cs "is_system_admin" flag? false
    deleted := ← read? cs "delete_flg" flag? false }

/-- The columns of a role. -/
def RoleRow.columns (r : RoleRow) : Members :=
  [("id", .int r.id), ("code", .str r.code), ("name", .str r.name),
    ("organization_id", ofOption .int r.organization), ("delete_flg", .bool r.deleted)]

/-- The role that columns spell. -/
def RoleRow.ofColumns? (id : Int) (cs : Members) : Option RoleRow := do
  return {
    id := ← read? cs "id" int? id
    code := ← required? cs "code" text?
    name := ← required? cs "name" text?
    organization := ← nullable? cs "organization_id" int?
    deleted := ← read? cs "delete_flg" flag? false }

/-- The columns of a permission. -/
def PermissionRow.columns (p : PermissionRow) : Members :=
  [("id", .int p.id), ("code", .str p.code), ("name", .str p.name), ("resource", .str p.resource),
    ("action", .str p.action)]

/-- The permission that columns spell. -/
def PermissionRow.ofColumns? (id : Int) (cs : Members) : Option PermissionRow := do
  return {
    id := ← read? cs "id" int? id
    code := ← required? cs "code" text?
    name := ← required? cs "name" text?
    resource := ← required? cs "resource" text?
    action := ← required? cs "action" text? }

/-- The columns of a permission of a role. -/
def RolePermissionRow.columns (r : RolePermissionRow) : Members :=
  [("role_id", .int r.role), ("permission_id", .int r.permission)]

/-- The permission of a role that columns spell. -/
def RolePermissionRow.ofColumns? (cs : Members) : Option RolePermissionRow := do
  return {
    role := ← required? cs "role_id" int?
    permission := ← required? cs "permission_id" int? }

/-- The columns of a user's role. -/
def Assignment.columns (a : Assignment) : Members :=
  [("user_id", .int a.user), ("role_id", .int a.role)]

/-- The user's role that columns spell. -/
def Assignment.ofColumns? (cs : Members) : Option Assignment := do
  return {
    user := ← required? cs "user_id" int?
    role := ← required? cs "role_id" int? }

theorem Column.orNull_ofOption_int (o : Option Int) :
    orNull int? (ofOption .int o) = some o := by
  cases o <;> rfl

theorem Column.orNull_ofOption_text (o : Option String) :
    orNull text? (ofOption .str o) = some o := by
  cases o <;> rfl

/-- Reading the columns of a KPI gives the KPI back. -/
theorem KpiRow.ofColumns?_columns (id : Int) (k : KpiRow) : ofColumns? id k.columns = some k := by
  obtain ⟨_, _, _, _, createdBy, updatedBy, createTime, updateTime, _, _, reaction, _, report, _⟩ := k
  have h1 := orNull_ofOption_int createdBy
  have h2 := orNull_ofOption_int updatedBy
  have h3 := orNull_ofOption_text reaction
  have h4 := orNull_ofOption_text report
  cases createTime <;> cases updateTime <;>
    simp [ofColumns?, columns, ofTime, read?, required?, nullable?, Members.get?, List.lookup_cons,
      int?, flag?, text?, time?, Json.int, h1, h2, h3, h4]

/-- Reading the columns of an experiment gives the experiment back. -/
theorem ExperimentRow.ofColumns?_columns (id : Int) (r : ExperimentRow) :
    ofColumns? id r.columns = some r := by
  obtain ⟨_, _, _, _, _, _, kpi, _⟩ := r
  cases kpi <;> rfl

end ExperimentKpi

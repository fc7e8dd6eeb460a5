/-
# Grants

Who may do what. A grant lets a role perform an action on a resource, and users have roles. Resources
belong to an organization or to the whole system, which their keys tell apart. System administrators
may do everything.

Key definitions: `Grants`, `Grants.permit`, `Grants.assign`, `Grants.allows`, `resourceKey`,
`User`, `Grants.require`.
-/
import ExperimentKpi.Failure

namespace ExperimentKpi

/-- What roles may do: a role, the key of a resource and an action each. -/
structure Permit where
  role : Int
  resource : String
  action : String
deriving DecidableEq, Repr

/-- The role of a user. -/
structure Assignment where
  user : Int
  role : Int
deriving DecidableEq, Repr

/-- All permits and all roles of users, in the order in which they were added. -/
structure Grants where
  permits : List Permit
  assignments : List Assignment
deriving DecidableEq, Repr

namespace Grants

/-- No grants. -/
def empty : Grants := ⟨[], []⟩

/-- One permit more, and whether it is new. -/
def permit (g : Grants) (p : Permit) : Bool × Grants :=
  if p ∈ g.permits then (false, g) else (true, { g with permits := g.permits ++ [p] })

/-- One role of a user more, and whether it is new. -/
def assign (g : Grants) (a : Assignment) : Bool × Grants :=
  if a ∈ g.assignments then (false, g)
  else (true, { g with assignments := g.assignments ++ [a] })

/-- Whether some role of a user may perform an action on a resource. -/
def allows (g : Grants) (user : Int) (resource action : String) : Bool :=
  g.assignments.any fun a =>
    a.user == user && g.permits.contains ⟨a.role, resource, action⟩

end Grants

/-- The key of a resource of an organization, or of the whole system. -/
def resourceKey (organization : Option Int) (resource : String) : String :=
  match organization with
  | some id => s!"org:{id}:{resource}"
  | none => s!"system:{resource}"

/-- The user that a request comes from. -/
structure User where
  id : Int
  username : String
  isAdmin : Bool
deriving DecidableEq, Repr

/-- Nothing for a user who may perform an action on a resource of an organization. -/
def Grants.require (g : Grants) (user : User) (organization : Option Int)
    (resource action : String) : Except Failure Unit :=
  if user.isAdmin ∨ g.allows user.id (resourceKey organization resource) action then .ok ()
  else .error (.denied user.username action resource)

end ExperimentKpi

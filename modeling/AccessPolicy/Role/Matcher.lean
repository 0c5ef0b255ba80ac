import AccessPolicy.Event
import AccessPolicy.Request
import AccessPolicy.Role.Cycle

/-! Role predicates: through a hierarchy, by a `RoleMatcher`, and by the exact names of the roles
that a subject holds. -/

namespace AccessPolicy

/-- Makes role predicates that honour a hierarchy. -/
structure RoleMatcher where
  hierarchy : RoleHierarchy
deriving DecidableEq

namespace RoleMatcher

instance : Inhabited RoleMatcher := ⟨⟨.empty⟩⟩

/-- A matcher for a hierarchy; a cycle in it is reported and otherwise harmless. -/
def ofHierarchy (h : RoleHierarchy) : Logged RoleMatcher := do
  match h.findCycle? with
  | some cycle => Recorded.note (.hierarchyCycle cycle)
  | none => pure ()
  return ⟨h⟩

/-- Exact role names only. -/
def flat : RoleMatcher := ⟨.empty⟩

/-- A held role is the target or implies it. -/
def roleMatches (m : RoleMatcher) (held target : String) : Bool := m.hierarchy.implies held target

variable {S R : Type} [RoleBearer S]

/-- The subject holds `target` or a role that implies it. -/
def hasRole (m : RoleMatcher) (target : String) : RequestPredicate S R :=
  Predicate.ofBool fun q => (RoleBearer.roles q.subject).any fun r => m.roleMatches r target

/-- The subject holds one of `targets` or a role that implies one. -/
def hasAnyRole (m : RoleMatcher) (targets : List String) : RequestPredicate S R :=
  Predicate.ofBool fun q =>
    (RoleBearer.roles q.subject).any fun r => targets.any fun t => m.roleMatches r t

end RoleMatcher

section

variable {S R : Type} [RoleBearer S]

/-- The subject holds a role of this very name. -/
def holdsRole (role : String) : RequestPredicate S R :=
  Predicate.ofBool fun q => (RoleBearer.roles q.subject).contains role

/-- The subject holds one of the roles itself. -/
def holdsAnyRole (roles : List String) : RequestPredicate S R :=
  Predicate.ofBool fun q => (RoleBearer.roles q.subject).any roles.contains

end

end AccessPolicy

import AccessPolicy.Role.Hierarchy

/-! Declarative policies: what each role may do, and which roles imply which. -/

namespace AccessPolicy

/-- What a role may do: rules that are the wildcard, an action, or an action with a condition. -/
structure RolePolicy where
  allow : List String
deriving DecidableEq, Repr, Inhabited

/-- The policies of all roles and the hierarchy between them. -/
structure Config where
  policies : KeyMap RolePolicy
  hierarchy : RoleHierarchy
deriving DecidableEq, Inhabited

namespace Config

/-- No role has rules and none implies another. -/
def empty : Config := ⟨.empty, .empty⟩

/-- Adds rules to those that `role` already has. -/
def withRole (c : Config) (role : String) (allow : List String) : Config :=
  { c with policies := c.policies.upsert role fun old => ⟨(old.map (·.allow)).getD [] ++ allow⟩ }

/-- The configuration with this hierarchy in place of its own. -/
def withHierarchy (c : Config) (h : RoleHierarchy) : Config := { c with hierarchy := h }

end Config

end AccessPolicy

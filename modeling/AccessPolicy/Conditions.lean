import AccessPolicy.Compilation
import AccessPolicy.Entity
import AccessPolicy.Predicate.Comparison

/-! The built-in conditions, to which rules of policy files may refer, and compiling with them. -/

namespace AccessPolicy

/-- The subject has an id: an anonymous subject does not match a resource without owner. -/
def hasId : RequestPredicate Entity Entity := Predicate.ofBool fun q => q.subject.id ≠ ""

/-- The conditions `isOwner`, `isCollaborator`, `sharesTag` and `isActive`. -/
def builtinRegistry : Registry Entity Entity :=
  Registry.empty
    |>.register "isOwner" (hasId.and isOwner)
    |>.register "isCollaborator" (hasId.and (subjectInResourceList Entity.id Entity.collaborators))
    |>.register "sharesTag" (listIntersection Entity.tags Entity.tags)
    |>.register "isActive" (subjectAttrTrue "active")

/-- Compiles a configuration with the built-in conditions and its own hierarchy. -/
def compileConfig (config : Config) : Logged (Compilation Entity Entity) := do
  let roles ← RoleMatcher.ofHierarchy config.hierarchy
  compile config roles builtinRegistry.lookup

end AccessPolicy

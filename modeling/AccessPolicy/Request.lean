import AccessPolicy.Predicate

/-! Access requests, and what predicates may ask of a subject or a resource. Subjects and resources
are any types; a predicate requires only the capabilities that it uses. -/

namespace AccessPolicy

/-- Who wants to do what to which resource. -/
structure Request (S R : Type) where
  subject : S
  resource : R
  action : String
deriving DecidableEq, Repr

/-- A decision about access requests. -/
abbrev RequestPredicate (S R : Type) : Type := Predicate (Request S R)

/-- Carries role names. -/
class RoleBearer (S : Type) where
  roles : S → List String

/-- Has a stable identity. -/
class Identifiable (S : Type) (Id : outParam Type) where
  id : S → Id

/-- Records its owner. -/
class Ownable (R : Type) (Id : outParam Type) where
  ownerId : R → Id

/-- Carries free-form attributes with values in `V`; a key may be absent. -/
class Attributable (S : Type) (V : outParam Type) where
  attribute? : S → String → Option V

end AccessPolicy

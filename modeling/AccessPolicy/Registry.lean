import AccessPolicy.Error
import AccessPolicy.Request

/-! Named predicates, to which the conditions of rules refer. -/

namespace AccessPolicy

/-- What resolves the name of a condition. -/
abbrev Provider (S R : Type) : Type := String → Except PolicyError (RequestPredicate S R)

/-- A table of named predicates. -/
structure Registry (S R : Type) where
  predicates : KeyMap (RequestPredicate S R)

namespace Registry

variable {S R : Type}

/-- The registry without predicates. -/
def empty : Registry S R := ⟨.empty⟩

instance : Inhabited (Registry S R) := ⟨empty⟩

/-- Names a predicate, in place of any other of that name. -/
def register (r : Registry S R) (name : String) (p : RequestPredicate S R) : Registry S R :=
  ⟨r.predicates.insert name p⟩

/-- Whether a predicate is registered under a name. -/
def contains (r : Registry S R) (name : String) : Bool := r.predicates.contains name

/-- How many names have a predicate. -/
def size (r : Registry S R) : Nat := r.predicates.size

/-- The names in increasing order. -/
def names (r : Registry S R) : List String := r.predicates.keys

/-- The registry as a provider: it fails for the names under which nothing is registered. -/
def lookup (r : Registry S R) : Provider S R := fun name =>
  match r.predicates.get? name with
  | some p => .ok p
  | none => .error (.predicateNotFound name)

end Registry

end AccessPolicy

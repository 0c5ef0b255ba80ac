import AccessPolicy.Recorded

/-! Composable boolean predicates. A predicate maps a value to a verdict and to the trace of the
named checks that led to it. Conjunction and disjunction take their left operand first and consult
the right one only where the left one leaves the verdict open. -/

namespace AccessPolicy

/-- A value with its trace: the names of the checks consulted to find it, in order. -/
abbrev Traced (α : Type) : Type := Recorded String α

/-- A decision about values of type `α`, with a trace of the checks it consults. -/
def Predicate (α : Type) : Type := α → Traced Bool

namespace Predicate

variable {α : Type}

/-- The predicate that decides as `check` does and consults nothing. -/
def ofBool (check : α → Bool) : Predicate α := fun a => pure (check a)

/-- The verdict on `a`, with its trace. -/
def run (p : Predicate α) (a : α) : Traced Bool := p a

/-- Whether `p` holds for `a`. -/
def satisfiedBy (p : Predicate α) (a : α) : Bool := (p.run a).value

/-- Both hold; `q` is consulted only where `p` holds. -/
protected def and (p q : Predicate α) : Predicate α := fun a => do
  if ← p.run a then q.run a else pure false

/-- One of both holds; `q` is consulted only where `p` does not hold. -/
protected def or (p q : Predicate α) : Predicate α := fun a => do
  if ← p.run a then pure true else q.run a

/-- Holds where the predicate does not. -/
protected def not (p : Predicate α) : Predicate α := fun a => do
  return !(← p.run a)

/-- Holds of everything. -/
def allow : Predicate α := ofBool fun _ => true

/-- Holds of nothing. -/
def deny : Predicate α := ofBool fun _ => false

/-- The predicate itself, to make a policy written by hand read well. -/
def is (p : Predicate α) : Predicate α := p

/-- Decides as `p` does, and adds `name` to the trace each time it is consulted. -/
def probe (name : String) (p : Predicate α) : Predicate α := fun a => do
  Recorded.note name
  p.run a

instance : AndOp (Predicate α) := ⟨Predicate.and⟩

instance : OrOp (Predicate α) := ⟨Predicate.or⟩

instance : Complement (Predicate α) := ⟨Predicate.not⟩

/-- A predicate is shown without its parts, which are functions. -/
instance : Repr (Predicate α) := ⟨fun _ _ => "Predicate \x7b .. \x7d"⟩

/-! ### Verdicts and traces of the combinators -/

@[simp] theorem satisfiedBy_ofBool (check : α → Bool) (a : α) :
    (ofBool check).satisfiedBy a = check a := rfl

@[simp] theorem notes_ofBool (check : α → Bool) (a : α) : ((ofBool check).run a).notes = [] := rfl

@[simp] theorem satisfiedBy_and (p q : Predicate α) (a : α) :
    (p.and q).satisfiedBy a = (p.satisfiedBy a && q.satisfiedBy a) := by
  cases h : (p.run a).value <;> simp [satisfiedBy, run, Predicate.and] at h ⊢ <;> simp [h]

@[simp] theorem notes_and (p q : Predicate α) (a : α) :
    ((p.and q).run a).notes =
      (p.run a).notes ++ if p.satisfiedBy a then (q.run a).notes else [] := by
  cases h : (p.run a).value <;> simp [satisfiedBy, run, Predicate.and] at h ⊢ <;> simp [h]

@[simp] theorem satisfiedBy_or (p q : Predicate α) (a : α) :
    (p.or q).satisfiedBy a = (p.satisfiedBy a || q.satisfiedBy a) := by
  cases h : (p.run a).value <;> simp [satisfiedBy, run, Predicate.or] at h ⊢ <;> simp [h]

@[simp] theorem notes_or (p q : Predicate α) (a : α) :
    ((p.or q).run a).notes =
      (p.run a).notes ++ if p.satisfiedBy a then [] else (q.run a).notes := by
  cases h : (p.run a).value <;> simp [satisfiedBy, run, Predicate.or] at h ⊢ <;> simp [h]

@[simp] theorem satisfiedBy_not (p : Predicate α) (a : α) :
    p.not.satisfiedBy a = !p.satisfiedBy a := by
  simp [satisfiedBy, run, Predicate.not]

@[simp] theorem notes_not (p : Predicate α) (a : α) : (p.not.run a).notes = (p.run a).notes := by
  simp [run, Predicate.not]

end Predicate

end AccessPolicy

import AccessPolicy.Predicate

/-! The laws of predicates, with their traces. Conjunction is associative and has `allow` as its
unit, disjunction is associative and has `deny` as its unit, and negation turns one into the other.
So a disjunction combined from the left consults its members as one that is combined from the right
does: in order, up to the first that holds. For the same reason a disjunction of disjunctions is the
disjunction of all their members. -/

namespace AccessPolicy.Predicate

variable {α : Type}

theorem ext {p q : Predicate α} (hv : ∀ a, p.satisfiedBy a = q.satisfiedBy a)
    (hn : ∀ a, (p.run a).notes = (q.run a).notes) : p = q :=
  funext fun a => Recorded.ext (hv a) (hn a)

/-- Where the left operand holds, the right one is not consulted. -/
theorem run_or_of_satisfied {p : Predicate α} (q : Predicate α) {a : α}
    (hp : p.satisfiedBy a = true) : (p.or q).run a = ⟨true, (p.run a).notes⟩ :=
  Recorded.ext ((satisfiedBy_or p q a).trans (by rw [hp, Bool.true_or])) (by simp [hp])

theorem run_or_of_not_satisfied {p : Predicate α} (q : Predicate α) {a : α}
    (hp : p.satisfiedBy a = false) :
    (p.or q).run a = ⟨(q.run a).value, (p.run a).notes ++ (q.run a).notes⟩ :=
  Recorded.ext ((satisfiedBy_or p q a).trans (by rw [hp, Bool.false_or]; rfl)) (by simp [hp])

theorem run_and_of_satisfied {p : Predicate α} (q : Predicate α) {a : α}
    (hp : p.satisfiedBy a = true) :
    (p.and q).run a = ⟨(q.run a).value, (p.run a).notes ++ (q.run a).notes⟩ :=
  Recorded.ext ((satisfiedBy_and p q a).trans (by rw [hp, Bool.true_and]; rfl)) (by simp [hp])

theorem run_and_of_not_satisfied {p : Predicate α} (q : Predicate α) {a : α}
    (hp : p.satisfiedBy a = false) : (p.and q).run a = ⟨false, (p.run a).notes⟩ :=
  Recorded.ext ((satisfiedBy_and p q a).trans (by rw [hp, Bool.false_and])) (by simp [hp])

theorem run_not_congr {p : Predicate α} {a b : α} (hp : p.run a = p.run b) :
    p.not.run a = p.not.run b := by
  show (p.run a >>= fun v => pure (!v)) = p.run b >>= fun v => pure (!v)
  rw [hp]

theorem run_and_congr {p q : Predicate α} {a b : α} (hp : p.run a = p.run b)
    (hq : q.run a = q.run b) : (p.and q).run a = (p.and q).run b := by
  show (p.run a >>= fun v => if v then q.run a else pure false) =
    p.run b >>= fun v => if v then q.run b else pure false
  rw [hp, hq]

theorem run_or_congr {p q : Predicate α} {a b : α} (hp : p.run a = p.run b)
    (hq : q.run a = q.run b) : (p.or q).run a = (p.or q).run b := by
  show (p.run a >>= fun v => if v then pure true else q.run a) =
    p.run b >>= fun v => if v then pure true else q.run b
  rw [hp, hq]

theorem allow_and (p : Predicate α) : allow.and p = p :=
  ext (fun a => by simp [allow]) (fun a => by simp [allow])

theorem and_allow (p : Predicate α) : p.and allow = p :=
  ext (fun a => by simp [allow]) (fun a => by simp [allow])

theorem and_assoc (p q r : Predicate α) : (p.and q).and r = p.and (q.and r) := by
  refine ext (fun a => ?_) (fun a => ?_)
  · simp only [satisfiedBy_and, Bool.and_assoc]
  · cases hp : p.satisfiedBy a <;> simp [hp]

theorem not_not (p : Predicate α) : p.not.not = p :=
  ext (fun a => by simp) (fun a => by simp)

/-- The negation of a conjunction consults what the conjunction does, and in the same order. -/
theorem not_and (p q : Predicate α) : (p.and q).not = p.not.or q.not := by
  refine ext (fun a => ?_) (fun a => ?_)
  · simp only [satisfiedBy_not, satisfiedBy_and, satisfiedBy_or, Bool.not_and]
  · cases hp : p.satisfiedBy a <;> simp [hp]

theorem not_or (p q : Predicate α) : (p.or q).not = p.not.and q.not := by
  refine ext (fun a => ?_) (fun a => ?_)
  · simp only [satisfiedBy_not, satisfiedBy_and, satisfiedBy_or, Bool.not_or]
  · cases hp : p.satisfiedBy a <;> simp [hp]

theorem deny_or (p : Predicate α) : deny.or p = p :=
  ext (fun a => by simp [deny]) (fun a => by simp [deny])

theorem or_deny (p : Predicate α) : p.or deny = p :=
  ext (fun a => by simp [deny]) (fun a => by simp [deny])

theorem or_assoc (p q r : Predicate α) : (p.or q).or r = p.or (q.or r) := by
  refine ext (fun a => ?_) (fun a => ?_)
  · simp only [satisfiedBy_or, Bool.or_assoc]
  · cases hp : p.satisfiedBy a <;> simp [hp]

/-- One of the predicates holds; they are consulted in order, up to the first that does. -/
def anyOf : List (Predicate α) → Predicate α
  | [] => deny
  | p :: ps => p.or (anyOf ps)

theorem foldl_or (p : Predicate α) (ps : List (Predicate α)) :
    ps.foldl Predicate.or p = p.or (anyOf ps) := by
  induction ps generalizing p with
  | nil => exact (or_deny p).symm
  | cons q ps ih => rw [List.foldl_cons, ih, or_assoc, anyOf]

theorem anyOf_append (ps qs : List (Predicate α)) :
    anyOf (ps ++ qs) = (anyOf ps).or (anyOf qs) := by
  induction ps with
  | nil => exact (deny_or _).symm
  | cons p ps ih => rw [List.cons_append, anyOf, ih, anyOf, or_assoc]

theorem anyOf_flatMap {β : Type} (f : β → List (Predicate α)) (l : List β) :
    anyOf (l.flatMap f) = anyOf (l.map fun b => anyOf (f b)) := by
  induction l with
  | nil => rfl
  | cons b l ih => rw [List.flatMap_cons, anyOf_append, ih, List.map_cons, anyOf]

/-- A disjunction holds where one of its predicates does. -/
theorem satisfiedBy_anyOf (ps : List (Predicate α)) (a : α) :
    (anyOf ps).satisfiedBy a = ps.any (·.satisfiedBy a) := by
  induction ps with
  | nil => rfl
  | cons p ps ih => rw [anyOf, satisfiedBy_or, ih, List.any_cons]

end AccessPolicy.Predicate

import AccessPolicy.Proofs.Predicate

/-! Expressions over predicates, with their traces. An expression holds where the Boolean
combination of its leaves does, and its trace is that of the leaves that are consulted: from left to
right, up to the one that settles each conjunction or disjunction. `Law` collects the equations that
keep both, and `Rewrites` applies them anywhere in an expression. Exchanging the operands of a
conjunction or a disjunction is not among them: it keeps what holds and may change the trace. -/

namespace AccessPolicy.Predicate

/-- The two ways to write a combinator: by its name, or with an operator. -/
inductive Spelling where
  | method
  | operator
deriving DecidableEq, Repr

/-- How a predicate is combined from others. -/
inductive Expr (α : Type) where
  | leaf (p : Predicate α)
  | allow
  | deny
  | is (e : Expr α)
  | not (s : Spelling) (e : Expr α)
  | and (s : Spelling) (l r : Expr α)
  | or (s : Spelling) (l r : Expr α)

namespace Expr

variable {α : Type}

/-- The predicate that an expression builds. -/
def predicate : Expr α → Predicate α
  | leaf p => p
  | allow => Predicate.allow
  | deny => Predicate.deny
  | is e => Predicate.is e.predicate
  | not .method e => e.predicate.not
  | not .operator e => ~~~e.predicate
  | and .method l r => l.predicate.and r.predicate
  | and .operator l r => l.predicate &&& r.predicate
  | or .method l r => l.predicate.or r.predicate
  | or .operator l r => l.predicate ||| r.predicate

/-- The Boolean value of an expression over the values of its leaves. -/
def holds (a : α) : Expr α → Bool
  | leaf p => p.satisfiedBy a
  | allow => true
  | deny => false
  | is e => e.holds a
  | not _ e => !e.holds a
  | and _ l r => l.holds a && r.holds a
  | or _ l r => l.holds a || r.holds a

/-- The leaves that are consulted, in order. The right operand of a conjunction has a part in it
only where the left one holds, and that of a disjunction only where the left one does not. -/
def consulted (a : α) : Expr α → List (Predicate α)
  | leaf p => [p]
  | allow => []
  | deny => []
  | is e => e.consulted a
  | not _ e => e.consulted a
  | and _ l r => l.consulted a ++ if l.holds a then r.consulted a else []
  | or _ l r => l.consulted a ++ if l.holds a then [] else r.consulted a

/-- The traces of the leaves that are consulted. -/
def trace (a : α) (e : Expr α) : List String := (e.consulted a).flatMap fun p => (p.run a).notes

/-! ### The two ways to write a combinator -/

theorem predicate_not (s : Spelling) (e : Expr α) : (not s e).predicate = e.predicate.not := by
  cases s <;> rfl

theorem predicate_and (s : Spelling) (l r : Expr α) :
    (and s l r).predicate = l.predicate.and r.predicate := by
  cases s <;> rfl

theorem predicate_or (s : Spelling) (l r : Expr α) :
    (or s l r).predicate = l.predicate.or r.predicate := by
  cases s <;> rfl

/-! ### Values and traces -/

/-- An expression holds where the combination of its leaves does. -/
theorem satisfiedBy_predicate (e : Expr α) (a : α) : e.predicate.satisfiedBy a = e.holds a := by
  induction e with
  | leaf p => rfl
  | allow => rfl
  | deny => rfl
  | is e ih => exact ih
  | not s e ih => rw [predicate_not, satisfiedBy_not, ih, holds]
  | and s l r ihl ihr => rw [predicate_and, satisfiedBy_and, ihl, ihr, holds]
  | or s l r ihl ihr => rw [predicate_or, satisfiedBy_or, ihl, ihr, holds]

theorem notes_predicate (e : Expr α) (a : α) : (e.predicate.run a).notes = e.trace a := by
  induction e with
  | leaf p => simp [trace, consulted, predicate]
  | allow => rfl
  | deny => rfl
  | is e ih => exact ih
  | not s e ih =>
    rw [predicate_not, notes_not, ih]
    rfl
  | and s l r ihl ihr =>
    rw [predicate_and, notes_and, ihl, ihr, satisfiedBy_predicate]
    cases hl : l.holds a <;> simp [trace, consulted, hl]
  | or s l r ihl ihr =>
    rw [predicate_or, notes_or, ihl, ihr, satisfiedBy_predicate]
    cases hl : l.holds a <;> simp [trace, consulted, hl]

/-! ### Laws -/

/-- The equations between expressions. -/
inductive Law : Expr α → Expr α → Prop
  | spell_not (s s' : Spelling) (e : Expr α) : Law (not s e) (not s' e)
  | spell_and (s s' : Spelling) (l r : Expr α) : Law (and s l r) (and s' l r)
  | spell_or (s s' : Spelling) (l r : Expr α) : Law (or s l r) (or s' l r)
  | is (e : Expr α) : Law (is e) e
  | and_assoc (s : Spelling) (l m r : Expr α) : Law (and s (and s l m) r) (and s l (and s m r))
  | or_assoc (s : Spelling) (l m r : Expr α) : Law (or s (or s l m) r) (or s l (or s m r))
  | not_not (s : Spelling) (e : Expr α) : Law (not s (not s e)) e
  | not_and (s : Spelling) (l r : Expr α) : Law (not s (and s l r)) (or s (not s l) (not s r))
  | not_or (s : Spelling) (l r : Expr α) : Law (not s (or s l r)) (and s (not s l) (not s r))
  | allow_and (s : Spelling) (e : Expr α) : Law (and s allow e) e
  | and_allow (s : Spelling) (e : Expr α) : Law (and s e allow) e
  | deny_or (s : Spelling) (e : Expr α) : Law (or s deny e) e
  | or_deny (s : Spelling) (e : Expr α) : Law (or s e deny) e

/-- An expression becomes another one by laws that are applied to its parts, in either direction and
any number of times. -/
inductive Rewrites : Expr α → Expr α → Prop
  | law {e e' : Expr α} : Law e e' → Rewrites e e'
  | refl (e : Expr α) : Rewrites e e
  | symm {e e' : Expr α} : Rewrites e e' → Rewrites e' e
  | trans {e e' e'' : Expr α} : Rewrites e e' → Rewrites e' e'' → Rewrites e e''
  | is {e e' : Expr α} : Rewrites e e' → Rewrites (is e) (is e')
  | not {e e' : Expr α} (s : Spelling) : Rewrites e e' → Rewrites (not s e) (not s e')
  | and {l l' r r' : Expr α} (s : Spelling) :
      Rewrites l l' → Rewrites r r' → Rewrites (and s l r) (and s l' r')
  | or {l l' r r' : Expr α} (s : Spelling) :
      Rewrites l l' → Rewrites r r' → Rewrites (or s l r) (or s l' r')

theorem Law.predicate_eq {e e' : Expr α} (hl : Law e e') : e.predicate = e'.predicate := by
  cases hl with
  | spell_not s s' e => rw [predicate_not, predicate_not]
  | spell_and s s' l r => rw [predicate_and, predicate_and]
  | spell_or s s' l r => rw [predicate_or, predicate_or]
  | is e => rfl
  | and_assoc s l m r => simp only [predicate_and, Predicate.and_assoc]
  | or_assoc s l m r => simp only [predicate_or, Predicate.or_assoc]
  | not_not s e => rw [predicate_not, predicate_not, Predicate.not_not]
  | not_and s l r => simp only [predicate_not, predicate_and, predicate_or, Predicate.not_and]
  | not_or s l r => simp only [predicate_not, predicate_and, predicate_or, Predicate.not_or]
  | allow_and s e =>
    rw [predicate_and]
    exact Predicate.allow_and _
  | and_allow s e =>
    rw [predicate_and]
    exact Predicate.and_allow _
  | deny_or s e =>
    rw [predicate_or]
    exact Predicate.deny_or _
  | or_deny s e =>
    rw [predicate_or]
    exact Predicate.or_deny _

theorem Rewrites.predicate_eq {e e' : Expr α} (hr : e.Rewrites e') :
    e.predicate = e'.predicate := by
  induction hr with
  | law hl => exact hl.predicate_eq
  | refl e => rfl
  | symm _ ih => exact ih.symm
  | trans _ _ ih ih' => exact ih.trans ih'
  | is _ ih => exact ih
  | not s _ ih => rw [predicate_not, predicate_not, ih]
  | and s _ _ ihl ihr => rw [predicate_and, predicate_and, ihl, ihr]
  | or s _ _ ihl ihr => rw [predicate_or, predicate_or, ihl, ihr]

/-- An expression holds where the Boolean combination of its leaves does, its trace is that of the
leaves consulted from left to right with short circuits, and rewriting keeps both for every
value. -/
theorem run_predicate_short_circuits (e : Expr α) :
    (∀ a, e.predicate.satisfiedBy a = e.holds a ∧
      (e.predicate.run a).notes = (e.consulted a).flatMap fun p => (p.run a).notes) ∧
    ∀ e' : Expr α, e.Rewrites e' → ∀ a, e.predicate.run a = e'.predicate.run a := by
  refine ⟨fun a => ⟨e.satisfiedBy_predicate a, e.notes_predicate a⟩, ?_⟩
  intro e' hr a
  rw [hr.predicate_eq]

/-- A negation is moved inwards to the leaves. -/
theorem run_predicate_short_circuits_of_negation :
    let below := fun (name : String) (bound : Nat) =>
      Expr.leaf (Predicate.probe name (.ofBool fun a : Nat => a < bound))
    let no := fun e : Expr Nat => Expr.not .operator e
    let e := no (or .operator (and .operator (below "x" 3) (below "y" 1)) (below "z" 2))
    let e' := and .method (or .operator (no (below "x" 3)) (no (below "y" 1))) (no (below "z" 2))
    e.Rewrites e' ∧ (∀ a, e.predicate.run a = e'.predicate.run a) ∧
      e'.predicate.run 0 = ⟨false, ["x", "y"]⟩ ∧ e'.predicate.run 1 = ⟨false, ["x", "y", "z"]⟩ ∧
      e'.predicate.run 3 = ⟨true, ["x", "z"]⟩ := by
  intro below no e e'
  have hr : e.Rewrites e' :=
    .trans (.law (.not_or .operator _ _)) <|
      .trans (.and .operator (.law (.not_and .operator _ _)) (.refl _)) <|
        .law (.spell_and .operator .method _ _)
  exact ⟨hr, (run_predicate_short_circuits e).2 e' hr, by decide, by decide, by decide⟩

/-- The operands of a conjunction may be exchanged as to what holds, but not as to the trace. -/
example :
    let x : Predicate Unit := .probe "x" .deny
    let y : Predicate Unit := .probe "y" .allow
    (x.and y).satisfiedBy () = (y.and x).satisfiedBy () ∧ (x.and y).run () ≠ (y.and x).run () := by
  decide

end Expr

end AccessPolicy.Predicate

import AccessPolicy.Config.Rule
import AccessPolicy.Evaluator
import AccessPolicy.Registry
import AccessPolicy.Role.Matcher

/-! Compiling a configuration to a table of policies. A rule grants what its key applies to if the
subject has the rule's role and the rule's condition holds. A condition that cannot be resolved is
reported, and its rule grants nothing. -/

namespace AccessPolicy

/-- What compiling yields: the table, the rules that could not be resolved, and the names that the
provider was asked for, all in the order of the rules. -/
structure Compilation (S R : Type) where
  evaluator : Evaluator S R
  errors : List RuleError
  consulted : List String

namespace Compilation

variable {S R : Type} [RoleBearer S]

/-- Nothing is compiled and no name has been asked for. -/
def empty : Compilation S R := ⟨.empty, [], []⟩

/-- Asks the provider for the predicate of a condition, and notes that it was asked. -/
def ask (provider : Provider S R) (condition : String) :
    Recorded String (Except PolicyError (RequestPredicate S R)) := do
  Recorded.note condition
  return provider condition

/-- The predicate of a rule's condition, or why there is none. No condition and the wildcard always
hold, and the provider is not asked for them. -/
def conditionPredicate (provider : Provider S R) (rule : Rule) :
    Recorded String (Except RuleError (RequestPredicate S R)) :=
  match rule.namedCondition? with
  | none => pure (.ok .allow)
  | some name => do
    let answer ← ask provider name
    return answer.mapError fun source => ⟨rule.role, rule.text, name, source⟩

/-- The compilation with one more rule. -/
def addRule (roles : RoleMatcher) (provider : Provider S R) (c : Compilation S R) (rule : Rule) :
    Logged (Compilation S R) := do
  let ⟨answer, asked⟩ := conditionPredicate provider rule
  let (condition, errors) ←
    match answer with
    | .ok p => pure (p, c.errors)
    | .error e => do
      Recorded.note (.unresolvedCondition e.role e.rule e.condition)
      pure (.deny, c.errors ++ [e])
  Recorded.note (.compiledRule rule.role rule.text rule.key)
  let evaluator ← c.evaluator.addPolicy rule.key ((roles.hasRole rule.role).and condition)
  return ⟨evaluator, errors, c.consulted ++ asked⟩

end Compilation

section

variable {S R : Type} [RoleBearer S]

/-- Compiles every rule of a configuration. Roles are decided by `roles`; the hierarchy of the
configuration itself is not consulted. -/
def compile (config : Config) (roles : RoleMatcher) (provider : Provider S R) :
    Logged (Compilation S R) :=
  config.rules.foldlM (Compilation.addRule roles provider) .empty

/-- Compiles a configuration in which every condition must be resolved. -/
def compileStrict (config : Config) (roles : RoleMatcher) (provider : Provider S R) :
    Logged (Except PolicyError (Evaluator S R)) := do
  let c ← compile config roles provider
  return if c.errors.isEmpty then .ok c.evaluator else .error (.compile c.errors)

end

end AccessPolicy

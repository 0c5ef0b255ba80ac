import AccessPolicy.Proofs.Compilation.Unresolved
import AccessPolicy.Proofs.Conditions

/-! What a configuration permits with the built-in conditions, in words. A rule entitles a subject
to a resource, whatever the action, if the subject reaches the rule's role and the rule's condition
holds; a configuration permits an action if the key of such a rule applies to it. The compiled table
grants exactly what the configuration permits. -/

namespace AccessPolicy

/-- The subject holds a role from which the rule's role can be reached, and the condition that the
rule names holds. -/
structure Entitles (h : RoleHierarchy) (subject resource : Entity) (rule : Rule) : Prop where
  held : ∃ held ∈ subject.roles, h.Reaches held rule.role
  condition : ∃ condition, Rule.Conditioned rule.text condition ∧
    (condition = wildcard ∨ BuiltinHolds subject resource condition)

/-- Some rule entitles the subject to the resource and has a key that applies to the action. -/
def Config.Permits (config : Config) (strict : Bool) (subject resource : Entity)
    (action : String) : Prop :=
  ∃ rule ∈ config.rules, Action.AppliesIn (strict = true) (Rule.keyOf rule.text) action ∧
    Entitles config.hierarchy subject resource rule

variable {config : Config} {strict : Bool} {subject resource : Entity} {action : String}
  {rule : Rule}

theorem conditionHolds_builtin_iff {condition : String} {q : Request Entity Entity} :
    ConditionHolds builtinRegistry.lookup condition q ↔
      condition = wildcard ∨ BuiltinHolds q.subject q.resource condition :=
  or_congr_right builtinRegistry_holds_iff

theorem satisfiedBy_policyOf_builtin_iff {h : RoleHierarchy} {q : Request Entity Entity} :
    (Compilation.policyOf ⟨h⟩ builtinRegistry.lookup rule).satisfiedBy q = true ↔
      Entitles h q.subject q.resource rule := by
  rw [Compilation.satisfiedBy_policyOf_iff, Compilation.satisfiedBy_conditionPolicy_iff]
  simp only [conditionHolds_builtin_iff]
  constructor
  · rintro ⟨hheld, hcondition⟩
    exact ⟨hheld, hcondition⟩
  · rintro ⟨hheld, hcondition⟩
    exact ⟨hheld, hcondition⟩

/-- The warning of a cycle makes no difference to what is compiled. -/
theorem compileConfig_value (config : Config) :
    (compileConfig config).value =
      (compile config ⟨config.hierarchy⟩ builtinRegistry.lookup).value := by
  rw [compileConfig, RoleMatcher.ofHierarchy, Recorded.value_bind]
  cases config.hierarchy.findCycle? <;> rfl

theorem evaluate_compileConfig_iff_permits :
    (((compileConfig config).value.evaluator.inMode strict).evaluate
        ⟨subject, resource, action⟩).value.value = true ↔
      config.Permits strict subject resource action := by
  rw [compileConfig_value, Compilation.evaluate_compile_inMode_iff]
  simp only [satisfiedBy_policyOf_builtin_iff, Rule.key_eq_keyOf]
  rfl

theorem isAllowed_decide_compileConfig_iff_permits :
    (((compileConfig config).value.evaluator.inMode strict).decide
        ⟨subject, resource, action⟩).value.value.isAllowed = true ↔
      config.Permits strict subject resource action := by
  rw [Evaluator.isAllowed_decide_value, evaluate_compileConfig_iff_permits]

/-! ### Rules that entitle no one -/

theorem Entitles.conditionHolds {h : RoleHierarchy} {condition : String}
    (he : Entitles h subject resource rule) (hc : Rule.Conditioned rule.text condition) :
    condition = wildcard ∨ BuiltinHolds subject resource condition := by
  obtain ⟨other, ho, hholds⟩ := he.condition
  rwa [← hc.unique ho]

/-- A rule that entitles someone has a condition that is resolved. -/
theorem Entitles.not_unresolved {h : RoleHierarchy} (he : Entitles h subject resource rule) :
    ¬Unresolved builtinRegistry.lookup rule.text := by
  have hs := (satisfiedBy_policyOf_builtin_iff (q := ⟨subject, resource, ""⟩)).mpr he
  exact Compilation.not_unresolved_of_satisfied (Compilation.satisfiedBy_policyOf_iff.mp hs).2

/-- Of the rules only those matter that entitle the subject. -/
theorem Config.permits_congr {config' : Config} (hhierarchy : config.hierarchy = config'.hierarchy)
    (hrules : ∀ rule, Entitles config.hierarchy subject resource rule →
      (rule ∈ config.rules ↔ rule ∈ config'.rules)) :
    config.Permits strict subject resource action ↔
      config'.Permits strict subject resource action := by
  constructor
  · rintro ⟨rule, hmem, happlies, he⟩
    exact ⟨rule, (hrules rule he).mp hmem, happlies, hhierarchy ▸ he⟩
  · rintro ⟨rule, hmem, happlies, he⟩
    rw [← hhierarchy] at he
    exact ⟨rule, (hrules rule he).mpr hmem, happlies, he⟩

/-- Rules that entitle no one may be left out. -/
theorem Config.permits_dropRules_iff {drop : String → Prop} [DecidablePred drop]
    (hdrop : ∀ rule, Entitles config.hierarchy subject resource rule → ¬drop rule.text) :
    (config.dropRules drop).Permits strict subject resource action ↔
      config.Permits strict subject resource action := by
  refine permits_congr rfl fun rule he => ?_
  rw [mem_rules_dropRules_iff]
  exact and_iff_left (hdrop rule he)

end AccessPolicy

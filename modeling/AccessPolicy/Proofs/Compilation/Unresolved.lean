import AccessPolicy.Conditions
import AccessPolicy.Proofs.Compilation.Table

/-! Rules whose condition is not resolved. They grant nothing and are reported, in the order of the
rules; apart from the report and from keys that no other rule has, compiling comes to the same
without them. -/

namespace AccessPolicy

variable {S R : Type}

/-- The text of a rule names a condition, other than the wildcard, that the provider does not
resolve. -/
def Unresolved (provider : Provider S R) (text : String) : Prop :=
  ∃ condition, Rule.Conditioned text condition ∧ condition ≠ wildcard ∧
    ∃ error, provider condition = .error error

namespace Compilation

variable {provider : Provider S R} {rule : Rule} {config : Config}

/-- The error that compiling a rule reports, if any. -/
def error? (provider : Provider S R) (rule : Rule) : Option RuleError :=
  match (conditionPredicate provider rule).value with
  | .ok _ => none
  | .error e => some e

theorem isSome_error?_iff (provider : Provider S R) (rule : Rule) :
    (error? provider rule).isSome = true ↔ Unresolved provider rule.text := by
  obtain ⟨condition, hc⟩ := Rule.exists_conditioned rule.text
  rw [Unresolved, Rule.exists_conditioned_iff hc, error?, value_conditionPredicate hc]
  by_cases hw : condition = wildcard
  · simp [hw]
  · rw [if_neg hw]
    cases hp : provider condition <;> simp [hw, Except.mapError]

instance (provider : Provider S R) : DecidablePred (Unresolved provider) := fun text =>
  decidable_of_iff _ (isSome_error?_iff provider ⟨"", text⟩)

/-- A rule that is not resolved grants nothing. -/
theorem not_unresolved_of_satisfied {q : Request S R}
    (hs : (conditionPolicy provider rule).satisfiedBy q = true) :
    ¬Unresolved provider rule.text := by
  rintro ⟨condition, hc, hw, error, herror⟩
  rcases (satisfiedBy_conditionPolicy_iff_of_conditioned hc).mp hs with heq | ⟨p, hp, -⟩
  · exact hw heq
  · rw [herror] at hp
    cases hp

variable [RoleBearer S] {roles : RoleMatcher}

theorem errors_addRule (c : Compilation S R) (rule : Rule) :
    (addRule roles provider c rule).value.errors = c.errors ++ (error? provider rule).toList := by
  unfold addRule error?
  rcases conditionPredicate provider rule with ⟨_ | _, _⟩ <;> simp

/-- The errors are those of the rules, in their order. -/
theorem errors_compile (config : Config) (roles : RoleMatcher) (provider : Provider S R) :
    (compile config roles provider).value.errors = config.rules.filterMap (error? provider) :=
  foldlM_addRule_append errors errors_addRule config.rules empty

theorem compileStrict_value (config : Config) (roles : RoleMatcher) (provider : Provider S R) :
    (compileStrict config roles provider).value =
      if (compile config roles provider).value.errors.isEmpty then
        .ok (compile config roles provider).value.evaluator
      else .error (.compile (compile config roles provider).value.errors) :=
  rfl

/-- Strict compiling succeeds if there are no errors. -/
theorem exists_compileStrict_eq_ok_iff :
    (∃ e, (compileStrict config roles provider).value = .ok e) ↔
      (compile config roles provider).value.errors = [] := by
  rw [compileStrict_value]
  cases (compile config roles provider).value.errors <;> simp

/-! ### Compiling without the unresolved rules -/

theorem errors_dropRules_unresolved :
    (compile (config.dropRules (Unresolved provider)) roles provider).value.errors = [] := by
  rw [errors_compile, List.filterMap_eq_nil_iff]
  intro rule hrule
  have hresolved := (Config.mem_rules_dropRules_iff.mp hrule).2
  rwa [← isSome_error?_iff, Option.not_isSome_iff_eq_none] at hresolved

/-- A rule whose policy holds is resolved, so the policies that can hold are the same. -/
theorem grantsAt_dropRules_unresolved_iff {key : String} {q : Request S R} :
    (compile (config.dropRules (Unresolved provider)) roles provider).value.evaluator.GrantsAt
        key q ↔
      (compile config roles provider).value.evaluator.GrantsAt key q := by
  rw [grantsAt_compile_iff, grantsAt_compile_iff]
  constructor
  · rintro ⟨rule, hrule, hkey, hs⟩
    exact ⟨rule, (Config.mem_rules_dropRules_iff.mp hrule).1, hkey, hs⟩
  · rintro ⟨rule, hrule, hkey, hs⟩
    have hresolved := not_unresolved_of_satisfied (satisfiedBy_policyOf_iff.mp hs).2
    exact ⟨rule, Config.mem_rules_dropRules_iff.mpr ⟨hrule, hresolved⟩, hkey, hs⟩

theorem mem_keys_of_mem_keys_dropRules_unresolved {key : String}
    (hkey : key ∈
      (compile (config.dropRules (Unresolved provider)) roles provider).value.evaluator.keys) :
    key ∈ (compile config roles provider).value.evaluator.keys := by
  obtain ⟨rule, hrule, rfl⟩ := mem_keys_compile_iff.mp hkey
  exact mem_keys_compile_iff.mpr ⟨rule, (Config.mem_rules_dropRules_iff.mp hrule).1, rfl⟩

end Compilation

/-- Without its unresolved rules a configuration compiles without errors and grants the same
requests, in strict mode or without it. It loses no key but those under which nothing is ever
granted. -/
theorem compile_agrees_without_unresolved [RoleBearer S] (config : Config) (roles : RoleMatcher)
    (provider : Provider S R) :
    let degraded := (compile config roles provider).value
    let resolved := (compile (config.dropRules (Unresolved provider)) roles provider).value
    (∀ strict q, ((degraded.evaluator.inMode strict).evaluate q).value.value =
        ((resolved.evaluator.inMode strict).evaluate q).value.value) ∧
      resolved.errors = [] ∧
      (∀ key ∈ resolved.evaluator.keys, key ∈ degraded.evaluator.keys) ∧
      ∀ key entry, degraded.evaluator.policies.get? key = some entry →
        key ∉ resolved.evaluator.keys → ∀ q, entry.predicate.satisfiedBy q = false := by
  intro degraded resolved
  refine ⟨?_, Compilation.errors_dropRules_unresolved,
    fun _ => Compilation.mem_keys_of_mem_keys_dropRules_unresolved, ?_⟩
  · intro strict q
    exact Compilation.evaluate_compile_congr strict rfl fun _ =>
      Compilation.grantsAt_dropRules_unresolved_iff.symm
  · intro key entry hentry hkey q
    rw [Bool.eq_false_iff]
    intro hs
    have hgrants : resolved.evaluator.GrantsAt key q :=
      Compilation.grantsAt_dropRules_unresolved_iff.mpr ⟨entry, hentry, hs⟩
    obtain ⟨entry', hentry', -⟩ := hgrants
    exact hkey (Evaluator.mem_keys_iff.mpr ⟨entry', hentry'⟩)

/-- A key that only an unresolved rule has is lost, and nothing is granted under it. -/
theorem compile_agrees_without_unresolved_missing :
    let config :=
      (Config.empty.withRole "editor" ["read", "edit:missing"]).withRole "admin" ["edit"]
    ∃ entry,
      (compile config .flat builtinRegistry.lookup).value.evaluator.policies.get? "edit:missing" =
          some entry ∧
        "edit:missing" ∉ (compile (config.dropRules (Unresolved builtinRegistry.lookup)) .flat
          builtinRegistry.lookup).value.evaluator.keys ∧
        ∀ q, entry.predicate.satisfiedBy q = false := by
  intro config
  have hdegraded : (compile config .flat builtinRegistry.lookup).value.evaluator.keys =
      ["edit", "edit:missing", "read"] := by decide +kernel
  have hresolved : (compile (config.dropRules (Unresolved builtinRegistry.lookup)) .flat
      builtinRegistry.lookup).value.evaluator.keys = ["edit", "read"] := by decide +kernel
  have hkept : "edit:missing" ∈
      (compile config .flat builtinRegistry.lookup).value.evaluator.keys := by simp [hdegraded]
  obtain ⟨entry, hentry⟩ := Evaluator.mem_keys_iff.mp hkept
  have hlost : "edit:missing" ∉
      (compile (config.dropRules (Unresolved builtinRegistry.lookup)) .flat
        builtinRegistry.lookup).value.evaluator.keys := by simp [hresolved]
  exact ⟨entry, hentry, hlost,
    (compile_agrees_without_unresolved config .flat builtinRegistry.lookup).2.2.2 _ entry hentry
      hlost⟩

end AccessPolicy

import AccessPolicy.Proofs.Compilation.Unresolved

/-! The order of the rules of a role, and how often one of them is given. Neither matters for the
keys, the decisions and the set of errors of a compiled configuration, nor for whether it compiles
with every condition resolved. The errors are reported in the order of the rules, so if each role
keeps its rules up to their order, the errors are kept up to theirs. -/

namespace AccessPolicy

namespace Config

variable {c c' : Config}

theorem rules_perm (h : ∀ role, (c.allowed role).Perm (c'.allowed role)) :
    c.rules.Perm c'.rules := by
  rw [List.perm_iff_count]
  intro rule
  have hrole : (c.rules.filter (·.role = rule.role)).Perm
      (c'.rules.filter (·.role = rule.role)) := by
    rw [filter_role_rules, filter_role_rules]
    exact (h rule.role).map _
  have hcount := List.perm_iff_count.mp hrole rule
  rwa [List.count_filter (by simp), List.count_filter (by simp)] at hcount

end Config

variable {S R : Type} [RoleBearer S]

namespace Compilation

variable {config config' : Config} {roles : RoleMatcher} {provider : Provider S R}

section SameRules

variable (roles : RoleMatcher) (provider : Provider S R)
  (hrules : ∀ rule, rule ∈ config.rules ↔ rule ∈ config'.rules)
include hrules

theorem keys_compile_congr : (compile config roles provider).value.evaluator.keys =
    (compile config' roles provider).value.evaluator.keys :=
  keys_compile_of_rules hrules

theorem grantsAt_compile_congr (key : String) (q : Request S R) :
    (compile config roles provider).value.evaluator.GrantsAt key q ↔
      (compile config' roles provider).value.evaluator.GrantsAt key q := by
  simp only [grantsAt_compile_iff, hrules]

theorem mem_errors_compile_congr (error : RuleError) :
    error ∈ (compile config roles provider).value.errors ↔
      error ∈ (compile config' roles provider).value.errors := by
  simp only [errors_compile, List.mem_filterMap, hrules]

end SameRules

end Compilation

/-- Configurations that give each role the same rules, in any order and any number of times, compile
to tables with the same keys and the same decisions in both modes. They report the same errors, and
as often if each role has each rule as often, and both or neither compile with every condition
resolved. -/
theorem compile_depends_only_on_rule_sets (config config' : Config) (roles : RoleMatcher)
    (provider : Provider S R)
    (hsame : ∀ role text, text ∈ config.allowed role ↔ text ∈ config'.allowed role) :
    let c := (compile config roles provider).value
    let c' := (compile config' roles provider).value
    c.evaluator.keys = c'.evaluator.keys ∧
      (∀ strict q, ((c.evaluator.inMode strict).decide q).value.value =
        ((c'.evaluator.inMode strict).decide q).value.value) ∧
      (∀ error, error ∈ c.errors ↔ error ∈ c'.errors) ∧
      ((∀ role, (config.allowed role).Perm (config'.allowed role)) → c.errors.Perm c'.errors) ∧
      ((∃ e, (compileStrict config roles provider).value = .ok e) ↔
        ∃ e, (compileStrict config' roles provider).value = .ok e) := by
  intro c c'
  have hrules : ∀ rule, rule ∈ config.rules ↔ rule ∈ config'.rules := fun rule => by
    rw [Config.mem_rules_iff_mem_allowed, Config.mem_rules_iff_mem_allowed, hsame]
  have hkeys := Compilation.keys_compile_congr roles provider hrules
  have herrors := Compilation.mem_errors_compile_congr roles provider hrules
  refine ⟨hkeys, ?_, herrors, ?_, ?_⟩
  · intro strict q
    exact Compilation.decide_compile_congr strict rfl hkeys fun key =>
      Compilation.grantsAt_compile_congr roles provider hrules key q
  · intro hperm
    show (compile config roles provider).value.errors.Perm _
    rw [Compilation.errors_compile, show c'.errors = _ from Compilation.errors_compile _ _ _]
    exact (Config.rules_perm hperm).filterMap _
  · simp only [Compilation.exists_compileStrict_eq_ok_iff, List.eq_nil_iff_forall_not_mem, herrors]

/-- The rules are shuffled, and one of the two spellings of the wildcard is given twice. One rule is
not resolved. -/
theorem compile_depends_only_on_rule_sets_shuffled :
    let config := Config.empty.withRole "editor" ["*", "edit:missing", "*:*", "read"]
    let config' := Config.empty.withRole "editor" ["read", "*:*", "edit:missing", "*", "*:*"]
    let c := (compile config .flat builtinRegistry.lookup).value
    let c' := (compile config' .flat builtinRegistry.lookup).value
    (∀ role text, text ∈ config.allowed role ↔ text ∈ config'.allowed role) ∧
      c.evaluator.keys = ["*", "edit:missing", "read"] ∧ c.evaluator.keys = c'.evaluator.keys ∧
      (∀ strict q, ((c.evaluator.inMode strict).decide q).value.value =
        ((c'.evaluator.inMode strict).decide q).value.value) ∧
      c.errors ≠ [] ∧ ∀ error, error ∈ c.errors ↔ error ∈ c'.errors := by
  intro config config' c c'
  have hallowed : ∀ role text, text ∈ config.allowed role ↔ text ∈ config'.allowed role := by
    intro role text
    by_cases hr : role = "editor"
    · subst hr
      show text ∈ ["*", "edit:missing", "*:*", "read"] ↔
        text ∈ ["read", "*:*", "edit:missing", "*", "*:*"]
      simp only [List.mem_cons, List.not_mem_nil, or_false]
      tauto
    · simp [config, config', Config.allowed, Config.withRole, KeyMap.get?_upsert, hr]
  obtain ⟨hkeys, hdecide, herrors, -⟩ :=
    compile_depends_only_on_rule_sets config config' .flat builtinRegistry.lookup hallowed
  have hlisted : c.evaluator.keys = ["*", "edit:missing", "read"] := by decide +kernel
  have hreported : c.errors ≠ [] := by
    rw [← List.isEmpty_eq_false_iff]
    decide +kernel
  exact ⟨hallowed, hlisted, hkeys, hdecide, hreported, herrors⟩

end AccessPolicy

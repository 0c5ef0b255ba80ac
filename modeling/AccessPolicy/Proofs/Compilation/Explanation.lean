import AccessPolicy.Conditions
import AccessPolicy.Proofs.Compilation.Table

/-! Decisions to grant and the rules that justify them. The key that such a decision names is that
of a rule which grants the request itself, and a key with a condition never grants unless that very
condition holds. -/

namespace AccessPolicy

variable {S R : Type} [RoleBearer S] {config : Config} {roles : RoleMatcher}
  {provider : Provider S R} {q : Request S R}

/-- A key that grants and has a condition grants by this condition. -/
theorem Compilation.condition_of_grantsAt {key condition : String}
    (hg : (compile config roles provider).value.evaluator.GrantsAt key q)
    (hc : (Action.parse key).condition = condition) (hne : condition ≠ "")
    (hw : condition ≠ wildcard) : ∃ p, provider condition = .ok p ∧ p.satisfiedBy q = true := by
  obtain ⟨rule, -, rfl, hs⟩ := grantsAt_compile_iff.mp hg
  rw [Rule.key_eq_keyOf] at hc
  have hholds := (satisfiedBy_conditionPolicy_iff_of_conditioned
    (Rule.Conditioned.of_parse_keyOf hc hne)).mp (satisfiedBy_policyOf_iff.mp hs).2
  exact hholds.resolve_left hw

/-- A decision to grant names a key and a rule by which it applies to the action. Some role is
allowed a rule with that key which grants the request, and the condition of the key, if it has one
apart from the wildcard, is resolved and holds. -/
theorem justified_of_decide_eq_allow (config : Config) (roles : RoleMatcher)
    (provider : Provider S R) (strict : Bool) (q : Request S R) {key : String} {rule : MatchRule}
    (hd : (((compile config roles provider).value.evaluator.inMode strict).decide q).value.value =
      .allow key rule) :
    Action.Applies rule key q.action ∧ (strict = true → rule ≠ .conditionCoversBase) ∧
      (∃ role policy, config.policies.get? role = some policy ∧ ∃ text ∈ policy.allow,
        Rule.keyOf text = key ∧ Grants roles provider strict role text q) ∧
      ∀ condition, (Action.parse key).condition = condition → condition ≠ "" →
        condition ≠ wildcard → ∃ p, provider condition = .ok p ∧ p.satisfiedBy q = true := by
  have hcached := (Compilation.colonsCached_compile config roles provider).inMode strict
  obtain ⟨hrule, hgrants, -⟩ := Evaluator.least_of_decide_eq_allow hcached hd
  rw [Evaluator.grantsAt_inMode_iff] at hgrants
  obtain ⟨happlies, hkept⟩ := Evaluator.applies_of_ruleFor? hrule
  rw [Compilation.strictConditions_compile_inMode] at hkept
  refine ⟨happlies, hkept, ?_, fun condition hc hne hw =>
    Compilation.condition_of_grantsAt hgrants hc hne hw⟩
  obtain ⟨source, hmem, hkey, hs⟩ := Compilation.grantsAt_compile_iff.mp hgrants
  obtain ⟨policy, hpolicy, htext⟩ := Config.mem_rules_iff.mp hmem
  obtain ⟨hheld, hcondition⟩ := Compilation.satisfiedBy_policyOf_iff.mp hs
  rw [Rule.key_eq_keyOf] at hkey
  refine ⟨source.role, policy, hpolicy, source.text, htext, hkey, ?_⟩
  exact ⟨⟨rule, hkey ▸ happlies, hkept⟩, hheld,
    Compilation.satisfiedBy_conditionPolicy_iff.mp hcondition⟩

/-- A key with a condition grants an action without one. -/
theorem justified_of_decide_eq_allow_bare :
    let config := Config.empty.withRole "editor" ["read", "edit:isOwner"]
    let q : Request Entity Entity := ⟨{ Entity.empty with id := "alice", roles := ["editor"] },
      { Entity.empty with ownerId := "alice" }, "edit"⟩
    (((compile config .flat builtinRegistry.lookup).value.evaluator.inMode false).decide
        q).value.value = .allow "edit:isOwner" .conditionCoversBase ∧
      Action.Applies .conditionCoversBase "edit:isOwner" "edit" ∧
      (∃ role policy, config.policies.get? role = some policy ∧ ∃ text ∈ policy.allow,
        Rule.keyOf text = "edit:isOwner" ∧
          Grants .flat builtinRegistry.lookup false role text q) ∧
      ∃ p, builtinRegistry.lookup "isOwner" = .ok p ∧ p.satisfiedBy q = true := by
  intro config q
  have hd : (((compile config .flat builtinRegistry.lookup).value.evaluator.inMode false).decide
      q).value.value = .allow "edit:isOwner" .conditionCoversBase := by decide +kernel
  obtain ⟨happlies, -, hrule, hcondition⟩ :=
    justified_of_decide_eq_allow config .flat builtinRegistry.lookup false q hd
  have hkey : (Action.parse "edit:isOwner").condition = "isOwner" := by decide +kernel
  exact ⟨hd, happlies, hrule, hcondition "isOwner" hkey (by decide) (by decide)⟩

end AccessPolicy

import AccessPolicy.Compilation
import AccessPolicy.Proofs.Config.Rule
import AccessPolicy.Proofs.Evaluator.Decision
import AccessPolicy.Proofs.Role.Reachability

/-! What a compiled configuration grants. Compiling adds one policy for each rule, in order, so a
request is granted exactly if some rule grants it: rules of one key do not displace each other, and
a rule whose condition is not resolved grants nothing. -/

namespace AccessPolicy

variable {S R : Type}

/-- A condition holds for a request: it is the wildcard, or the provider resolves it to a predicate
that holds. -/
def ConditionHolds (provider : Provider S R) (condition : String) (q : Request S R) : Prop :=
  condition = wildcard ∨ ∃ p, provider condition = .ok p ∧ p.satisfiedBy q = true

namespace Compilation

/-- The provider is asked for a rule's condition if it is not the wildcard, and its errors come with
the rule that they are about. -/
theorem value_conditionPredicate {provider : Provider S R} {rule : Rule} {condition : String}
    (hc : Rule.Conditioned rule.text condition) :
    (conditionPredicate provider rule).value =
      if condition = wildcard then .ok .allow
      else (provider condition).mapError fun source =>
        ⟨rule.role, rule.text, condition, source⟩ := by
  rw [conditionPredicate, Rule.namedCondition?_eq hc]
  by_cases hw : condition = wildcard
  · rw [if_pos hw, if_pos hw]
    rfl
  · rw [if_neg hw, if_neg hw]
    rfl

/-- The policy of a rule's condition; one that is not resolved denies. -/
def conditionPolicy (provider : Provider S R) (rule : Rule) : RequestPredicate S R :=
  match (conditionPredicate provider rule).value with
  | .ok p => p
  | .error _ => .deny

theorem satisfiedBy_conditionPolicy_iff_of_conditioned {provider : Provider S R} {rule : Rule}
    {condition : String} {q : Request S R} (hc : Rule.Conditioned rule.text condition) :
    (conditionPolicy provider rule).satisfiedBy q = true ↔ ConditionHolds provider condition q := by
  rw [conditionPolicy, value_conditionPredicate hc, ConditionHolds]
  by_cases hw : condition = wildcard
  · simp [hw, Predicate.allow]
  · rw [if_neg hw]
    cases hp : provider condition <;> simp [hw, Except.mapError, Predicate.deny]

/-- The policy of a condition holds where the condition does. -/
theorem satisfiedBy_conditionPolicy_iff {provider : Provider S R} {rule : Rule} {q : Request S R} :
    (conditionPolicy provider rule).satisfiedBy q = true ↔
      ∃ condition, Rule.Conditioned rule.text condition ∧ ConditionHolds provider condition q := by
  obtain ⟨condition, hc⟩ := Rule.exists_conditioned rule.text
  rw [Rule.exists_conditioned_iff hc]
  exact satisfiedBy_conditionPolicy_iff_of_conditioned hc

variable [RoleBearer S] {roles : RoleMatcher} {provider : Provider S R}

theorem satisfiedBy_hasRole_iff {role : String} {q : Request S R} :
    (roles.hasRole role).satisfiedBy q = true ↔
      ∃ held ∈ RoleBearer.roles q.subject, roles.hierarchy.Reaches held role := by
  rw [RoleMatcher.hasRole, Predicate.satisfiedBy_ofBool, List.any_eq_true]
  simp only [RoleMatcher.roleMatches, RoleHierarchy.implies_iff_reaches]

/-- The call that adds the policy of a rule: both its role and its condition are required. -/
def callOf (roles : RoleMatcher) (provider : Provider S R) (rule : Rule) : Evaluator.Call S R :=
  .addPolicy rule.key ((roles.hasRole rule.role).and (conditionPolicy provider rule))

theorem evaluator_addRule (c : Compilation S R) (rule : Rule) :
    (addRule roles provider c rule).value.evaluator =
      c.evaluator.perform (callOf roles provider rule) := by
  unfold addRule callOf conditionPolicy
  rcases conditionPredicate provider rule with ⟨_ | _, _⟩ <;> rfl

/-- Adding rules makes a call of the table for each of them. -/
theorem evaluator_foldlM (rules : List Rule) (c : Compilation S R) :
    (rules.foldlM (addRule roles provider) c).value.evaluator =
      (rules.map (callOf roles provider)).foldl Evaluator.perform c.evaluator := by
  induction rules generalizing c with
  | nil => rfl
  | cons rule rules ih =>
    rw [List.foldlM_cons, Recorded.value_bind, ih, evaluator_addRule]
    rfl

/-- A list to which each rule adds at most one entry has the entries of all rules, in order. -/
theorem foldlM_addRule_append {β : Type} (list : Compilation S R → List β) {added : Rule → Option β}
    (hstep : ∀ c rule, list (addRule roles provider c rule).value = list c ++ (added rule).toList)
    (rules : List Rule) (c : Compilation S R) :
    list (rules.foldlM (addRule roles provider) c).value = list c ++ rules.filterMap added := by
  induction rules generalizing c with
  | nil => simp
  | cons rule rules ih =>
    rw [List.foldlM_cons, Recorded.value_bind, ih, hstep, List.append_assoc]
    cases hadded : added rule <;> simp [hadded]

/-- Compiling makes one call for each rule, whether or not its condition is resolved. -/
theorem evaluator_compile (config : Config) (roles : RoleMatcher) (provider : Provider S R) :
    (compile config roles provider).value.evaluator =
      Evaluator.ofCalls (config.rules.map (callOf roles provider)) :=
  evaluator_foldlM config.rules empty

theorem evaluator_compile_inMode (config : Config) (roles : RoleMatcher)
    (provider : Provider S R) (strict : Bool) :
    (compile config roles provider).value.evaluator.inMode strict =
      Evaluator.ofCalls
        (config.rules.map (callOf roles provider) ++ if strict then [.strict] else []) := by
  rw [evaluator_compile]
  cases strict with
  | false => simp [Evaluator.inMode]
  | true =>
    rw [Evaluator.inMode, if_pos rfl, if_pos rfl, Evaluator.ofCalls, Evaluator.ofCalls,
      List.foldl_append]
    rfl

end Compilation

variable [RoleBearer S]

/-- A rule that is allowed to a role grants a request, in strict mode or without it: its key applies
to the action, the subject holds a role from which the role can be reached, and its condition
holds. -/
structure Grants (roles : RoleMatcher) (provider : Provider S R) (strict : Bool)
    (role text : String) (q : Request S R) : Prop where
  applies : ∃ rule, Action.Applies rule (Rule.keyOf text) q.action ∧
    (strict = true → rule ≠ .conditionCoversBase)
  held : ∃ held ∈ RoleBearer.roles q.subject, roles.hierarchy.Reaches held role
  condition : ∃ condition, Rule.Conditioned text condition ∧ ConditionHolds provider condition q

/-- A compiled configuration grants a request exactly if one of the rules does that it allows to a
role. -/
theorem evaluate_compile_iff (config : Config) (roles : RoleMatcher) (provider : Provider S R)
    (strict : Bool) (q : Request S R) :
    (((compile config roles provider).value.evaluator.inMode strict).evaluate q).value.value =
        true ↔
      ∃ role policy, config.policies.get? role = some policy ∧
        ∃ text ∈ policy.allow, Grants roles provider strict role text q := by
  have hmode : Evaluator.Call.strict ∈ config.rules.map (Compilation.callOf roles provider) ++
      (if strict then [.strict] else []) ↔ strict = true := by
    cases strict <;> simp [Compilation.callOf]
  have hcall : ∀ key p, Evaluator.Call.addPolicy key p ∈
      config.rules.map (Compilation.callOf roles provider) ++ (if strict then [.strict] else []) ↔
        ∃ rule ∈ config.rules, Compilation.callOf roles provider rule = .addPolicy key p := by
    intro key p
    cases strict <;> simp
  rw [Compilation.evaluator_compile_inMode, Evaluator.evaluate_ofCalls_iff]
  simp only [hmode, hcall]
  constructor
  · rintro ⟨key, p, ⟨rule, hmem, heq⟩, hp, happlies⟩
    obtain ⟨rfl, rfl⟩ := Evaluator.Call.addPolicy.inj heq
    obtain ⟨policy, hpolicy, htext⟩ := Config.mem_rules_iff.mp hmem
    rw [Predicate.satisfiedBy_and, Bool.and_eq_true, Compilation.satisfiedBy_hasRole_iff,
      Compilation.satisfiedBy_conditionPolicy_iff] at hp
    rw [Rule.key_eq_keyOf] at happlies
    exact ⟨rule.role, policy, hpolicy, rule.text, htext, happlies, hp.1, hp.2⟩
  · rintro ⟨role, policy, hpolicy, text, htext, happlies, hheld, hcondition⟩
    have hmem : (⟨role, text⟩ : Rule) ∈ config.rules :=
      Config.mem_rules_iff.mpr ⟨policy, hpolicy, htext⟩
    refine ⟨_, _, ⟨⟨role, text⟩, hmem, rfl⟩, ?_, ?_⟩
    · rw [Predicate.satisfiedBy_and, Bool.and_eq_true]
      exact ⟨Compilation.satisfiedBy_hasRole_iff.mpr hheld,
        Compilation.satisfiedBy_conditionPolicy_iff.mpr hcondition⟩
    · rw [Rule.key_eq_keyOf]
      exact happlies

end AccessPolicy

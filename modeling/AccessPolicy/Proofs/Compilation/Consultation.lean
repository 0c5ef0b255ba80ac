import AccessPolicy.Entity
import AccessPolicy.Proofs.Compilation.Table
import AccessPolicy.Proofs.Evaluator.Alternatives

/-! The conditions that are consulted for a request, and in which order. `Consults` describes a
consultation rule by rule: a rule whose role the subject does not reach is passed over with its
condition, and the first condition that holds ends the consultation. An evaluation of a compiled
configuration consults the rules of the keys that apply: by key, and the rules of one key in the
order of the configuration. -/

namespace AccessPolicy

variable {S R : Type}

/-- What consulting the condition of a rule yields. The wildcard holds and a condition that is not
resolved does not, both without a check; any other condition is decided by its predicate. -/
inductive ConditionYields (provider : Provider S R) (q : Request S R) :
    String → Traced Bool → Prop
  | unconditional {text : String} :
      Rule.Conditioned text wildcard → ConditionYields provider q text ⟨true, []⟩
  | resolved {text condition : String} {p : RequestPredicate S R} :
      Rule.Conditioned text condition → condition ≠ wildcard →
      provider condition = .ok p → ConditionYields provider q text (p.run q)
  | unresolved {text condition : String} {error : PolicyError} :
      Rule.Conditioned text condition → condition ≠ wildcard →
      provider condition = .error error → ConditionYields provider q text ⟨false, []⟩

namespace Compilation

variable {provider : Provider S R} {rule : Rule} {q : Request S R} {outcome : Traced Bool}

theorem conditionPolicy_eq {condition : String} (hc : Rule.Conditioned rule.text condition) :
    conditionPolicy provider rule =
      if condition = wildcard then .allow
      else match provider condition with
        | .ok p => p
        | .error _ => .deny := by
  rw [conditionPolicy, value_conditionPredicate hc]
  by_cases hw : condition = wildcard
  · rw [if_pos hw, if_pos hw]
  · rw [if_neg hw, if_neg hw]
    cases provider condition <;> rfl

theorem conditionYields_iff :
    ConditionYields provider q rule.text outcome ↔
      (conditionPolicy provider rule).run q = outcome := by
  constructor
  · generalize htext : rule.text = text
    intro hy
    cases hy with
    | unconditional hc => rw [conditionPolicy_eq (htext ▸ hc), if_pos rfl]; rfl
    | resolved hc hw hp => rw [conditionPolicy_eq (htext ▸ hc), if_neg hw, hp]
    | unresolved hc hw hp => rw [conditionPolicy_eq (htext ▸ hc), if_neg hw, hp]; rfl
  · rintro rfl
    obtain ⟨condition, hc⟩ := Rule.exists_conditioned rule.text
    rw [conditionPolicy_eq hc]
    by_cases hw : condition = wildcard
    · subst hw
      rw [if_pos rfl]
      exact .unconditional hc
    · rw [if_neg hw]
      cases hp : provider condition with
      | ok p => exact .resolved hc hw hp
      | error error => exact .unresolved hc hw hp

end Compilation

variable [RoleBearer S]

/-- The subject holds a role from which `role` can be reached. -/
def RoleMatcher.Reached (roles : RoleMatcher) (q : Request S R) (role : String) : Prop :=
  ∃ held ∈ RoleBearer.roles q.subject, roles.hierarchy.Reaches held role

/-- Consulting rules in turn yields a verdict with its trace. -/
inductive Consults (roles : RoleMatcher) (provider : Provider S R) (q : Request S R) :
    List Rule → Traced Bool → Prop
  | exhausted : Consults roles provider q [] ⟨false, []⟩
  | passedOver {rule : Rule} {rest : List Rule} {outcome : Traced Bool} :
      ¬roles.Reached q rule.role → Consults roles provider q rest outcome →
      Consults roles provider q (rule :: rest) outcome
  | granted {rule : Rule} {rest : List Rule} {trace : List String} :
      roles.Reached q rule.role → ConditionYields provider q rule.text ⟨true, trace⟩ →
      Consults roles provider q (rule :: rest) ⟨true, trace⟩
  | refused {rule : Rule} {rest : List Rule} {trace : List String} {later : Traced Bool} :
      roles.Reached q rule.role → ConditionYields provider q rule.text ⟨false, trace⟩ →
      Consults roles provider q rest later →
      Consults roles provider q (rule :: rest) ⟨later.value, trace ++ later.notes⟩

namespace Compilation

variable {roles : RoleMatcher} {provider : Provider S R} {rule : Rule} {rules : List Rule}
  {q : Request S R} {outcome : Traced Bool}

/-- The policies of rules, consulted in order up to the first that holds. -/
def anyPolicyOf (roles : RoleMatcher) (provider : Provider S R) (rules : List Rule) :
    RequestPredicate S R :=
  Predicate.anyOf (rules.map (policyOf roles provider))

theorem run_policyOf_of_not_reached (hr : ¬roles.Reached q rule.role) :
    (policyOf roles provider rule).run q = ⟨false, []⟩ :=
  Predicate.run_and_of_not_satisfied _ (Bool.eq_false_iff.mpr fun h =>
    hr (satisfiedBy_hasRole_iff.mp h))

theorem run_policyOf_of_reached (hr : roles.Reached q rule.role) :
    (policyOf roles provider rule).run q = (conditionPolicy provider rule).run q :=
  Predicate.run_and_of_satisfied _ (satisfiedBy_hasRole_iff.mpr hr)

/-- The rules after one that holds are not consulted. -/
theorem run_anyPolicyOf_of_satisfied
    (hs : (policyOf roles provider rule).satisfiedBy q = true) :
    (anyPolicyOf roles provider (rule :: rules)).run q =
      ⟨true, ((policyOf roles provider rule).run q).notes⟩ :=
  Predicate.run_or_of_satisfied _ hs

theorem run_anyPolicyOf_of_not_satisfied
    (hs : (policyOf roles provider rule).satisfiedBy q = false) :
    (anyPolicyOf roles provider (rule :: rules)).run q =
      ⟨((anyPolicyOf roles provider rules).run q).value,
        ((policyOf roles provider rule).run q).notes ++
          ((anyPolicyOf roles provider rules).run q).notes⟩ :=
  Predicate.run_or_of_not_satisfied _ hs

theorem run_anyPolicyOf_of_consults (hc : Consults roles provider q rules outcome) :
    (anyPolicyOf roles provider rules).run q = outcome := by
  induction hc with
  | exhausted => rfl
  | @passedOver rule _ _ hr _ ih =>
    have hrun : (policyOf roles provider rule).run q = ⟨false, []⟩ :=
      run_policyOf_of_not_reached hr
    rw [run_anyPolicyOf_of_not_satisfied (congrArg Recorded.value hrun), hrun, ih]
    rfl
  | granted hr hy =>
    have hrun := (run_policyOf_of_reached hr).trans (conditionYields_iff.mp hy)
    rw [run_anyPolicyOf_of_satisfied (congrArg Recorded.value hrun), hrun]
  | refused hr hy _ ih =>
    have hrun := (run_policyOf_of_reached hr).trans (conditionYields_iff.mp hy)
    rw [run_anyPolicyOf_of_not_satisfied (congrArg Recorded.value hrun), hrun, ih]

theorem consults_run_anyPolicyOf (rules : List Rule) :
    Consults roles provider q rules ((anyPolicyOf roles provider rules).run q) := by
  -- each case rewrites the run to the outcome of the constructor that it is then an instance of
  induction rules with
  | nil => exact .exhausted
  | cons rule rules ih =>
    by_cases hr : roles.Reached q rule.role
    · rcases houtcome : (conditionPolicy provider rule).run q with ⟨verdict, trace⟩
      have hy : ConditionYields provider q rule.text ⟨verdict, trace⟩ :=
        conditionYields_iff.mpr houtcome
      cases verdict with
      | true =>
        rw [run_anyPolicyOf_of_consults (.granted hr hy)]
        exact .granted hr hy
      | false =>
        rw [run_anyPolicyOf_of_consults (.refused hr hy ih)]
        exact .refused hr hy ih
    · rw [run_anyPolicyOf_of_consults (.passedOver hr ih)]
      exact .passedOver hr ih

/-- Running the disjunction of the rules consults them in order, up to the first that holds. -/
theorem consults_iff :
    Consults roles provider q rules outcome ↔
      (anyPolicyOf roles provider rules).run q = outcome := by
  constructor
  · exact run_anyPolicyOf_of_consults
  · rintro rfl
    exact consults_run_anyPolicyOf rules

/-! ### The rules behind a table -/

theorem filterMap_addedAt?_map_callOf (rules : List Rule) (key : String) :
    (rules.map (callOf roles provider)).filterMap (Evaluator.Call.addedAt? key) =
      (rules.filter (·.key = key)).map (policyOf roles provider) := by
  induction rules with
  | nil => rfl
  | cons rule rules ih =>
    rw [List.map_cons, List.filterMap_cons, List.filter_cons, ih, callOf,
      Evaluator.Call.addedAt?]
    by_cases hk : rule.key = key <;> simp [hk, policyOf]

/-- Under a key stands the disjunction of the rules with this key, in their order. -/
theorem policyAt_compile_inMode (config : Config) (roles : RoleMatcher) (provider : Provider S R)
    (strict : Bool) (key : String) :
    ((compile config roles provider).value.evaluator.inMode strict).policyAt key =
      anyPolicyOf roles provider (config.rules.filter (·.key = key)) := by
  rw [Evaluator.policyAt_inMode, evaluator_compile, Evaluator.policyAt_ofCalls,
    filterMap_addedAt?_map_callOf, anyPolicyOf]

/-- A compiled table consults the rules of the keys that apply, one key after another. -/
theorem evaluate_compile_value (config : Config) (roles : RoleMatcher) (provider : Provider S R)
    (strict : Bool) (q : Request S R) :
    let e := (compile config roles provider).value.evaluator.inMode strict
    (e.evaluate q).value =
      (anyPolicyOf roles provider
        ((e.keysFor q.action).flatMap fun key => config.rules.filter (·.key = key))).run q := by
  intro e
  have hc : e.ColonsCached := (colonsCached_compile config roles provider).inMode strict
  have hpolicies : e.policyAt = fun key =>
      Predicate.anyOf ((config.rules.filter (·.key = key)).map (policyOf roles provider)) :=
    funext (policyAt_compile_inMode config roles provider strict)
  rw [Evaluator.evaluate_value_eq_run_policyAt hc, anyPolicyOf, List.map_flatMap,
    Predicate.anyOf_flatMap, hpolicies]

/-- The keys that are consulted are those of rules that apply to the action. -/
theorem mem_keysFor_compile_iff {config : Config} {strict : Bool} {key action : String} :
    let e := (compile config roles provider).value.evaluator.inMode strict
    key ∈ e.keysFor action ↔
      (∃ rule ∈ config.rules, rule.key = key) ∧
        Action.AppliesIn (strict = true) key action := by
  intro e
  rw [Evaluator.keysFor, List.mem_filter, Evaluator.keys_inMode, mem_keys_compile_iff,
    Evaluator.ruleFor?_isSome_iff, strictConditions_compile_inMode]
  rfl

end Compilation

/-- The rules of a configuration are listed by role and those of one role as they are given.
Evaluating a request consults the rules of the keys that apply to the action: the keys in increasing
order, and the rules of one key as they are listed. Deciding has the same trace. -/
theorem evaluate_consults_in_key_order (config : Config) (roles : RoleMatcher)
    (provider : Provider S R) (strict : Bool) (q : Request S R) :
    let e := (compile config roles provider).value.evaluator.inMode strict
    (config.rules.Pairwise fun a b => a.role ≤ b.role) ∧
    (∀ role, config.rules.filter (·.role = role) = (config.allowed role).map (Rule.mk role)) ∧
    (∃ keys : List String, keys.Pairwise (· < ·) ∧
      (∀ key, key ∈ keys ↔ (∃ rule ∈ config.rules, Rule.keyOf rule.text = key) ∧
        Action.AppliesIn (strict = true) key q.action) ∧
      ∀ outcome, Consults roles provider q
          (keys.flatMap fun key => config.rules.filter fun rule => Rule.keyOf rule.text = key)
          outcome ↔
        (e.evaluate q).value = outcome) ∧
    (e.decide q).value.notes = (e.evaluate q).value.notes := by
  intro e
  refine ⟨config.pairwise_role_rules, config.filter_role_rules,
    ⟨e.keysFor q.action, e.pairwise_keysFor q.action, fun key => ?_, fun outcome => ?_⟩, ?_⟩
  · simp only [← Rule.key_eq_keyOf]
    exact Compilation.mem_keysFor_compile_iff
  · simp only [← Rule.key_eq_keyOf]
    rw [Compilation.consults_iff, Compilation.evaluate_compile_value]
  · rw [← Evaluator.isAllowed_decide, Recorded.notes_map]

example :
    let provider : Provider Entity Entity := fun name => .ok (.probe name .deny)
    let config := (Config.empty.withRole "guest" ["read:own", "read:ip", "read:own"]).withRole
      "editor" ["read:tag"]
    let q : Request Entity Entity := ⟨{ Entity.empty with roles := ["guest"] }, .empty, "read"⟩
    ((compile config .flat provider).value.evaluator.evaluate q).value =
      ⟨false, ["ip", "own", "own"]⟩ := by
  cbv

end AccessPolicy

import AccessPolicy.Proofs.Compilation
import AccessPolicy.Proofs.Evaluator.Agreement
import Mathlib.Data.List.Dedup

/-! The table of a compiled configuration: its keys are those of the rules, and under a key it
grants what the policies of the rules with that key grant. Strict mode changes neither, so
compilations with the same keys that grant the same under each of them answer alike in both modes.
-/

namespace AccessPolicy

namespace Evaluator

variable {S R : Type} {e : Evaluator S R} {strict : Bool}

theorem keys_inMode : (e.inMode strict).keys = e.keys := by
  cases strict <;> rfl

theorem grantsAt_inMode_iff {key : String} {q : Request S R} :
    (e.inMode strict).GrantsAt key q ↔ e.GrantsAt key q := by
  cases strict <;> rfl

theorem ColonsCached.inMode (hc : e.ColonsCached) (strict : Bool) :
    (e.inMode strict).ColonsCached := by
  cases strict <;> exact hc

end Evaluator

namespace Compilation

variable {S R : Type} [RoleBearer S] {config : Config} {roles : RoleMatcher}
  {provider : Provider S R}

/-- The policy of a rule: the subject needs the rule's role, and the rule's condition must hold. -/
def policyOf (roles : RoleMatcher) (provider : Provider S R) (rule : Rule) : RequestPredicate S R :=
  (roles.hasRole rule.role).and (conditionPolicy provider rule)

theorem satisfiedBy_policyOf_iff {rule : Rule} {q : Request S R} :
    (policyOf roles provider rule).satisfiedBy q = true ↔
      (∃ held ∈ RoleBearer.roles q.subject, roles.hierarchy.Reaches held rule.role) ∧
        (conditionPolicy provider rule).satisfiedBy q = true := by
  rw [policyOf, Predicate.satisfiedBy_and, Bool.and_eq_true, satisfiedBy_hasRole_iff]

theorem mem_map_callOf_iff {rules : List Rule} {key : String} {p : RequestPredicate S R} :
    Evaluator.Call.addPolicy key p ∈ rules.map (callOf roles provider) ↔
      ∃ rule ∈ rules, rule.key = key ∧ policyOf roles provider rule = p := by
  simp only [List.mem_map, callOf, Evaluator.Call.addPolicy.injEq]
  rfl

theorem colonsCached_compile (config : Config) (roles : RoleMatcher) (provider : Provider S R) :
    (compile config roles provider).value.evaluator.ColonsCached := by
  rw [evaluator_compile]
  exact Evaluator.colonsCached_ofCalls _

theorem strictConditions_compile_inMode (config : Config) (roles : RoleMatcher)
    (provider : Provider S R) (strict : Bool) :
    ((compile config roles provider).value.evaluator.inMode strict).strictConditions = strict := by
  cases strict with
  | true => rfl
  | false =>
    rw [Bool.eq_false_iff, Ne, evaluator_compile_inMode, Evaluator.strictConditions_ofCalls_iff]
    simp [callOf]

theorem mem_keys_compile_iff {key : String} :
    key ∈ (compile config roles provider).value.evaluator.keys ↔
      ∃ rule ∈ config.rules, rule.key = key := by
  rw [evaluator_compile, Evaluator.mem_keys_ofCalls_iff]
  simp only [mem_map_callOf_iff]
  constructor
  · rintro ⟨_, rule, hmem, hkey, -⟩
    exact ⟨rule, hmem, hkey⟩
  · rintro ⟨rule, hmem, hkey⟩
    exact ⟨_, rule, hmem, hkey, rfl⟩

/-- The keys depend on the rules alone, neither on how roles are matched nor on how conditions are
resolved. -/
theorem keys_compile_of_rules {S' R' : Type} [RoleBearer S'] {config' : Config}
    {roles' : RoleMatcher} {provider' : Provider S' R'}
    (hrules : ∀ rule, rule ∈ config.rules ↔ rule ∈ config'.rules) :
    (compile config roles provider).value.evaluator.keys =
      (compile config' roles' provider').value.evaluator.keys :=
  KeyMap.keys_eq_of_mem_iff fun key => by
    show key ∈ (compile config roles provider).value.evaluator.keys ↔
      key ∈ (compile config' roles' provider').value.evaluator.keys
    simp only [mem_keys_compile_iff, hrules]

/-- Rules of one key share an entry of the table. -/
theorem size_compile (config : Config) (roles : RoleMatcher) (provider : Provider S R) :
    (compile config roles provider).value.evaluator.size =
      (config.rules.map fun rule => Rule.keyOf rule.text).dedup.length := by
  have hnodup : (compile config roles provider).value.evaluator.keys.Nodup :=
    ((compile config roles provider).value.evaluator.policies.pairwise_keys).imp String.ne_of_lt
  have hperm : (compile config roles provider).value.evaluator.keys.Perm
      (config.rules.map fun rule => Rule.keyOf rule.text).dedup := by
    refine (List.perm_ext_iff_of_nodup hnodup (List.nodup_dedup _)).mpr fun key => ?_
    rw [mem_keys_compile_iff, List.mem_dedup, List.mem_map]
    simp only [Rule.key_eq_keyOf]
  rw [← hperm.length_eq]
  exact (List.length_map _).symm

/-- A key grants what some rule with this key grants. -/
theorem grantsAt_compile_iff {key : String} {q : Request S R} :
    (compile config roles provider).value.evaluator.GrantsAt key q ↔
      ∃ rule ∈ config.rules, rule.key = key ∧
        (policyOf roles provider rule).satisfiedBy q = true := by
  rw [evaluator_compile, Evaluator.grantsAt_ofCalls_iff]
  simp only [mem_map_callOf_iff]
  constructor
  · rintro ⟨_, ⟨rule, hmem, hkey, rfl⟩, hs⟩
    exact ⟨rule, hmem, hkey, hs⟩
  · rintro ⟨rule, hmem, hkey, hs⟩
    exact ⟨_, ⟨rule, hmem, hkey, rfl⟩, hs⟩

/-- A request is allowed if some rule with a key that applies grants it. -/
theorem evaluate_compile_inMode_iff {strict : Bool} {q : Request S R} :
    (((compile config roles provider).value.evaluator.inMode strict).evaluate q).value.value =
        true ↔
      ∃ rule ∈ config.rules, Action.AppliesIn (strict = true) rule.key q.action ∧
        (policyOf roles provider rule).satisfiedBy q = true := by
  rw [Evaluator.evaluate_iff ((colonsCached_compile config roles provider).inMode strict)]
  simp only [Evaluator.ruleFor?_isSome_iff, strictConditions_compile_inMode,
    Evaluator.grantsAt_inMode_iff, grantsAt_compile_iff]
  constructor
  · rintro ⟨key, happlies, rule, hmem, rfl, hs⟩
    exact ⟨rule, hmem, happlies, hs⟩
  · rintro ⟨rule, hmem, happlies, hs⟩
    exact ⟨rule.key, happlies, rule, hmem, rfl, hs⟩

theorem evaluate_compile_inMode_iff_grants {strict : Bool} {q : Request S R} :
    (((compile config roles provider).value.evaluator.inMode strict).evaluate q).value.value =
        true ↔
      ∃ rule ∈ config.rules, Grants roles provider strict rule.role rule.text q := by
  rw [evaluate_compile_inMode_iff]
  simp only [satisfiedBy_policyOf_iff, satisfiedBy_conditionPolicy_iff, Rule.key_eq_keyOf]
  constructor
  · rintro ⟨rule, hmem, happlies, hheld, hcondition⟩
    exact ⟨rule, hmem, happlies, hheld, hcondition⟩
  · rintro ⟨rule, hmem, happlies, hheld, hcondition⟩
    exact ⟨rule, hmem, happlies, hheld, hcondition⟩

/-! ### Compilations that agree -/

section Congr

variable {config' : Config} {roles' : RoleMatcher} {provider' : Provider S R} {q q' : Request S R}

theorem evaluate_compile_congr (strict : Bool) (haction : q.action = q'.action)
    (hgrants : ∀ key, (compile config roles provider).value.evaluator.GrantsAt key q ↔
      (compile config' roles' provider').value.evaluator.GrantsAt key q') :
    (((compile config roles provider).value.evaluator.inMode strict).evaluate q).value.value =
      (((compile config' roles' provider').value.evaluator.inMode strict).evaluate
        q').value.value := by
  have hc := (colonsCached_compile config roles provider).inMode strict
  have hc' := (colonsCached_compile config' roles' provider').inMode strict
  refine Evaluator.evaluate_congr hc hc' ?_ haction fun key => ?_
  · rw [strictConditions_compile_inMode, strictConditions_compile_inMode]
  · rw [Evaluator.grantsAt_inMode_iff, Evaluator.grantsAt_inMode_iff]
    exact hgrants key

/-- Tables that have the same keys and grant the same under each decide alike. -/
theorem decide_compile_congr (strict : Bool) (haction : q.action = q'.action)
    (hkeys : (compile config roles provider).value.evaluator.keys =
      (compile config' roles' provider').value.evaluator.keys)
    (hgrants : ∀ key, (compile config roles provider).value.evaluator.GrantsAt key q ↔
      (compile config' roles' provider').value.evaluator.GrantsAt key q') :
    (((compile config roles provider).value.evaluator.inMode strict).decide q).value.value =
      (((compile config' roles' provider').value.evaluator.inMode strict).decide
        q').value.value := by
  have hc := (colonsCached_compile config roles provider).inMode strict
  have hc' := (colonsCached_compile config' roles' provider').inMode strict
  refine Evaluator.decide_congr hc hc' ?_ ?_ haction fun key => ?_
  · rw [strictConditions_compile_inMode, strictConditions_compile_inMode]
  · rw [Evaluator.keys_inMode, Evaluator.keys_inMode, hkeys]
  · rw [Evaluator.grantsAt_inMode_iff, Evaluator.grantsAt_inMode_iff]
    exact hgrants key

end Congr

end Compilation

end AccessPolicy

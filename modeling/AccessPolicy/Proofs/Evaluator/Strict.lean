import AccessPolicy.Proofs.Evaluator.Agreement

/-! Strict mode. It leaves out the policies that apply by the last rule, those of keys with a
condition for an action without one, and changes nothing else. So an action with a condition is
matched as in default mode, and an action without a colon by no keys but the wildcard, the action
itself and the action with the wildcard for its condition. -/

namespace AccessPolicy

namespace Action

variable {key action : String}

/-- In strict mode at most three keys apply to an action without a colon. -/
theorem appliesIn_bare_iff (hb : ':' ∉ action.toList) {strict : Prop} (hs : strict) :
    AppliesIn strict key action ↔
      key = wildcard ∨ key = action ∨ key = action ++ ":" ++ wildcard := by
  have hbare : Divided action action "" := .bare hb
  constructor
  · rintro ⟨rule, happlies, hkept⟩
    cases happlies with
    | global => exact .inl rfl
    | exact => exact .inr (.inl rfl)
    | anyCondition hk ha =>
      obtain ⟨rfl, -⟩ := hbare.unique ha
      exact .inr (.inr ((divided_iff_of_ne_empty (by decide)).mp hk).2)
    | baseCoversCondition hk ha hne => exact absurd (hbare.unique ha).2 hne
    | conditionCoversBase => exact absurd rfl (hkept hs)
  · rintro (rfl | rfl | rfl)
    · exact ⟨.global, .global action, by simp⟩
    · exact ⟨.exact, .exact key, by simp⟩
    · exact ⟨.anyCondition, .anyCondition (.colon wildcard hb) hbare, by simp⟩

end Action

namespace Evaluator

variable {S R : Type} {e : Evaluator S R} {action : String}

/-- The table of policies that are added one after the other. -/
def ofPolicies (policies : List (String × RequestPredicate S R)) : Evaluator S R :=
  ofCalls (policies.map fun (key, predicate) => .addPolicy key predicate)

theorem applies?_withStrictConditions (e : Evaluator S R) (requested : Action) (key : String)
    (entry : Entry S R) :
    e.withStrictConditions.applies? requested key entry =
      (e.applies? requested key entry).filter (·.rule ≠ .conditionCoversBase) := by
  unfold applies?
  cases (Action.withColon key entry.colon).matchRule? requested with
  | none => rfl
  | some rule =>
    by_cases hlast : rule = .conditionCoversBase
    · cases e.strictConditions <;> simp [hlast, withStrictConditions, Option.filter_some]
    · simp [hlast, withStrictConditions, Option.filter_some]

theorem applicable_withStrictConditions (e : Evaluator S R) (action : String) :
    e.withStrictConditions.applicable action =
      (e.applicable action).filter (·.rule ≠ .conditionCoversBase) := by
  rw [applicable, applicable, List.filter_filterMap]
  exact List.filterMap_congr fun entry _ => applies?_withStrictConditions e _ entry.1 entry.2

theorem mem_applicable_of_mem_strict {a : Applicable S R}
    (ha : a ∈ e.withStrictConditions.applicable action) : a ∈ e.applicable action := by
  rw [applicable_withStrictConditions] at ha
  exact (List.mem_filter.mp ha).1

theorem rule_ne_of_mem_applicable {base condition : String} (hc : e.ColonsCached)
    (hd : Action.Divided action base condition) (hne : condition ≠ "") {a : Applicable S R}
    (ha : a ∈ e.applicable action) : a.rule ≠ .conditionCoversBase := by
  intro hlast
  obtain ⟨happlies, -⟩ := applies_of_ruleFor? ((mem_applicable_iff hc).mp ha).1
  rw [hlast] at happlies
  cases happlies with
  | conditionCoversBase hk hne' ha => exact hne (ha.unique hd).2

/-- For actions with a condition strict mode makes no difference. -/
theorem matching_withStrictConditions_of_condition {base condition : String}
    (hc : e.ColonsCached) (hd : Action.Divided action base condition) (hne : condition ≠ "") :
    e.withStrictConditions.matching action = e.matching action := by
  have hsame : e.withStrictConditions.applicable action = e.applicable action := by
    rw [applicable_withStrictConditions, List.filter_eq_self]
    intro a ha
    exact decide_eq_true (rule_ne_of_mem_applicable hc hd hne ha)
  rw [matching, matching, hsame]

theorem evaluate_iff_exists_applicable {q : Request S R} :
    (e.evaluate q).value.value = true ↔
      ∃ a ∈ e.applicable q.action, a.predicate.satisfiedBy q = true := by
  rw [evaluate_value_eq_run]
  show (Predicate.anyOf _).satisfiedBy q = true ↔ _
  rw [Predicate.satisfiedBy_anyOf, List.any_map, List.any_eq_true]
  rfl

/-- In strict mode an action without a colon is matched by the entries of three keys in key order,
and an action with a condition as in default mode. For every action strict mode leaves out what
applies by the last rule, so it allows no request that default mode denies. -/
theorem matching_strict (policies : List (String × RequestPredicate S R)) :
    let e := ofPolicies policies
    let strict := e.withStrictConditions
    (∀ action, ':' ∉ action.toList →
      (strict.matching action).value.map (fun a => (a.key, a.predicate)) =
          (e.policies.toList.filter fun (key, _) =>
              key = wildcard ∨ key = action ∨ key = action ++ ":" ++ wildcard).map
            (fun (key, entry) => (key, entry.predicate)) ∧
        (strict.matching action).value.Pairwise fun a b => a.key < b.key) ∧
    (∀ base condition, ':' ∉ base.toList → condition ≠ "" →
      strict.matching (base ++ ":" ++ condition) = e.matching (base ++ ":" ++ condition)) ∧
    (∀ action, (strict.matching action).value =
      (e.matching action).value.filter (·.rule ≠ .conditionCoversBase)) ∧
    ∀ q, (strict.evaluate q).value.value = true → (e.evaluate q).value.value = true := by
  intro e strict
  have hc : e.ColonsCached := colonsCached_ofCalls _
  have hcs : strict.ColonsCached := hc.perform .strict
  refine ⟨fun action hb => ⟨?_, pairwise_applicable hcs action⟩, ?_,
    applicable_withStrictConditions e, ?_⟩
  · have hkeys : ∀ key, (strict.ruleFor? key action).isSome =
        Decidable.decide (key = wildcard ∨ key = action ∨ key = action ++ ":" ++ wildcard) := by
      intro key
      rw [Bool.eq_iff_iff, ruleFor?_isSome_iff, decide_eq_true_eq]
      exact Action.appliesIn_bare_iff hb rfl
    have hlisted := map_applicable hcs action
    simp only [hkeys] at hlisted
    exact hlisted
  · intro base condition hb hne
    exact matching_withStrictConditions_of_condition hc (.colon condition hb) hne
  · intro q hs
    obtain ⟨a, ha, hsatisfied⟩ := evaluate_iff_exists_applicable.mp hs
    exact evaluate_iff_exists_applicable.mpr ⟨a, mem_applicable_of_mem_strict ha, hsatisfied⟩

end Evaluator

end AccessPolicy

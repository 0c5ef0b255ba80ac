import AccessPolicy.Proofs.Compilation.Unresolved

/-! What compiling reports. There is one error for each unresolved rule, by role and then in the
order in which the rules of the role are given. Each error is logged as a warning when it is found,
and nothing else is, so errors and warnings come in the same order. Strict compilation fails with
these errors, if there are any, and yields the same table otherwise. -/

namespace AccessPolicy

/-- The rule that an error is about. -/
def RuleError.origin (e : RuleError) : Rule := ⟨e.role, e.rule⟩

/-- The event of a rule that is not resolved. -/
def RuleError.event (e : RuleError) : Event := .unresolvedCondition e.role e.rule e.condition

variable {S R : Type}

/-- An error has the condition of its rule, other than the wildcard, and the provider's reason for
not resolving it. -/
structure Explains (provider : Provider S R) (e : RuleError) : Prop where
  conditioned : Rule.Conditioned e.rule e.condition
  ne_wildcard : e.condition ≠ wildcard
  source : provider e.condition = .error e.source

namespace Compilation

variable {provider : Provider S R} {rule : Rule} {e : RuleError}

theorem error?_eq_some_iff :
    error? provider rule = some e ↔ e.origin = rule ∧ Explains provider e := by
  obtain ⟨condition, hc⟩ := Rule.exists_conditioned rule.text
  rw [error?, value_conditionPredicate hc]
  constructor
  · intro herror
    by_cases hw : condition = wildcard
    · simp [hw] at herror
    · rw [if_neg hw] at herror
      cases hp : provider condition with
      | ok p => simp [hp, Except.mapError] at herror
      | error source =>
        simp only [hp, Except.mapError, Option.some.injEq] at herror
        subst herror
        exact ⟨rfl, hc, hw, hp⟩
  · rintro ⟨rfl, hconditioned, hw, hsource⟩
    obtain rfl : e.condition = condition := hc.unique hconditioned
    simp only [if_neg hw, hsource, Except.mapError, RuleError.origin]

theorem map_origin_errors (provider : Provider S R) (rules : List Rule) :
    (rules.filterMap (error? provider)).map RuleError.origin =
      rules.filter fun rule => Unresolved provider rule.text := by
  have horigin : ∀ rule, (error? provider rule).map RuleError.origin =
      Option.guard (fun rule : Rule => decide (Unresolved provider rule.text)) rule := by
    intro rule
    cases herror : error? provider rule with
    | none =>
      have hresolved : ¬Unresolved provider rule.text := by
        rw [← isSome_error?_iff, herror]
        simp
      simp [Option.guard, hresolved]
    | some e =>
      have hunresolved : Unresolved provider rule.text := by
        rw [← isSome_error?_iff, herror]
        rfl
      simp [Option.guard, hunresolved, (error?_eq_some_iff.mp herror).1]
  rw [List.map_filterMap]
  simp only [horigin]
  rw [List.filterMap_eq_filter]

theorem explains_of_mem_errors {rules : List Rule} (he : e ∈ rules.filterMap (error? provider)) :
    Explains provider e := by
  obtain ⟨rule, -, herror⟩ := List.mem_filterMap.mp he
  exact (error?_eq_some_iff.mp herror).2

variable [RoleBearer S] {roles : RoleMatcher}

/-- There is one error for each rule that is not resolved, in the order of the rules. -/
theorem map_origin_errors_compile (config : Config) (roles : RoleMatcher)
    (provider : Provider S R) :
    (compile config roles provider).value.errors.map RuleError.origin =
      config.rules.filter fun rule => Unresolved provider rule.text := by
  rw [errors_compile, map_origin_errors]

theorem notes_addRule (c : Compilation S R) (rule : Rule) :
    (addRule roles provider c rule).notes =
      (error? provider rule).toList.map RuleError.event ++
        [.compiledRule rule.role rule.text rule.key, .registeringPolicy rule.key] := by
  unfold addRule error?
  rcases conditionPredicate provider rule with ⟨_ | _, _⟩ <;> rfl

theorem warnings_foldlM (rules : List Rule) (c : Compilation S R) :
    (rules.foldlM (addRule roles provider) c).notes.filter (·.level = .warn) =
      (rules.filterMap (error? provider)).map RuleError.event := by
  induction rules generalizing c with
  | nil => rfl
  | cons rule rules ih =>
    rw [List.foldlM_cons, Recorded.notes_bind, List.filter_append, ih, notes_addRule]
    cases herror : error? provider rule <;> simp [herror, RuleError.event, Event.level]

/-- Each error has a warning in the log, in the same order. -/
theorem warnings_compile (config : Config) (roles : RoleMatcher) (provider : Provider S R) :
    (compile config roles provider).notes.filter (·.level = .warn) =
      (compile config roles provider).value.errors.map RuleError.event := by
  rw [errors_compile]
  exact warnings_foldlM config.rules empty

theorem pairwise_role_errors (config : Config) (roles : RoleMatcher) (provider : Provider S R) :
    (compile config roles provider).value.errors.Pairwise fun a b => a.role ≤ b.role := by
  have horder := (config.pairwise_role_rules).filter fun rule => Unresolved provider rule.text
  rw [← map_origin_errors_compile config roles provider] at horder
  exact (List.pairwise_map (f := RuleError.origin)).mp horder

/-- The errors of a role stand in the order of its rules. -/
theorem filter_role_errors (config : Config) (roles : RoleMatcher) (provider : Provider S R)
    (role : String) :
    ((compile config roles provider).value.errors.filter (·.role = role)).map (·.rule) =
      (config.allowed role).filter fun text => Unresolved provider text := by
  calc ((compile config roles provider).value.errors.filter (·.role = role)).map (·.rule)
      = (((compile config roles provider).value.errors.map RuleError.origin).filter
          (·.role = role)).map (·.text) := by
        rw [List.filter_map, List.map_map]
        rfl
    _ = ((config.rules.filter (·.role = role)).filter
          fun rule => Unresolved provider rule.text).map (·.text) := by
        rw [map_origin_errors_compile, List.filter_filter, List.filter_filter]
        simp only [Bool.and_comm]
    _ = (config.allowed role).filter fun text => Unresolved provider text := by
        rw [Config.filter_role_rules, List.filter_map, List.map_map]
        exact List.map_id _

end Compilation

/-- There is one error for each unresolved rule, by role and in the order of the role's rules, with
the condition and the provider's reason. The warnings logged are these errors. Strict compilation
yields the same table if there is no error, and fails with the errors otherwise. -/
theorem compile_reports_unresolved [RoleBearer S] (config : Config) (roles : RoleMatcher)
    (provider : Provider S R) :
    let result := compile config roles provider
    let errors := result.value.errors
    let strict := compileStrict config roles provider
    (errors.Pairwise (fun a b => a.role ≤ b.role) ∧
      (∀ role, (errors.filter (·.role = role)).map (·.rule) =
        (config.allowed role).filter fun text => Unresolved provider text) ∧
      ∀ e ∈ errors, Explains provider e) ∧
    (errors = [] ↔ ∀ rule ∈ config.rules, ¬Unresolved provider rule.text) ∧
    result.notes.filter (·.level = .warn) = errors.map RuleError.event ∧
    strict.notes = result.notes ∧
    ((∃ e, strict.value = .ok e) ↔ errors = []) ∧
    (errors = [] → strict.value = .ok result.value.evaluator) ∧
    (errors ≠ [] → strict.value = .error (.compile errors)) := by
  intro result errors strict
  have herrors : errors = config.rules.filterMap (Compilation.error? provider) :=
    Compilation.errors_compile config roles provider
  have hvalue : strict.value =
      if errors.isEmpty then .ok result.value.evaluator else .error (.compile errors) :=
    Compilation.compileStrict_value config roles provider
  refine ⟨⟨Compilation.pairwise_role_errors config roles provider,
    Compilation.filter_role_errors config roles provider, ?_⟩, ?_,
    Compilation.warnings_compile config roles provider, ?_,
    Compilation.exists_compileStrict_eq_ok_iff, ?_, ?_⟩
  · intro e he
    rw [herrors] at he
    exact Compilation.explains_of_mem_errors he
  · rw [← List.map_eq_nil_iff, Compilation.map_origin_errors_compile, List.filter_eq_nil_iff]
    simp only [decide_eq_true_eq]
  · simp [strict, result, compileStrict]
  · intro hnil
    rw [hvalue, if_pos (List.isEmpty_iff.mpr hnil)]
  · intro hne
    rw [hvalue, if_neg (mt List.isEmpty_iff.mp hne)]

/-- A condition may be empty or hold a colon itself, and a rule that is given twice is reported
twice. -/
theorem compile_reports_unresolved_colons :
    let config := (Config.empty.withRole "editor"
      ["edit:missing", "edit:", "read:*", "edit:isOwner", "edit:missing"]).withRole "admin"
      ["edit:isOwner:x", "*"]
    let errors := (compile config .flat builtinRegistry.lookup).value.errors
    errors.map (fun e => (e.role, e.rule, e.condition)) =
        [("admin", "edit:isOwner:x", "isOwner:x"), ("editor", "edit:missing", "missing"),
          ("editor", "edit:", ""), ("editor", "edit:missing", "missing")] ∧
      (compileStrict config .flat builtinRegistry.lookup).value = .error (.compile errors) := by
  intro config errors
  have herrors : errors.map (fun e => (e.role, e.rule, e.condition)) =
      [("admin", "edit:isOwner:x", "isOwner:x"), ("editor", "edit:missing", "missing"),
        ("editor", "edit:", ""), ("editor", "edit:missing", "missing")] := by decide +kernel
  have hne : errors ≠ [] := by
    rintro hnil
    rw [hnil] at herrors
    cases herrors
  exact ⟨herrors,
    (compile_reports_unresolved config .flat builtinRegistry.lookup).2.2.2.2.2.2 hne⟩

end AccessPolicy

import AccessPolicy.Command
import AccessPolicy.Proofs.Compilation.Report
import AccessPolicy.Proofs.Conditions.Permission
import AccessPolicy.Proofs.Role.Cycle

/-! What validating a configuration reports. A rule is known if it has no condition, the wildcard or
a built-in one. Validation succeeds if all rules are known, and gives the number of roles and of
distinct keys; otherwise it has one line for each rule that is not known, in the order of the rules.
A cycle of the hierarchy comes first and changes nothing else. The other commands warn about the
same rules. -/

namespace AccessPolicy

/-- What may follow the first colon of a rule. -/
def knownConditions : List String :=
  [wildcard, "isOwner", "isCollaborator", "sharesTag", "isActive"]

/-- The text of a rule names no condition or a known one. -/
def Rule.Known (text : String) : Prop :=
  ∃ condition, Conditioned text condition ∧ condition ∈ knownConditions

/-- The known conditions are those that the registry of the built-in ones resolves. -/
theorem Rule.known_iff {text : String} :
    Known text ↔ ¬Unresolved builtinRegistry.lookup text := by
  obtain ⟨condition, hc⟩ := exists_conditioned text
  rw [Known, exists_conditioned_iff hc, Unresolved, exists_conditioned_iff hc]
  simp only [Registry.lookup_eq_error_iff, names_builtinRegistry, exists_and_left, exists_eq,
    and_true, knownConditions, List.mem_cons, List.not_mem_nil, or_false]
  tauto

instance : DecidablePred Rule.Known := fun _ => decidable_of_iff _ Rule.known_iff.symm

namespace Config

/-- The rules whose condition is not known, in their order. -/
def unknownRules (c : Config) : List Rule := c.rules.filter fun rule => ¬Rule.Known rule.text

/-- The keys of the rules, each of them once. -/
def distinctKeys (c : Config) : List String := (c.rules.map fun rule => Rule.keyOf rule.text).dedup

theorem unknownRules_eq_nil_iff {c : Config} :
    c.unknownRules = [] ↔ ∀ rule ∈ c.rules, Rule.Known rule.text := by
  simp only [unknownRules, List.filter_eq_nil_iff, decide_eq_true_eq, not_not]

end Config

/-- The report with some lines before its own. -/
def Report.preceded (r : Report) (lines : List String) : Report :=
  { r with lines := lines ++ r.lines }

theorem Report.preceded_nil (r : Report) : r.preceded [] = r := rfl

namespace Command

/-- The line for a policy without unknown rules. -/
def summaryLine (roles keys : Nat) : String := s!"ok: {roles} role(s), {keys} policy key(s)"

/-- The warning of a cycle. -/
def cycleLine (roles : List String) : String := s!"warning: role hierarchy cycle: {cycleText roles}"

/-- The line gives the role, the text and the condition of a rule, and that no predicate has the
name of the condition. -/
def ReportsUnknown (rule : Rule) (line : String) : Prop :=
  ∃ condition, Rule.Conditioned rule.text condition ∧
    line = s!"error: role '{rule.role}': rule '{rule.text}': " ++
      s!"failed to get predicate '{condition}': predicate not found: {condition}"

/-- What a report says about the rules: a summary if all of them are known, and otherwise a line for
each unknown rule, in order. -/
inductive ReportsRules (config : Config) : Report → Prop
  | known : (∀ rule ∈ config.rules, Rule.Known rule.text) →
      ReportsRules config
        ⟨[summaryLine config.policies.size config.distinctKeys.length], [], .ok true⟩
  | unknown {lines : List String} : config.unknownRules ≠ [] →
      List.Forall₂ ReportsUnknown config.unknownRules lines →
      ReportsRules config ⟨lines, [], .error (.unresolved config.unknownRules.length)⟩

/-- The warning of the cycle that is found, if any. -/
def cycleLines (h : RoleHierarchy) : List String :=
  match h.findCycle? with
  | some roles => [cycleLine roles]
  | none => []

/-- The errors of compiling with the built-in conditions, which do not depend on the hierarchy. -/
def errorsOf (c : Config) : List RuleError :=
  c.rules.filterMap (Compilation.error? builtinRegistry.lookup)

/-- The line for each unknown rule. -/
def errorLines (c : Config) : List String := (errorsOf c).map fun e => s!"error: {e.message}"

/-- What validation reports about the rules. -/
def rulesReport (c : Config) : Report :=
  if c.unknownRules = [] then
    ⟨[summaryLine c.policies.size c.distinctKeys.length], [], .ok true⟩
  else ⟨errorLines c, [], .error (.unresolved c.unknownRules.length)⟩

variable {config : Config}

/-! ### The errors -/

theorem errors_compileConfig (config : Config) :
    (compileConfig config).value.errors = errorsOf config := by
  rw [compileConfig_value, Compilation.errors_compile]
  rfl

/-- There is one error for each unknown rule, in the order of the rules. -/
theorem map_origin_errorsOf (config : Config) :
    (errorsOf config).map RuleError.origin = config.unknownRules := by
  rw [errorsOf, Compilation.map_origin_errors, Config.unknownRules]
  simp only [Rule.known_iff, not_not]

theorem length_errorsOf (config : Config) :
    (errorsOf config).length = config.unknownRules.length := by
  rw [← map_origin_errorsOf, List.length_map]

theorem errorsOf_eq_nil_iff : errorsOf config = [] ↔ config.unknownRules = [] := by
  rw [← map_origin_errorsOf, List.map_eq_nil_iff]

theorem reportsUnknown_errorLine {e : RuleError} (he : Explains builtinRegistry.lookup e) :
    ReportsUnknown e.origin s!"error: {e.message}" := by
  have hsource : e.source = .predicateNotFound e.condition :=
    (Registry.lookup_eq_error_iff.mp he.source).2
  refine ⟨e.condition, he.conditioned, ?_⟩
  rw [RuleError.message, hsource, PolicyError.message_predicateNotFound, ← String.toList_inj]
  simp [RuleError.origin, toString]

/-- One line for each unknown rule, in order. -/
theorem forall₂_errorLines (config : Config) :
    List.Forall₂ ReportsUnknown config.unknownRules (errorLines config) := by
  rw [← map_origin_errorsOf, errorLines, List.forall₂_map_left_iff, List.forall₂_map_right_iff,
    List.forall₂_same]
  intro e he
  exact reportsUnknown_errorLine (Compilation.explains_of_mem_errors he)

/-! ### The report -/

/-- The cycle comes first, and nothing else depends on the hierarchy. -/
theorem validate_eq (config : Config) :
    validate config = (rulesReport config).preceded (cycleLines config.hierarchy) := by
  have hsize : (compileConfig config).value.evaluator.size = config.distinctKeys.length := by
    rw [compileConfig_value, Compilation.size_compile]
    rfl
  unfold validate rulesReport
  by_cases hnil : config.unknownRules = []
  · have herrors : errorsOf config = [] := errorsOf_eq_nil_iff.mpr hnil
    simp only [errors_compileConfig, herrors, hsize, if_pos hnil]
    rfl
  · have hempty : ¬(errorsOf config).isEmpty = true := by
      rw [List.isEmpty_iff, errorsOf_eq_nil_iff]
      exact hnil
    simp only [errors_compileConfig, if_neg hempty, if_neg hnil, length_errorsOf]
    rfl

/-- What is printed about the rules reports the unknown ones. -/
theorem reportsRules_rulesReport (config : Config) : ReportsRules config (rulesReport config) := by
  unfold rulesReport
  split
  case isTrue hnil => exact .known (Config.unknownRules_eq_nil_iff.mp hnil)
  case isFalse hne => exact .unknown hne (forall₂_errorLines config)

theorem verdict_rulesReport_eq_ok_iff :
    (rulesReport config).verdict = .ok true ↔ config.unknownRules = [] := by
  unfold rulesReport
  split
  case isTrue hnil => simp [hnil]
  case isFalse hne => simp [hne]

theorem warningsOf_eq_nil_iff :
    warningsOf (compileConfig config).value.errors = [] ↔ config.unknownRules = [] := by
  rw [warningsOf, List.map_eq_nil_iff, errors_compileConfig, errorsOf_eq_nil_iff]

/-! ### The cycle -/

theorem cycleLines_eq_nil {h : RoleHierarchy} (hnone : ∀ role, ¬h.OnCycle role) :
    cycleLines h = [] := by
  rw [cycleLines, RoleHierarchy.findCycle?_eq_none_iff.mpr hnone]

theorem cycleLines_empty : cycleLines .empty = [] := by
  apply cycleLines_eq_nil
  rintro role ⟨child, he, -⟩
  cases he

/-- If there is a cycle, one is warned of. -/
theorem exists_cycleLines_eq_singleton {h : RoleHierarchy} (hcycle : ∃ role, h.OnCycle role) :
    ∃ roles, h.IsCycle roles ∧ cycleLines h = [cycleLine roles] := by
  cases hfind : h.findCycle? with
  | none =>
    obtain ⟨role, hrole⟩ := hcycle
    exact absurd hrole (RoleHierarchy.findCycle?_eq_none_iff.mp hfind role)
  | some roles =>
    have hline : cycleLines h = [cycleLine roles] := by rw [cycleLines, hfind]
    exact ⟨roles, RoleHierarchy.isCycle_of_findCycle? hfind, hline⟩

end Command

end AccessPolicy

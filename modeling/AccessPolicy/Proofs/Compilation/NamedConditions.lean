import AccessPolicy.Proofs.Compilation.Unresolved
import AccessPolicy.Proofs.Conditions

/-! What compiling asks its provider for. It asks for the conditions that rules name, which the
wildcard is never one of, so providers that answer alike for these names yield the same keys, the
same errors and the same decisions. What a registry holds under any other name makes no difference
at all. The hierarchy of the configuration is not consulted either. -/

namespace AccessPolicy

variable {S R : Type}

/-- Some rule names this condition, which is not the wildcard. -/
def Config.Names (c : Config) (condition : String) : Prop :=
  condition ≠ wildcard ∧ ∃ rule ∈ c.rules, Rule.Conditioned rule.text condition

/-- Two answers about a condition come to the same: they are the same error, or predicates that hold
for the same requests. -/
inductive SameAnswer {ε : Type} :
    Except ε (RequestPredicate S R) → Except ε (RequestPredicate S R) → Prop
  | error (e : ε) : SameAnswer (.error e) (.error e)
  | ok {p p' : RequestPredicate S R} :
      (∀ q, p.satisfiedBy q = p'.satisfiedBy q) → SameAnswer (.ok p) (.ok p')

theorem Config.names_iff {c : Config} {condition : String} :
    c.Names condition ↔ condition ∈ c.rules.filterMap Rule.namedCondition? := by
  simp only [Names, List.mem_filterMap, Rule.namedCondition?_eq_some_iff]
  constructor
  · rintro ⟨hw, rule, hmem, hc⟩
    exact ⟨rule, hmem, hc, hw⟩
  · rintro ⟨rule, hmem, hc, hw⟩
    exact ⟨hw, rule, hmem, hc⟩

theorem Config.names_of_mem {c : Config} {rule : Rule} (hmem : rule ∈ c.rules) {condition : String}
    (hname : rule.namedCondition? = some condition) : c.Names condition :=
  names_iff.mpr (List.mem_filterMap.mpr ⟨rule, hmem, hname⟩)

theorem Config.rules_congr {c c' : Config} (hpolicies : c.policies = c'.policies) :
    c.rules = c'.rules := by
  rw [rules, rules, hpolicies]

namespace Compilation

variable {provider provider' : Provider S R} {rule : Rule} {config : Config}

/-! ### One rule -/

theorem conditionPredicate_congr
    (hagree : ∀ condition, rule.namedCondition? = some condition →
      provider condition = provider' condition) :
    conditionPredicate provider rule = conditionPredicate provider' rule := by
  unfold conditionPredicate
  cases hname : rule.namedCondition? with
  | none => rfl
  | some condition => simp only [ask, hagree condition hname]

/-- The provider is asked for the name in a rule's condition, if there is one, and for no other. -/
theorem notes_conditionPredicate (provider : Provider S R) (rule : Rule) :
    (conditionPredicate provider rule).notes = rule.namedCondition?.toList := by
  unfold conditionPredicate
  cases rule.namedCondition? <;> rfl

section SameAnswer

variable (hagree : ∀ condition, rule.namedCondition? = some condition →
  SameAnswer (provider condition) (provider' condition))
include hagree

theorem sameAnswer_conditionPredicate :
    SameAnswer (conditionPredicate provider rule).value
      (conditionPredicate provider' rule).value := by
  unfold conditionPredicate
  cases hname : rule.namedCondition? with
  | none => exact .ok fun _ => rfl
  | some condition =>
    have hanswer := hagree condition hname
    simp only [ask, Recorded.value_bind, Recorded.value_pure]
    generalize provider condition = answer at hanswer
    generalize provider' condition = answer' at hanswer
    cases hanswer with
    | error source => exact .error _
    | ok hsame => exact .ok hsame

theorem error?_congr : error? provider rule = error? provider' rule := by
  have hanswer := sameAnswer_conditionPredicate hagree
  unfold error?
  generalize (conditionPredicate provider rule).value = answer at hanswer
  generalize (conditionPredicate provider' rule).value = answer' at hanswer
  cases hanswer <;> rfl

theorem satisfiedBy_conditionPolicy_congr (q : Request S R) :
    (conditionPolicy provider rule).satisfiedBy q =
      (conditionPolicy provider' rule).satisfiedBy q := by
  have hanswer := sameAnswer_conditionPredicate hagree
  unfold conditionPolicy
  generalize (conditionPredicate provider rule).value = answer at hanswer
  generalize (conditionPredicate provider' rule).value = answer' at hanswer
  cases hanswer with
  | error e => rfl
  | ok hsame => exact hsame q

end SameAnswer

/-! ### All rules -/

variable [RoleBearer S] {roles : RoleMatcher}

theorem consulted_addRule (c : Compilation S R) (rule : Rule) :
    (addRule roles provider c rule).value.consulted =
      c.consulted ++ rule.namedCondition?.toList := by
  rw [← notes_conditionPredicate provider]
  unfold addRule
  rcases conditionPredicate provider rule with ⟨_ | _, _⟩ <;> rfl

/-- Compiling asks for the named conditions of the rules, in order, and for nothing else. -/
theorem consulted_compile (config : Config) (roles : RoleMatcher) (provider : Provider S R) :
    (compile config roles provider).value.consulted =
      config.rules.filterMap Rule.namedCondition? :=
  foldlM_addRule_append consulted consulted_addRule config.rules empty

/-- Providers that agree on the named conditions make the same of the rules. -/
theorem foldlM_addRule_congr {rules : List Rule}
    (hagree : ∀ rule ∈ rules, ∀ condition, rule.namedCondition? = some condition →
      provider condition = provider' condition) (c : Compilation S R) :
    rules.foldlM (addRule roles provider) c = rules.foldlM (addRule roles provider') c := by
  induction rules generalizing c with
  | nil => rfl
  | cons rule rules ih =>
    have hrule := conditionPredicate_congr (hagree rule List.mem_cons_self)
    have hstep : addRule roles provider c rule = addRule roles provider' c rule := by
      unfold addRule
      rw [hrule]
    rw [List.foldlM_cons, List.foldlM_cons, hstep]
    simp only [ih fun r hr => hagree r (List.mem_cons_of_mem _ hr)]

/-- Providers with the very same answers for the names yield the same compilation, report and trace
included. -/
theorem compile_congr_names (roles : RoleMatcher)
    (hagree : ∀ condition, config.Names condition → provider condition = provider' condition) :
    compile config roles provider = compile config roles provider' := by
  apply foldlM_addRule_congr
  intro rule hmem condition hname
  exact hagree condition (Config.names_of_mem hmem hname)

section Names

variable (hagree : ∀ condition, config.Names condition →
  SameAnswer (provider condition) (provider' condition))
include hagree

theorem errors_compile_congr_names (roles : RoleMatcher) :
    (compile config roles provider).value.errors =
      (compile config roles provider').value.errors := by
  rw [errors_compile, errors_compile]
  refine List.filterMap_congr fun rule hmem => ?_
  exact error?_congr fun condition hname => hagree condition (Config.names_of_mem hmem hname)

theorem grantsAt_compile_congr_names (roles : RoleMatcher) (key : String) (q : Request S R) :
    (compile config roles provider).value.evaluator.GrantsAt key q ↔
      (compile config roles provider').value.evaluator.GrantsAt key q := by
  have hpolicy : ∀ rule ∈ config.rules, (policyOf roles provider rule).satisfiedBy q =
      (policyOf roles provider' rule).satisfiedBy q := by
    intro rule hmem
    have hcondition := satisfiedBy_conditionPolicy_congr
      (fun condition hname => hagree condition (Config.names_of_mem hmem hname)) q
    rw [policyOf, policyOf, Predicate.satisfiedBy_and, Predicate.satisfiedBy_and, hcondition]
  rw [grantsAt_compile_iff, grantsAt_compile_iff]
  constructor
  · rintro ⟨rule, hmem, hkey, hs⟩
    exact ⟨rule, hmem, hkey, hpolicy rule hmem ▸ hs⟩
  · rintro ⟨rule, hmem, hkey, hs⟩
    exact ⟨rule, hmem, hkey, (hpolicy rule hmem).symm ▸ hs⟩

end Names

end Compilation

variable [RoleBearer S]

/-- Configurations with the same policies and providers that answer alike for the names in their
rules compile to the same keys, decisions and errors. The provider is asked for no other name, so
that nothing else in a registry matters, be it named like the wildcard. -/
theorem compile_depends_only_on_named_conditions (config config' : Config) (roles : RoleMatcher)
    (provider provider' : Provider S R) (hpolicies : config.policies = config'.policies)
    (hagree : ∀ condition, config.Names condition →
      SameAnswer (provider condition) (provider' condition)) :
    let c := (compile config roles provider).value
    let c' := (compile config' roles provider').value
    c.evaluator.keys = c'.evaluator.keys ∧
      (∀ strict q, ((c.evaluator.inMode strict).decide q).value.value =
        ((c'.evaluator.inMode strict).decide q).value.value) ∧
      c.errors = c'.errors ∧
      (∀ name ∈ c.consulted, config.Names name) ∧
      ∀ (registry : Registry S R) name p, ¬config.Names name →
        compile config roles (registry.register name p).lookup =
          compile config roles registry.lookup := by
  intro c c'
  have hcompile : compile config' roles provider' = compile config roles provider' := by
    rw [compile, compile, Config.rules_congr hpolicies]
  have hc' : c' = (compile config roles provider').value := congrArg Recorded.value hcompile
  rw [hc']
  have hkeys : c.evaluator.keys = (compile config roles provider').value.evaluator.keys :=
    Compilation.keys_compile_of_rules fun _ => .rfl
  refine ⟨hkeys, ?_, Compilation.errors_compile_congr_names hagree roles, ?_, ?_⟩
  · intro strict q
    exact Compilation.decide_compile_congr strict rfl hkeys fun key =>
      Compilation.grantsAt_compile_congr_names hagree roles key q
  · intro name hname
    rw [show c.consulted = _ from Compilation.consulted_compile config roles provider,
      ← Config.names_iff] at hname
    exact hname
  · intro registry name p hname
    apply Compilation.compile_congr_names
    intro condition hcondition
    have hne : condition ≠ name := by
      rintro rfl
      exact hname hcondition
    rw [Registry.lookup_register, if_neg hne]

/-- The second registry traces the owner, denies under the name of the wildcard and knows a name
that no rule has, and the second configuration has a hierarchy. -/
theorem compile_depends_only_on_named_conditions_traced :
    let config := Config.empty.withRole "editor" ["read:*", "edit:isOwner", "edit:isOwner:x"]
    let config' := config.withHierarchy (RoleHierarchy.empty.insert "admin" ["editor"])
    let registry := builtinRegistry
      |>.register "isOwner" (.probe "owner" (hasId.and isOwner))
      |>.register wildcard .deny
      |>.register "x" .allow
    let c := (compile config .flat builtinRegistry.lookup).value
    let c' := (compile config' .flat registry.lookup).value
    config.policies = config'.policies ∧
      (∀ condition, config.Names condition →
        SameAnswer (builtinRegistry.lookup condition) (registry.lookup condition)) ∧
      (∀ strict q, ((c.evaluator.inMode strict).decide q).value.value =
        ((c'.evaluator.inMode strict).decide q).value.value) ∧
      c.consulted = ["isOwner", "isOwner:x"] ∧ c.errors = c'.errors := by
  intro config config' registry c c'
  have hnames : config.rules.filterMap Rule.namedCondition? = ["isOwner", "isOwner:x"] := by
    decide +kernel
  have hagree : ∀ condition, config.Names condition →
      SameAnswer (builtinRegistry.lookup condition) (registry.lookup condition) := by
    intro condition hcondition
    rw [Config.names_iff, hnames, List.mem_cons, List.mem_singleton] at hcondition
    rcases hcondition with rfl | rfl
    · exact .ok fun q => rfl
    · exact .error (PolicyError.predicateNotFound "isOwner:x")
  obtain ⟨-, hdecide, herrors, -⟩ := compile_depends_only_on_named_conditions config config' .flat
    builtinRegistry.lookup registry.lookup rfl hagree
  exact ⟨rfl, hagree, hdecide, (Compilation.consulted_compile _ _ _).trans hnames, herrors⟩

end AccessPolicy

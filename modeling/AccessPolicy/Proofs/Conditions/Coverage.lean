import AccessPolicy.Proofs.Conditions.Permission

/-! Actions with a condition and their bases. In default mode whoever may do `base:condition` may do
`base`; in strict mode whoever may do `base` may do `base:condition` for every condition that is not
empty. The key `base:` is the only one that applies to an action with a condition and not to its
base, and no rule with that key entitles anyone, as no condition has the empty name. -/

namespace AccessPolicy

namespace Action

variable {strict : Prop} {key base condition : String}

/-- Unless the mode is strict, a key that applies to a base with a condition applies to the base, if
it is not the base with a colon. -/
theorem AppliesIn.bare (ha : AppliesIn strict key (base ++ ":" ++ condition)) (hs : ¬strict)
    (hb : ':' ∉ base.toList) : key = base ++ ":" ∨ AppliesIn strict key base := by
  obtain ⟨rule, happlies, -⟩ := ha
  have hbase : Divided base base "" := .bare hb
  have haction : Divided (base ++ ":" ++ condition) base condition := .colon condition hb
  have happlied : ∀ {rule}, Applies rule key base → AppliesIn strict key base :=
    fun h => ⟨_, h, fun hstrict => absurd hstrict hs⟩
  generalize base ++ ":" ++ condition = action at happlies haction
  cases happlies with
  | global => exact .inr (happlied (.global base))
  | exact =>
    -- the key has the condition itself, so it covers the base unless the condition is empty
    by_cases hempty : condition = ""
    · subst hempty
      rcases haction.eq_or_eq_append_colon with rfl | heq
      · exact .inr (happlied (.exact _))
      · exact .inl heq
    · exact .inr (happlied (.conditionCoversBase haction hempty hbase))
  | anyCondition hk ha =>
    obtain ⟨rfl, -⟩ := haction.unique ha
    exact .inr (happlied (.anyCondition hk hbase))
  | baseCoversCondition hk ha =>
    obtain ⟨rfl, -⟩ := haction.unique ha
    rcases hk.eq_or_eq_append_colon with rfl | heq
    · exact .inr (happlied (.exact _))
    · exact .inl heq
  | conditionCoversBase hk hne ha =>
    obtain ⟨rfl, -⟩ := haction.unique ha
    exact .inr (happlied (.conditionCoversBase hk hne hbase))

/-- In strict mode, a key that applies to a base applies to the base with any condition. -/
theorem AppliesIn.conditioned (ha : AppliesIn strict key base) (hs : strict)
    (hb : ':' ∉ base.toList) (hne : condition ≠ "") :
    AppliesIn strict key (base ++ ":" ++ condition) := by
  obtain ⟨rule, happlies, hkept⟩ := ha
  have hbase : Divided base base "" := .bare hb
  have haction : Divided (base ++ ":" ++ condition) base condition := .colon condition hb
  cases happlies with
  | global => exact ⟨.global, .global _, by simp⟩
  | exact => exact ⟨.baseCoversCondition, .baseCoversCondition hbase haction hne, by simp⟩
  | anyCondition hk ha =>
    obtain ⟨rfl, -⟩ := hbase.unique ha
    exact ⟨.anyCondition, .anyCondition hk haction, by simp⟩
  | baseCoversCondition hk ha hc => exact absurd (hbase.unique ha).2 hc
  | conditionCoversBase =>
    -- strict mode leaves out this rule alone
    exact absurd rfl (hkept hs)

end Action

variable {subject resource : Entity} {rule : Rule}

/-- A rule with an empty condition entitles no one. -/
theorem Entitles.keyOf_ne_append_colon {h : RoleHierarchy} (he : Entitles h subject resource rule)
    {base : String} (hb : ':' ∉ base.toList) : Rule.keyOf rule.text ≠ base ++ ":" := by
  intro hkey
  have htext : rule.text = base ++ ":" := Rule.eq_of_keyOf_eq hkey (by simp)
  have hempty : Rule.Conditioned rule.text "" := by
    rw [htext, ← String.append_empty (s := base ++ ":")]
    exact .colon "" hb
  rcases he.conditionHolds hempty with hw | hholds
  · exact absurd hw (by decide)
  · exact hholds.name_ne_empty rfl

/-- In default mode an action with a condition is allowed only where its base is; in strict mode a
base is allowed only where it is with every condition. -/
theorem evaluate_base_and_conditioned (config : Config) (subject resource : Entity)
    {base : String} (hb : ':' ∉ base.toList) (condition : String) :
    let allows := fun (strict : Bool) (action : String) =>
      (((compileConfig config).value.evaluator.inMode strict).evaluate
        ⟨subject, resource, action⟩).value.value = true
    (allows false (base ++ ":" ++ condition) → allows false base) ∧
      (condition ≠ "" → allows true base → allows true (base ++ ":" ++ condition)) := by
  intro allows
  simp only [allows, evaluate_compileConfig_iff_permits]
  constructor
  · rintro ⟨rule, hmem, happlies, he⟩
    have hbase := (happlies.bare (by simp) hb).resolve_left (he.keyOf_ne_append_colon hb)
    exact ⟨rule, hmem, hbase, he⟩
  · rintro hne ⟨rule, hmem, happlies, he⟩
    exact ⟨rule, hmem, happlies.conditioned rfl hb hne, he⟩

/-- The condition asked for holds further colons and is met by no rule of its own. -/
theorem evaluate_base_and_conditioned_many_colons :
    let config := Config.empty.withRole "editor" ["edit:*"]
    let subject : Entity := { Entity.empty with roles := ["editor"] }
    let allows := fun (strict : Bool) (action : String) =>
      (((compileConfig config).value.evaluator.inMode strict).evaluate
        ⟨subject, .empty, action⟩).value.value = true
    ':' ∉ "edit".toList ∧ (allows false "edit:a:b" ∧ allows false "edit") ∧
      ("a:b" ≠ "" ∧ allows true "edit" ∧ allows true "edit:a:b") := by
  intro config subject allows
  have hb : ':' ∉ "edit".toList := by decide
  have hconditioned : allows false "edit:a:b" := by decide +kernel
  have hbase : allows true "edit" := by decide +kernel
  obtain ⟨hdefault, hstrict⟩ := evaluate_base_and_conditioned config subject .empty hb "a:b"
  have hne : "a:b" ≠ "" := by decide
  exact ⟨hb, ⟨hconditioned, hdefault hconditioned⟩, hne, hbase, hstrict hne hbase⟩

end AccessPolicy

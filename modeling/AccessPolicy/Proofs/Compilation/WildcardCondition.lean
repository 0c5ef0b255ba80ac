import AccessPolicy.Conditions
import AccessPolicy.Proofs.Compilation.Table

/-! Rules with the wildcard for their condition, against the same rules without a condition. Neither
has a condition to meet, and their keys apply to the same actions but for one: the action with a
trailing colon has the rule's base and no condition, so `action:*` covers it and `action` does not.
Which of the two spellings a rule has matters for that action only. -/

namespace AccessPolicy

namespace Action

variable {strict : Prop} {base action : String}

theorem appliesIn_wildcard : AppliesIn strict wildcard action := ⟨.global, .global action, by simp⟩

/-- A key without a condition applies to all actions of its base but the one with nothing after its
colon. -/
theorem appliesIn_base_iff (hb : ':' ∉ base.toList) (hw : base ≠ wildcard) :
    AppliesIn strict base action ↔
      (∃ condition, Divided action base condition) ∧ action ≠ base ++ ":" := by
  have hbase : Divided base base "" := .bare hb
  constructor
  · rintro ⟨rule, happlies, -⟩
    cases happlies with
    | global => exact absurd rfl hw
    | exact =>
      refine ⟨⟨"", hbase⟩, fun heq => hb ?_⟩
      rw [heq]
      simp
    | anyCondition hk ha => exact absurd (hbase.unique hk).2 (by decide)
    | baseCoversCondition hk ha hne =>
      obtain ⟨rfl, -⟩ := hbase.unique hk
      refine ⟨⟨_, ha⟩, ?_⟩
      rintro rfl
      exact hne ((divided_append_colon hb).unique ha).2
    | conditionCoversBase hk hne ha => exact absurd (hbase.unique hk).2 hne
  · rintro ⟨⟨condition, ha⟩, htext⟩
    by_cases hne : condition = ""
    · subst hne
      obtain rfl := ha.eq_or_eq_append_colon.resolve_right htext
      exact ⟨.exact, .exact _, by simp⟩
    · exact ⟨.baseCoversCondition, .baseCoversCondition hbase ha hne, by simp⟩

/-- A key with the wildcard as its condition applies to the actions of its base. -/
theorem appliesIn_wildcard_condition_iff (hb : ':' ∉ base.toList) :
    AppliesIn strict (base ++ ":" ++ wildcard) action ↔
      ∃ condition, Divided action base condition := by
  have hkey : Divided (base ++ ":" ++ wildcard) base wildcard := .colon wildcard hb
  constructor
  · rintro ⟨rule, happlies, -⟩
    generalize hk : base ++ ":" ++ wildcard = key at happlies hkey
    cases happlies with
    | global =>
      -- the wildcard itself has no condition
      exact absurd (hkey.unique (.bare (by decide))).2 (by decide)
    | exact => exact ⟨wildcard, hkey⟩
    | anyCondition hk ha | baseCoversCondition hk ha | conditionCoversBase hk _ ha =>
      obtain ⟨rfl, -⟩ := hkey.unique hk
      exact ⟨_, ha⟩
  · rintro ⟨condition, ha⟩
    exact ⟨.anyCondition, .anyCondition hkey ha, by simp⟩

end Action

namespace Rule

variable {action : String}

theorem keyOf_of_not_mem (ha : ':' ∉ action.toList) : keyOf action = action := by
  by_cases hw : action = wildcard
  · rw [keyOf, if_pos (.inl hw), hw]
  · refine if_neg ?_
    rintro (rfl | rfl)
    · exact hw rfl
    · exact absurd ha (by decide)

theorem keyOf_wildcard_condition (ha : ':' ∉ action.toList) (hw : action ≠ wildcard) :
    keyOf (action ++ ":" ++ wildcard) = action ++ ":" ++ wildcard := by
  refine if_neg ?_
  have hd : Action.Divided (action ++ ":" ++ wildcard) action wildcard := .colon wildcard ha
  rintro (heq | heq)
  · rw [heq] at hd
    exact absurd (hd.unique (.bare (by decide))).2 (by decide)
  · rw [heq] at hd
    have hboth : Action.Divided (wildcard ++ ":" ++ wildcard) wildcard wildcard :=
      .colon wildcard (by decide)
    exact hw (hboth.unique hd).1

/-- The two spellings apply to the same actions, apart from the one with a trailing colon. -/
theorem appliesIn_keyOf_wildcard_condition_iff {strict : Prop} {requested : String}
    (ha : ':' ∉ action.toList) :
    Action.AppliesIn strict (keyOf (action ++ ":" ++ wildcard)) requested ↔
      Action.AppliesIn strict (keyOf action) requested ∨ requested = action ++ ":" := by
  rw [keyOf_of_not_mem ha]
  by_cases hw : action = wildcard
  · subst hw
    exact iff_of_true Action.appliesIn_wildcard (.inl Action.appliesIn_wildcard)
  · rw [keyOf_wildcard_condition ha hw, Action.appliesIn_wildcard_condition_iff ha,
      Action.appliesIn_base_iff ha hw]
    by_cases heq : requested = action ++ ":"
    · subst heq
      exact iff_of_true ⟨"", Action.divided_append_colon ha⟩ (.inr rfl)
    · simp [heq]

end Rule

/-! ### One rule in place of another -/

theorem mem_append_cons_iff {α : Type} {a x : α} {before after : List α} :
    a ∈ before ++ x :: after ↔ a ∈ before ++ after ∨ a = x := by
  rw [List.perm_middle.mem_iff, List.mem_cons, or_comm]

/-- In one place a role has the rule `other` in `c'` where it has `text` in `c`; the configurations
have the same rules otherwise. -/
structure Config.Replaces (c c' : Config) (role text other : String) : Prop where
  roles : ∀ r, r ≠ role → c.allowed r = c'.allowed r
  place : ∃ before after, c.allowed role = before ++ text :: after ∧
    c'.allowed role = before ++ other :: after

theorem Config.replaces_withRole (c : Config) (role : String) (before after : List String)
    (text other : String) :
    (c.withRole role (before ++ text :: after)).Replaces
      (c.withRole role (before ++ other :: after)) role text other := by
  constructor
  case roles =>
    intro r hr
    rw [allowed_withRole, allowed_withRole, if_neg hr, if_neg hr]
  case place =>
    refine ⟨c.allowed role ++ before, after, ?_, ?_⟩
    · rw [allowed_withRole, if_pos rfl, List.append_assoc]
    · rw [allowed_withRole, if_pos rfl, List.append_assoc]

theorem Config.mem_rules_iff_of_allowed_eq {c : Config} {role text : String}
    {before after : List String} (hc : c.allowed role = before ++ text :: after) (rule : Rule) :
    rule ∈ c.rules ↔ (if rule.role = role then rule.text ∈ before ++ after
      else rule.text ∈ c.allowed rule.role) ∨ rule = ⟨role, text⟩ := by
  obtain ⟨r, t⟩ := rule
  rw [mem_rules_iff_mem_allowed]
  by_cases heq : r = role
  · subst heq
    simp only [hc, mem_append_cons_iff, if_true, Rule.mk.injEq, true_and]
  · simp [heq]

/-- The rules of both are the rules that they share and the one in which they differ. -/
theorem Config.Replaces.exists_shared {c c' : Config} {role text other : String}
    (hr : c.Replaces c' role text other) :
    ∃ shared : Rule → Prop, (∀ rule, rule ∈ c.rules ↔ shared rule ∨ rule = ⟨role, text⟩) ∧
      ∀ rule, rule ∈ c'.rules ↔ shared rule ∨ rule = ⟨role, other⟩ := by
  obtain ⟨before, after, hc, hc'⟩ := hr.place
  refine ⟨_, mem_rules_iff_of_allowed_eq hc, fun rule => ?_⟩
  rw [mem_rules_iff_of_allowed_eq hc']
  by_cases heq : rule.role = role
  · simp only [if_pos heq]
  · simp only [if_neg heq, hr.roles rule.role heq]

variable {S R : Type} [RoleBearer S] {config config' : Config} {roles : RoleMatcher}
  {provider : Provider S R} {strict : Bool} {role text : String} {q : Request S R}

theorem grants_iff_of_wildcard (hc : Rule.Conditioned text wildcard) :
    Grants roles provider strict role text q ↔
      Action.AppliesIn (strict = true) (Rule.keyOf text) q.action ∧
        ∃ held ∈ RoleBearer.roles q.subject, roles.hierarchy.Reaches held role := by
  constructor
  · rintro ⟨happlies, hheld, -⟩
    exact ⟨happlies, hheld⟩
  · rintro ⟨happlies, hheld⟩
    exact ⟨happlies, hheld, wildcard, hc, .inl rfl⟩

namespace Compilation

/-- Both configurations grant what the rules do that they share, and each of them what its own rule
does. -/
theorem exists_evaluate_iff_of_replaces {other : String}
    (hr : config.Replaces config' role text other) (roles : RoleMatcher) (provider : Provider S R)
    (strict : Bool) (q : Request S R) :
    ∃ shared : Prop,
      ((((compile config roles provider).value.evaluator.inMode strict).evaluate q).value.value =
          true ↔ shared ∨ Grants roles provider strict role text q) ∧
        ((((compile config' roles provider).value.evaluator.inMode strict).evaluate
          q).value.value = true ↔ shared ∨ Grants roles provider strict role other q) := by
  obtain ⟨shared, hrules, hrules'⟩ := hr.exists_shared
  refine ⟨∃ rule, shared rule ∧ Grants roles provider strict rule.role rule.text q, ?_, ?_⟩
  · simp only [evaluate_compile_inMode_iff_grants, hrules, or_and_right, exists_or, exists_eq_left]
  · simp only [evaluate_compile_inMode_iff_grants, hrules', or_and_right, exists_or, exists_eq_left]

end Compilation

/-- A rule without a condition grants the same requests when it is written with the wildcard for its
condition, but for the action with a trailing colon: that one it then grants to whoever reaches its
role. -/
theorem evaluate_replace_wildcard_condition (config config' : Config) (roles : RoleMatcher)
    (provider : Provider S R) {role action : String} (ha : ':' ∉ action.toList)
    (hr : config.Replaces config' role action (action ++ ":" ++ wildcard)) (strict : Bool)
    (q : Request S R) :
    let allows := fun c : Config =>
      (((compile c roles provider).value.evaluator.inMode strict).evaluate q).value.value
    (q.action ≠ action ++ ":" ∨ action = wildcard → allows config = allows config') ∧
      (q.action = action ++ ":" → (allows config' = true ↔ allows config = true ∨
        ∃ held ∈ RoleBearer.roles q.subject, roles.hierarchy.Reaches held role)) := by
  intro allows
  obtain ⟨shared, hallows, hallows'⟩ :=
    Compilation.exists_evaluate_iff_of_replaces hr roles provider strict q
  rw [grants_iff_of_wildcard (.bare ha)] at hallows
  rw [grants_iff_of_wildcard (.colon wildcard ha),
    Rule.appliesIn_keyOf_wildcard_condition_iff ha] at hallows'
  constructor
  · intro hcase
    rw [Bool.eq_iff_iff, hallows, hallows']
    rcases hcase with hne | rfl
    · simp only [hne, or_false]
    · have hall : Action.AppliesIn (strict = true) (Rule.keyOf wildcard) q.action :=
        Action.appliesIn_wildcard
      simp only [hall, true_or, true_and]
  · intro heq
    rw [hallows, hallows', or_assoc, or_iff_right_of_imp And.right]
    simp only [heq, or_true, true_and]

/-- The wildcard covers a condition that holds a colon itself, and a condition that is empty. -/
theorem evaluate_replace_wildcard_condition_draft :
    let config := Config.empty.withRole "auditor" ["list", "read", "read:isOwner"]
    let config' := Config.empty.withRole "auditor" ["list", "read:*", "read:isOwner"]
    let subject : Entity := { Entity.empty with roles := ["auditor"] }
    let allows := fun (c : Config) (action : String) =>
      (((compile c .flat builtinRegistry.lookup).value.evaluator.inMode true).evaluate
        ⟨subject, .empty, action⟩).value.value
    ':' ∉ "read".toList ∧ config.Replaces config' "auditor" "read" ("read" ++ ":" ++ wildcard) ∧
      "read:draft:2" ≠ "read" ++ ":" ∧
      allows config "read:draft:2" = allows config' "read:draft:2" ∧
      (allows config' "read:" = true ↔ allows config "read:" = true ∨
        ∃ held ∈ subject.roles, RoleHierarchy.empty.Reaches held "auditor") := by
  intro config config' subject allows
  have ha : ':' ∉ "read".toList := by decide
  have hr : config.Replaces config' "auditor" "read" ("read" ++ ":" ++ wildcard) :=
    Config.empty.replaces_withRole "auditor" ["list"] ["read:isOwner"] "read" _
  have hne : "read:draft:2" ≠ "read" ++ ":" := by decide
  have hdraft := evaluate_replace_wildcard_condition config config' .flat builtinRegistry.lookup ha
    hr true ⟨subject, .empty, "read:draft:2"⟩
  have htrailing := evaluate_replace_wildcard_condition config config' .flat
    builtinRegistry.lookup ha hr true ⟨subject, .empty, "read:"⟩
  exact ⟨ha, hr, hne, hdraft.1 (.inl hne), htrailing.2 rfl⟩

/-- The action with a trailing colon tells the spellings apart. -/
theorem evaluate_differs_at_trailing_colon :
    let config := Config.empty.withRole "auditor" ["read"]
    let config' := Config.empty.withRole "auditor" ["read:*"]
    let q : Request Entity Entity :=
      ⟨{ Entity.empty with roles := ["auditor"] }, .empty, "read:"⟩
    let allows := fun c : Config =>
      (((compile c .flat builtinRegistry.lookup).value.evaluator.inMode false).evaluate
        q).value.value
    ':' ∉ "read".toList ∧ config.Replaces config' "auditor" "read" ("read" ++ ":" ++ wildcard) ∧
      allows config = false ∧ allows config' = true := by
  intro config config' q allows
  have hr : config.Replaces config' "auditor" "read" ("read" ++ ":" ++ wildcard) :=
    Config.empty.replaces_withRole "auditor" [] [] "read" _
  exact ⟨by decide, hr, by decide +kernel, by decide +kernel⟩

end AccessPolicy

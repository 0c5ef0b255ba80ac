import AccessPolicy.Config.Rule
import AccessPolicy.Proofs.Action
import AccessPolicy.Proofs.KeyMap
import AccessPolicy.Proofs.Text.Position
import Mathlib.Data.List.Basic

/-! Rules in words: the key of a rule is its text, apart from the two ways to write the wildcard,
and its condition is what follows the first colon. The rules of a configuration are listed by role,
and those of one role as they are given. -/

namespace AccessPolicy

namespace Rule

/-- The key that the text of a rule stands for. -/
def keyOf (text : String) : String := if text = wildcard ∨ text = "*:*" then wildcard else text

/-- The condition that the text of a rule names: what follows its first colon, or the wildcard. -/
inductive Conditioned : String → String → Prop
  | bare {text : String} : ':' ∉ text.toList → Conditioned text wildcard
  | colon {action : String} (condition : String) :
      ':' ∉ action.toList → Conditioned (action ++ ":" ++ condition) condition

theorem exists_conditioned (text : String) : ∃ condition, Conditioned text condition := by
  by_cases hc : ':' ∈ text.toList
  · obtain ⟨action, condition, ha, rfl⟩ := Text.exists_eq_append_colon hc
    exact ⟨condition, .colon condition ha⟩
  · exact ⟨wildcard, .bare hc⟩

variable {r : Rule}

theorem parts_of_not_mem (h : ':' ∉ r.text.toList) : r.parts = (r.text, none) := by
  rw [parts, Text.splitColon?_of_not_mem h]

theorem parts_of_append {action condition : String} (h : ':' ∉ action.toList)
    (ht : r.text = action ++ ":" ++ condition) : r.parts = (action, some condition) := by
  rw [parts, ht, Text.toList_append_colon, Text.splitColon?_append h]
  simp

theorem namedCondition?_eq {condition : String} (hc : Conditioned r.text condition) :
    r.namedCondition? = if condition = wildcard then none else some condition := by
  generalize ht : r.text = text at hc
  cases hc with
  | bare h =>
    rw [namedCondition?, condition?, parts_of_not_mem (ht ▸ h)]
    rfl
  | colon condition h =>
    rw [namedCondition?, condition?, parts_of_append h ht, Option.filter_some]
    by_cases hw : condition = wildcard <;> simp [hw]

/-- A text names one condition. -/
theorem Conditioned.unique {text condition other : String} (hc : Conditioned text condition)
    (ho : Conditioned text other) : other = condition := by
  have heq := (namedCondition?_eq (r := ⟨"", text⟩) hc).symm.trans (namedCondition?_eq ho)
  by_cases hw : condition = wildcard <;> by_cases hw' : other = wildcard <;> simp_all

theorem exists_conditioned_iff {text condition : String} {P : String → Prop}
    (hc : Conditioned text condition) :
    (∃ other, Conditioned text other ∧ P other) ↔ P condition := by
  constructor
  · rintro ⟨other, ho, hp⟩
    exact hc.unique ho ▸ hp
  · intro hp
    exact ⟨condition, hc, hp⟩

/-- The condition that is looked up for a rule is the one it names, unless that is the wildcard. -/
theorem namedCondition?_eq_some_iff {condition : String} :
    r.namedCondition? = some condition ↔
      Conditioned r.text condition ∧ condition ≠ wildcard := by
  obtain ⟨named, hc⟩ := exists_conditioned r.text
  rw [namedCondition?_eq hc]
  constructor
  · intro h
    split at h
    · cases h
    · next hw =>
      obtain rfl := Option.some.inj h
      exact ⟨hc, hw⟩
  · rintro ⟨ho, hw⟩
    rw [hc.unique ho] at hw
    rw [if_neg hw, hc.unique ho]

theorem key_eq_keyOf (r : Rule) : r.key = keyOf r.text := by
  by_cases hw : r.text = wildcard
  · rw [key, keyOf, if_pos hw, if_pos (.inl hw)]
  by_cases hww : r.text = "*:*"
  · have hparts : r.parts = (wildcard, some wildcard) := parts_of_append (by decide) hww
    rw [key, if_neg hw, condition?, action, hparts, keyOf, if_pos (.inr hww)]
    rfl
  rw [key, if_neg hw, condition?, action, keyOf, if_neg (by rw [not_or]; exact ⟨hw, hww⟩)]
  by_cases hc : ':' ∈ r.text.toList
  · obtain ⟨action, condition, ha, ht⟩ := Text.exists_eq_append_colon hc
    rw [parts_of_append ha ht]
    -- both parts are wildcards only in the text that was excluded above
    refine if_neg ?_
    rintro ⟨rfl, rfl⟩
    exact hww ht
  · rw [parts_of_not_mem hc]

/-- A rule is divided as an action is, an absent condition being empty. -/
theorem parse_text (r : Rule) :
    Action.parse r.text = ⟨r.text, r.action, r.condition?.getD ""⟩ := by
  rw [action, condition?]
  by_cases hc : ':' ∈ r.text.toList
  · obtain ⟨action, condition, ha, ht⟩ := Text.exists_eq_append_colon hc
    have hd : Action.Divided r.text action condition := ht ▸ .colon condition ha
    rw [hd.parse_eq, parts_of_append ha ht]
    rfl
  · have hd : Action.Divided r.text r.text "" := .bare hc
    rw [hd.parse_eq, parts_of_not_mem hc]
    rfl

theorem keyOf_eq_ite (text : String) :
    keyOf text = if text = "*:*" then wildcard else text := by
  unfold keyOf
  by_cases hw : text = wildcard
  · rw [if_pos (.inl hw), hw]
    rfl
  · simp only [hw, false_or]

theorem Conditioned.of_divided {text base condition : String}
    (hd : Action.Divided text base condition) (hne : condition ≠ "") :
    Conditioned text condition := by
  cases hd with
  | bare => exact absurd rfl hne
  | colon condition hb => exact .colon condition hb

/-- A key with a condition is the text of the rules that become it, so it names their condition. -/
theorem Conditioned.of_parse_keyOf {text condition : String}
    (hc : (Action.parse (keyOf text)).condition = condition) (hne : condition ≠ "") :
    Conditioned text condition := by
  by_cases hw : text = wildcard ∨ text = "*:*"
  · rw [keyOf, if_pos hw] at hc
    exact absurd hc.symm hne
  · rw [keyOf, if_neg hw] at hc
    exact .of_divided (Action.divided_iff.mpr ⟨rfl, hc⟩) hne

/-- A key with a colon is the text of the rules that become it. -/
theorem eq_of_keyOf_eq {text key : String} (hk : keyOf text = key) (hc : ':' ∈ key.toList) :
    text = key := by
  by_cases hw : text = wildcard ∨ text = "*:*"
  · rw [keyOf, if_pos hw] at hk
    subst hk
    exact absurd hc (by decide)
  · rwa [keyOf, if_neg hw] at hk

end Rule

/-- The configuration without the rules whose text passes a test. Every role stays, also one that is
left without rules. -/
def Config.dropRules (c : Config) (drop : String → Prop) [DecidablePred drop] : Config :=
  { c with policies := c.policies.map fun policy => ⟨policy.allow.filter fun text => ¬drop text⟩ }

theorem Config.rules_dropRules (c : Config) (drop : String → Prop) [DecidablePred drop] :
    (c.dropRules drop).rules = c.rules.filter fun rule => ¬drop rule.text := by
  rw [rules, rules, dropRules, KeyMap.map, List.flatMap_map, List.filter_flatMap]
  simp only [List.filter_map]
  rfl

theorem Config.mem_rules_dropRules_iff {c : Config} {drop : String → Prop} [DecidablePred drop]
    {r : Rule} : r ∈ (c.dropRules drop).rules ↔ r ∈ c.rules ∧ ¬drop r.text := by
  rw [rules_dropRules, List.mem_filter, decide_eq_true_eq]

theorem Config.mem_rules_iff {c : Config} {r : Rule} :
    r ∈ c.rules ↔ ∃ policy, c.policies.get? r.role = some policy ∧ r.text ∈ policy.allow := by
  rw [rules, List.mem_flatMap]
  constructor
  · rintro ⟨⟨role, policy⟩, he, hr⟩
    obtain ⟨text, ht, rfl⟩ := List.mem_map.mp hr
    exact ⟨policy, KeyMap.mem_toList_iff.mp he, ht⟩
  · rintro ⟨policy, hp, ht⟩
    exact ⟨(r.role, policy), KeyMap.mem_toList_iff.mpr hp, List.mem_map.mpr ⟨r.text, ht, rfl⟩⟩

/-! ### The rules of one role -/

namespace Config

/-- The rules of a role, in the order in which they are given. -/
def allowed (c : Config) (role : String) : List String :=
  match c.policies.get? role with
  | some policy => policy.allow
  | none => []

/-- The rules of a configuration are what it allows its roles. -/
theorem mem_rules_iff_mem_allowed {c : Config} {r : Rule} :
    r ∈ c.rules ↔ r.text ∈ c.allowed r.role := by
  rw [mem_rules_iff, allowed]
  cases c.policies.get? r.role <;> simp

theorem allowed_withRole (c : Config) (role : String) (allow : List String) (r : String) :
    (c.withRole role allow).allowed r =
      if r = role then c.allowed role ++ allow else c.allowed r := by
  by_cases hr : r = role
  · subst hr
    simp only [allowed, withRole, KeyMap.get?_upsert, if_true]
    cases c.policies.get? r <;> rfl
  · simp only [allowed, withRole, KeyMap.get?_upsert, if_neg hr]

theorem filter_role_flatMap {l : List (String × RolePolicy)}
    (h : l.Pairwise (fun a b => a.1 < b.1)) (role : String) :
    (l.flatMap fun (role, policy) => policy.allow.map (Rule.mk role)).filter (·.role = role) =
      match l.lookup role with
      | some policy => policy.allow.map (Rule.mk role)
      | none => [] := by
  induction l with
  | nil => rfl
  | cons entry rest ih =>
    obtain ⟨r, policy⟩ := entry
    obtain ⟨hr, hrest⟩ := List.pairwise_cons.mp h
    rw [List.flatMap_cons, List.filter_append, ih hrest, List.lookup_cons, List.filter_map]
    by_cases heq : role = r
    · subst heq
      -- the role has no second entry
      have hnone : rest.lookup role = none := KeyMap.lookup_eq_none_of_forall_lt hr
      simp [hnone, Function.comp_def]
    · have hne : r ≠ role := Ne.symm heq
      simp [hne, beq_eq_false_iff_ne.mpr heq, Function.comp_def]

/-- The rules of a role stand in the order in which they are given. -/
theorem filter_role_rules (c : Config) (role : String) :
    c.rules.filter (·.role = role) = (c.allowed role).map (Rule.mk role) := by
  rw [rules, filter_role_flatMap c.policies.sorted, allowed, KeyMap.get?]
  cases c.policies.toList.lookup role <;> rfl

/-- The rules are listed by role. -/
theorem pairwise_role_rules (c : Config) : c.rules.Pairwise fun a b => a.role ≤ b.role := by
  rw [rules, List.pairwise_flatMap]
  constructor
  · intro entry _
    exact List.pairwise_map.mpr (List.pairwise_of_forall fun _ _ => String.le_refl _)
  · refine c.policies.sorted.imp fun hlt r hr s hs => ?_
    obtain ⟨_, -, rfl⟩ := List.mem_map.mp hr
    obtain ⟨_, -, rfl⟩ := List.mem_map.mp hs
    exact String.not_lt.mp (String.lt_asymm hlt)

end Config

end AccessPolicy

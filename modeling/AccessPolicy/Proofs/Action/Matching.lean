import AccessPolicy.Proofs.Action

/-! Matching read off the texts of a key and an action. `Fits` says for each rule which texts it
joins; of the rules that fit `matchRule?` reports the first, so it reports one exactly if some rule
applies. Of an action it matters only whether it is the key, whether it has the key's base and
whether it has a condition, so a wildcard in it is a text like any other. -/

namespace AccessPolicy

theorem MatchRule.eq_of_rank_eq {rule rule' : MatchRule} (h : rule.rank = rule'.rank) :
    rule = rule' := by
  cases rule <;> cases rule' <;> first | rfl | cases h

theorem MatchRule.ne_conditionCoversBase_of_rank_lt {rule rule' : MatchRule}
    (h : rule.rank < rule'.rank) : rule ≠ .conditionCoversBase := by
  rintro rfl
  cases rule' <;> simp [rank] at h

namespace Action

variable {key action : String} {rule : MatchRule}

/-- The texts of a key and an action that a rule joins. A base is a text without a colon. -/
def Fits (key action : String) : MatchRule → Prop
  | .global => key = wildcard
  | .exact => key = action
  | .anyCondition =>
    ∃ base, ':' ∉ base.toList ∧ key = base ++ ":" ++ wildcard ∧
      (action = base ∨ ∃ condition, action = base ++ ":" ++ condition)
  | .baseCoversCondition =>
    ∃ base condition, ':' ∉ base.toList ∧ condition ≠ "" ∧
      (key = base ∨ key = base ++ ":") ∧ action = base ++ ":" ++ condition
  | .conditionCoversBase =>
    ∃ base condition, ':' ∉ base.toList ∧ condition ≠ "" ∧ condition ≠ wildcard ∧
      key = base ++ ":" ++ condition ∧ (action = base ∨ action = base ++ ":")

/-! ### The rules that fit -/

theorem applies_anyCondition_iff :
    Applies .anyCondition key action ↔
      ∃ base, Divided key base wildcard ∧ ∃ condition, Divided action base condition := by
  constructor
  · intro ha
    cases ha with
    | anyCondition hk ha => exact ⟨_, hk, _, ha⟩
  · rintro ⟨base, hk, condition, ha⟩
    exact .anyCondition hk ha

theorem fits_anyCondition_iff :
    Fits key action .anyCondition ↔ Applies .anyCondition key action := by
  rw [applies_anyCondition_iff, Fits]
  refine exists_congr fun base => ?_
  rw [divided_iff_of_ne_empty (by decide), exists_divided_iff]
  exact and_and_left

theorem fits_baseCoversCondition_iff :
    Fits key action .baseCoversCondition ↔ Applies .baseCoversCondition key action := by
  constructor
  · rintro ⟨base, condition, hb, hne, hk, ha⟩
    exact .baseCoversCondition (divided_empty_iff.mpr ⟨hb, hk⟩)
      ((divided_iff_of_ne_empty hne).mpr ⟨hb, ha⟩) hne
  · intro ha
    cases ha with
    | baseCoversCondition hk ha hne =>
      obtain ⟨hb, htext⟩ := divided_empty_iff.mp hk
      exact ⟨_, _, hb, hne, htext, ((divided_iff_of_ne_empty hne).mp ha).2⟩

/-- The last rule may apply to a key with the wildcard for its condition, but does not fit it. -/
theorem fits_conditionCoversBase_iff :
    Fits key action .conditionCoversBase ↔
      Applies .conditionCoversBase key action ∧ ¬Applies .anyCondition key action := by
  constructor
  · rintro ⟨base, condition, hb, hne, hw, hk, ha⟩
    have hkey := (divided_iff_of_ne_empty hne).mpr ⟨hb, hk⟩
    refine ⟨.conditionCoversBase hkey hne (divided_empty_iff.mpr ⟨hb, ha⟩), ?_⟩
    intro hany
    obtain ⟨other, hother, -⟩ := applies_anyCondition_iff.mp hany
    exact hw (hother.unique hkey).2
  · rintro ⟨ha, hany⟩
    cases ha with
    | @conditionCoversBase _ _ base condition hk hne ha =>
      obtain ⟨hb, htext⟩ := (divided_iff_of_ne_empty hne).mp hk
      refine ⟨base, condition, hb, hne, ?_, htext, (divided_empty_iff.mp ha).2⟩
      rintro rfl
      exact hany (.anyCondition hk ha)

/-- The rules in words and those on the parts of texts are the same, but for the last one. -/
theorem fits_iff_applies (hne : rule ≠ .conditionCoversBase) :
    Fits key action rule ↔ Applies rule key action := by
  cases rule with
  | global =>
    constructor
    · rintro rfl
      exact .global action
    · rintro ⟨⟩
      rfl
  | exact =>
    constructor
    · rintro rfl
      exact .exact key
    · rintro ⟨⟩
      rfl
  | anyCondition => exact fits_anyCondition_iff
  | baseCoversCondition => exact fits_baseCoversCondition_iff
  | conditionCoversBase => exact absurd rfl hne

/-! ### The rule that is reported -/

/-- The match finds the first rule that applies. -/
theorem matchRule?_eq_some_iff :
    (parse key).matchRule? (parse action) = some rule ↔
      Applies rule key action ∧
        ∀ earlier, earlier.rank < rule.rank → ¬Applies earlier key action := by
  simp only [applies_iff_holds]
  constructor
  · intro hm
    refine ⟨holds_of_matchRule? hm, fun earlier hlt hh => ?_⟩
    obtain ⟨first, hfirst, hle⟩ := exists_matchRule?_of_holds hh
    obtain rfl := Option.some.inj (hm.symm.trans hfirst)
    omega
  · rintro ⟨hh, hnone⟩
    obtain ⟨first, hfirst, hle⟩ := exists_matchRule?_of_holds hh
    have hge : ¬first.rank < rule.rank := fun hlt => hnone first hlt (holds_of_matchRule? hfirst)
    rw [hfirst, MatchRule.eq_of_rank_eq (show first.rank = rule.rank by omega)]

theorem isSome_matchRule?_iff :
    ((parse key).matchRule? (parse action)).isSome = true ↔ ∃ rule, Applies rule key action := by
  simp only [applies_iff_holds]
  rw [Option.isSome_iff_exists]
  constructor
  · rintro ⟨rule, hm⟩
    exact ⟨rule, holds_of_matchRule? hm⟩
  · rintro ⟨rule, hh⟩
    obtain ⟨first, hfirst, -⟩ := exists_matchRule?_of_holds hh
    exact ⟨first, hfirst⟩

theorem exists_fits_iff : (∃ rule, Fits key action rule) ↔ ∃ rule, Applies rule key action := by
  constructor
  · rintro ⟨rule, hf⟩
    by_cases hlast : rule = .conditionCoversBase
    · subst hlast
      exact ⟨_, (fits_conditionCoversBase_iff.mp hf).1⟩
    · exact ⟨rule, (fits_iff_applies hlast).mp hf⟩
  · rintro ⟨rule, ha⟩
    by_cases hany : Applies .anyCondition key action
    · exact ⟨_, fits_anyCondition_iff.mpr hany⟩
    · by_cases hlast : rule = .conditionCoversBase
      · subst hlast
        exact ⟨_, fits_conditionCoversBase_iff.mpr ⟨ha, hany⟩⟩
      · exact ⟨rule, (fits_iff_applies hlast).mpr ha⟩

theorem matchRule?_eq_some_iff_fits :
    (parse key).matchRule? (parse action) = some rule ↔
      Fits key action rule ∧ ∀ earlier, earlier.rank < rule.rank → ¬Fits key action earlier := by
  -- the rules before another one are not the last, so they fit exactly if they apply
  have hearlier : (∀ earlier, earlier.rank < rule.rank → ¬Fits key action earlier) ↔
      ∀ earlier, earlier.rank < rule.rank → ¬Applies earlier key action :=
    forall_congr' fun earlier => forall_congr' fun hlt =>
      not_congr (fits_iff_applies (MatchRule.ne_conditionCoversBase_of_rank_lt hlt))
  rw [matchRule?_eq_some_iff, hearlier]
  refine and_congr_left fun hnone => ?_
  by_cases hlast : rule = .conditionCoversBase
  · subst hlast
    rw [fits_conditionCoversBase_iff]
    exact (and_iff_left (hnone .anyCondition (by decide))).symm
  · exact (fits_iff_applies hlast).symm

theorem matchRule?_congr {key requested requested' : Action}
    (hraw : key.raw = requested.raw ↔ key.raw = requested'.raw)
    (hbase : key.base = requested.base ↔ key.base = requested'.base)
    (hcondition : requested.condition = "" ↔ requested'.condition = "") :
    key.matchRule? requested = key.matchRule? requested' := by
  simp only [matchRule?, hraw, hbase, hcondition, ne_eq]

/-- The rule reported for a key and an action is the first in order whose texts they are, and none
is reported if there is no such rule, which is so exactly if no rule applies. Actions that are both
the key or both not, have both the key's base or both not, and both a condition or both none, are
matched alike, whether or not a wildcard stands in them. -/
theorem matchRule?_reports_first_fit (key action : String) :
    let found := (parse key).matchRule? (parse action)
    (∀ rule, found = some rule ↔
      Fits key action rule ∧ ∀ earlier, earlier.rank < rule.rank → ¬Fits key action earlier) ∧
    (found = none ↔ ∀ rule, ¬Fits key action rule) ∧
    (found.isSome = true ↔ ∃ rule, Applies rule key action) ∧
    ∀ action' : String, (key = action ↔ key = action') →
      ((parse key).base = (parse action).base ↔ (parse key).base = (parse action').base) →
      ((parse action).condition = "" ↔ (parse action').condition = "") →
      found = (parse key).matchRule? (parse action') := by
  intro found
  refine ⟨fun _ => matchRule?_eq_some_iff_fits, ?_, isSome_matchRule?_iff, ?_⟩
  · rw [← not_exists, exists_fits_iff, ← isSome_matchRule?_iff, Option.not_isSome_iff_eq_none]
  · intro action' hraw hbase hcondition
    exact matchRule?_congr (by rwa [raw_parse, raw_parse, raw_parse]) hbase hcondition

example : (parse "edit:*").matchRule? (parse "edit") = some .anyCondition ∧
    (parse "edit:").matchRule? (parse "edit:a:b") = some .baseCoversCondition ∧
    (parse "edit").matchRule? (parse "*") = none := by
  decide +kernel

end Action

end AccessPolicy

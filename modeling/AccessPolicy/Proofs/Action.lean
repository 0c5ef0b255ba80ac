import AccessPolicy.Action
import AccessPolicy.Proofs.Text.Position

/-! Action strings in words: `Divided` says which parts a string has, and `Applies` by which rules a
key applies to an action. Reading an action finds its parts, and of the rules by which a key applies
to it `matchRule?` reports the first. -/

namespace AccessPolicy

/-- The place of a rule in the order in which the rules are tried. -/
def MatchRule.rank : MatchRule → Nat
  | global => 0
  | exact => 1
  | anyCondition => 2
  | baseCoversCondition => 3
  | conditionCoversBase => 4

namespace Action

/-- The base and the condition of an action string: the parts on both sides of its first colon.
Without a colon the string is all base, and the condition is empty. -/
inductive Divided : String → String → String → Prop
  | bare {base : String} : ':' ∉ base.toList → Divided base base ""
  | colon {base : String} (condition : String) :
      ':' ∉ base.toList → Divided (base ++ ":" ++ condition) base condition

/-- Every text is divided at its first colon, or has none. -/
theorem exists_divided (raw : String) : ∃ base condition, Divided raw base condition := by
  by_cases hc : ':' ∈ raw.toList
  · obtain ⟨base, condition, hb, rfl⟩ := Text.exists_eq_append_colon hc
    exact ⟨base, condition, .colon condition hb⟩
  · exact ⟨raw, "", .bare hc⟩

theorem Divided.parse_eq {raw base condition : String} (hd : Divided raw base condition) :
    parse raw = ⟨raw, base, condition⟩ := by
  cases hd with
  | bare hb => rw [parse, colon?, Text.colon?_of_not_mem hb, withColon]
  | colon condition hb =>
    rw [parse, colon?, Text.toList_append_colon, Text.colon?_append hb, withColon,
      Text.toList_append_colon, Text.cut?_append]
    simp

@[simp] theorem raw_parse (raw : String) : (parse raw).raw = raw := by
  obtain ⟨base, condition, hd⟩ := exists_divided raw
  rw [hd.parse_eq]

theorem divided_iff {raw base condition : String} :
    Divided raw base condition ↔ (parse raw).base = base ∧ (parse raw).condition = condition := by
  constructor
  · intro hd
    rw [hd.parse_eq]
    exact ⟨rfl, rfl⟩
  · rintro ⟨rfl, rfl⟩
    obtain ⟨base, condition, hd⟩ := exists_divided raw
    rw [hd.parse_eq]
    exact hd

theorem divided_parse (raw : String) : Divided raw (parse raw).base (parse raw).condition :=
  divided_iff.mpr ⟨rfl, rfl⟩

/-- A text is divided in one way only. -/
theorem Divided.unique {raw base condition base' condition' : String}
    (hd : Divided raw base condition) (hd' : Divided raw base' condition') :
    base' = base ∧ condition' = condition := by
  have heq := hd'.parse_eq.symm.trans hd.parse_eq
  exact ⟨congrArg Action.base heq, congrArg Action.condition heq⟩

/-- The texts of given parts: the parts with a colon between and, if the condition is empty, the
base alone. -/
theorem divided_iff_eq {text base condition : String} :
    Divided text base condition ↔
      ':' ∉ base.toList ∧ (text = base ∧ condition = "" ∨ text = base ++ ":" ++ condition) := by
  constructor
  · intro hd
    cases hd with
    | bare hb => exact ⟨hb, .inl ⟨rfl, rfl⟩⟩
    | colon condition hb => exact ⟨hb, .inr rfl⟩
  · rintro ⟨hb, ⟨rfl, rfl⟩ | rfl⟩
    · exact .bare hb
    · exact .colon condition hb

theorem Divided.colon_not_mem {text base condition : String}
    (hd : Divided text base condition) : ':' ∉ base.toList :=
  (divided_iff_eq.mp hd).1

theorem divided_empty_iff {text base : String} :
    Divided text base "" ↔ ':' ∉ base.toList ∧ (text = base ∨ text = base ++ ":") := by
  rw [divided_iff_eq, and_iff_left rfl, String.append_empty]

theorem divided_append_colon {base : String} (hb : ':' ∉ base.toList) :
    Divided (base ++ ":") base "" :=
  divided_empty_iff.mpr ⟨hb, .inr rfl⟩

theorem Divided.eq_or_eq_append_colon {text base : String} (hd : Divided text base "") :
    text = base ∨ text = base ++ ":" :=
  (divided_empty_iff.mp hd).2

theorem divided_iff_of_ne_empty {text base condition : String} (hne : condition ≠ "") :
    Divided text base condition ↔ ':' ∉ base.toList ∧ text = base ++ ":" ++ condition := by
  rw [divided_iff_eq, or_iff_right fun h => hne h.2]

/-- The texts with a base are the base alone and what starts with the base and a colon. -/
theorem exists_divided_iff {text base : String} :
    (∃ condition, Divided text base condition) ↔
      ':' ∉ base.toList ∧ (text = base ∨ ∃ condition, text = base ++ ":" ++ condition) := by
  simp only [divided_iff_eq, exists_and_left, exists_or, exists_eq, and_true]

/-! ### The rules -/

/-- The rules by which a key applies to an action. Several of them may. -/
inductive Applies : MatchRule → String → String → Prop
  | global (action : String) : Applies .global wildcard action
  | exact (action : String) : Applies .exact action action
  | anyCondition {key action base condition : String} :
      Divided key base wildcard → Divided action base condition →
      Applies .anyCondition key action
  | baseCoversCondition {key action base condition : String} :
      Divided key base "" → Divided action base condition → condition ≠ "" →
      Applies .baseCoversCondition key action
  | conditionCoversBase {key action base condition : String} :
      Divided key base condition → condition ≠ "" → Divided action base "" →
      Applies .conditionCoversBase key action

/-- A rule read off the parts of a key and an action. -/
def Holds (key requested : Action) : MatchRule → Prop
  | .global => key.raw = wildcard
  | .exact => key.raw = requested.raw
  | .anyCondition => key.base = requested.base ∧ key.condition = wildcard
  | .baseCoversCondition =>
    key.base = requested.base ∧ key.condition = "" ∧ requested.condition ≠ ""
  | .conditionCoversBase =>
    key.base = requested.base ∧ requested.condition = "" ∧ key.condition ≠ ""

/-- A rule applies to texts exactly if it holds of their parts. -/
theorem applies_iff_holds {rule : MatchRule} {key action : String} :
    Applies rule key action ↔ Holds (parse key) (parse action) rule := by
  constructor
  · intro ha
    cases ha with
    | global | exact => simp [Holds]
    | anyCondition hk ha => rw [hk.parse_eq, ha.parse_eq]; exact ⟨rfl, rfl⟩
    | baseCoversCondition hk ha hc => rw [hk.parse_eq, ha.parse_eq]; exact ⟨rfl, rfl, hc⟩
    | conditionCoversBase hk hc ha => rw [hk.parse_eq, ha.parse_eq]; exact ⟨rfl, rfl, hc⟩
  · intro hh
    cases rule with
    | global =>
      rw [Holds, raw_parse] at hh
      rw [hh]
      exact .global action
    | exact =>
      rw [Holds, raw_parse, raw_parse] at hh
      rw [hh]
      exact .exact action
    | anyCondition =>
      obtain ⟨hb, hk⟩ := hh
      exact .anyCondition (divided_iff.mpr ⟨hb, hk⟩) (divided_parse action)
    | baseCoversCondition =>
      obtain ⟨hb, hk, hc⟩ := hh
      exact .baseCoversCondition (divided_iff.mpr ⟨hb, hk⟩) (divided_parse action) hc
    | conditionCoversBase =>
      obtain ⟨hb, ha, hc⟩ := hh
      exact .conditionCoversBase (divided_iff.mpr ⟨hb, rfl⟩) hc (divided_iff.mpr ⟨rfl, ha⟩)

theorem holds_of_matchRule? {key requested : Action} {rule : MatchRule}
    (hm : key.matchRule? requested = some rule) : Holds key requested rule := by
  unfold matchRule? at hm
  grind [Holds]

theorem exists_matchRule?_of_holds {key requested : Action} {rule : MatchRule}
    (hh : Holds key requested rule) :
    ∃ first, key.matchRule? requested = some first ∧ first.rank ≤ rule.rank := by
  unfold matchRule?
  cases rule <;> grind [Holds, MatchRule.rank]

end Action

end AccessPolicy

import AccessPolicy.Proofs.Action
import Mathlib.Data.Set.Insert

/-! How much of an action's text its parts keep. With a colon between them they are the text again,
unless it is the base alone, so only a trailing colon can be lost: texts of the same parts are
equal, or one of them is a base and the other this base with a colon after it. -/

namespace AccessPolicy

namespace Action

variable {x y base condition : String}

theorem Divided.eq_or_pair_eq (hx : Divided x base condition) (hy : Divided y base condition) :
    x = y ∨ ({x, y} : Set String) = {base, base ++ ":"} := by
  by_cases hempty : condition = ""
  · subst hempty
    rcases hx.eq_or_eq_append_colon with rfl | rfl
    · rcases hy.eq_or_eq_append_colon with rfl | rfl
      · exact .inl rfl
      · exact .inr rfl
    · rcases hy.eq_or_eq_append_colon with rfl | rfl
      · exact .inr (Set.pair_comm _ _)
      · exact .inl rfl
  · have htextx := ((divided_iff_of_ne_empty hempty).mp hx).2
    have htexty := ((divided_iff_of_ne_empty hempty).mp hy).2
    exact .inl (htextx.trans htexty.symm)

theorem divided_of_pair_eq (hb : ':' ∉ base.toList)
    (hpair : ({x, y} : Set String) = {base, base ++ ":"}) :
    Divided x base "" ∧ Divided y base "" := by
  rw [divided_empty_iff, divided_empty_iff]
  rcases Set.pair_eq_pair_iff.mp hpair with ⟨hx, hy⟩ | ⟨hx, hy⟩
  · exact ⟨⟨hb, .inl hx⟩, hb, .inr hy⟩
  · exact ⟨⟨hb, .inr hx⟩, hb, .inl hy⟩

/-- Texts have the same parts if they are equal or differ by a colon at the end of a base. -/
theorem parts_eq_iff :
    (parse x).base = (parse y).base ∧ (parse x).condition = (parse y).condition ↔
      x = y ∨ ∃ base : String, ':' ∉ base.toList ∧ ({x, y} : Set String) = {base, base ++ ":"} := by
  constructor
  · intro hparts
    have hx : Divided x (parse y).base (parse y).condition := divided_iff.mpr hparts
    refine (hx.eq_or_pair_eq (divided_parse y)).imp_right fun hpair => ?_
    exact ⟨(parse y).base, hx.colon_not_mem, hpair⟩
  · rintro (rfl | ⟨base, hb, hpair⟩)
    · exact ⟨rfl, rfl⟩
    · obtain ⟨hx, hy⟩ := divided_of_pair_eq hb hpair
      rw [hx.parse_eq, hy.parse_eq]
      exact ⟨rfl, rfl⟩

/-- An action is its base and its condition with a colon between them, or its base alone, and its
base has no colon. Two actions have the same parts exactly if they are equal, or if one is a base
without a colon and the other this base with a colon after it. Every base without a colon and every
condition, colons in it included, are the parts of the action that a colon between them makes. -/
theorem parse_divides_faithfully :
    (∀ raw : String,
      ':' ∉ (parse raw).base.toList ∧
        (':' ∉ raw.toList ∧ raw = (parse raw).base ∧ (parse raw).condition = "" ∨
          raw = (parse raw).base ++ ":" ++ (parse raw).condition)) ∧
    (∀ x y : String,
      (parse x).base = (parse y).base ∧ (parse x).condition = (parse y).condition ↔
        x = y ∨
          ∃ base : String, ':' ∉ base.toList ∧ ({x, y} : Set String) = {base, base ++ ":"}) ∧
    ∀ base condition : String, ':' ∉ base.toList →
      parse (base ++ ":" ++ condition) = ⟨base ++ ":" ++ condition, base, condition⟩ := by
  refine ⟨fun raw => ?_, fun _ _ => parts_eq_iff, fun _ condition hb =>
    (Divided.colon condition hb).parse_eq⟩
  obtain ⟨hb, htext⟩ := divided_iff_eq.mp (divided_parse raw)
  refine ⟨hb, htext.imp_left fun hbare => ?_⟩
  rw [← hbare.1] at hb
  exact ⟨hb, hbare⟩

/-- A condition that has colons, one at each end, after a base that has characters of two and of
four bytes, and two texts that the parts do not tell apart. -/
theorem parse_divides_faithfully_many_colons :
    ':' ∉ "größe𝄞".toList ∧
    parse "größe𝄞::a:b:" = ⟨"größe𝄞::a:b:", "größe𝄞", ":a:b:"⟩ ∧
    (parse "größe𝄞").base = (parse "größe𝄞:").base ∧
    (parse "größe𝄞").condition = (parse "größe𝄞:").condition := by
  have hb : ':' ∉ "größe𝄞".toList := by decide
  obtain ⟨-, hparts, hjoined⟩ := parse_divides_faithfully
  exact ⟨hb, hjoined "größe𝄞" ":a:b:" hb,
    (hparts "größe𝄞" "größe𝄞:").mpr (.inr ⟨"größe𝄞", hb, rfl⟩)⟩

end Action

end AccessPolicy

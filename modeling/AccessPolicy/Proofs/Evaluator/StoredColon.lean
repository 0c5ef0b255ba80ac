import AccessPolicy.Proofs.Compilation
import AccessPolicy.Proofs.Text.Bytes

/-! The colon positions that are stored in a table. They are those of the first colons of the keys,
in bytes, so a key can be sliced there into the parts that reading it anew would find, and a policy
applies to an action as its key does. -/

namespace AccessPolicy

namespace Action

theorem colon?_eq_none_iff {raw : String} : colon? raw = none ↔ ':' ∉ raw.toList := by
  constructor
  · intro hnone hmem
    obtain ⟨base, condition, hb, rfl⟩ := Text.exists_eq_append_colon hmem
    rw [colon?, Text.toList_append_colon, Text.colon?_append hb] at hnone
    cases hnone
  · exact Text.colon?_of_not_mem

/-- The position of a colon is the number of bytes before the first one. -/
theorem colon?_eq_some_iff {raw : String} {n : Nat} :
    colon? raw = some n ↔
      ∃ base condition : String, ':' ∉ base.toList ∧ raw = base ++ ":" ++ condition ∧
        n = base.utf8ByteSize := by
  have hcolon : ∀ base condition : String, ':' ∉ base.toList →
      colon? (base ++ ":" ++ condition) = some base.utf8ByteSize := by
    intro base condition hb
    rw [colon?, Text.toList_append_colon, Text.colon?_append hb, Text.byteLength_toList]
  constructor
  · intro hsome
    by_cases hmem : ':' ∈ raw.toList
    · obtain ⟨base, condition, hb, rfl⟩ := Text.exists_eq_append_colon hmem
      rw [hcolon base condition hb] at hsome
      exact ⟨base, condition, hb, rfl, (Option.some.inj hsome).symm⟩
    · rw [colon?_eq_none_iff.mpr hmem] at hsome
      cases hsome
  · rintro ⟨base, condition, hb, rfl, rfl⟩
    exact hcolon base condition hb

/-- A byte position stored with a key, none or that of its first colon. -/
structure ColonOf (key : String) (colon : Option Nat) : Prop where
  none_iff : colon = none ↔ ':' ∉ key.toList
  some_iff : ∀ n, colon = some n ↔
    ∃ base condition : String, ':' ∉ base.toList ∧ key = base ++ ":" ++ condition ∧
      n = base.utf8ByteSize
  /-- The positions before and after the colon are in range and between characters. -/
  isValid : ∀ n, colon = some n →
    (⟨n⟩ : String.Pos.Raw).IsValid key ∧ (⟨n + 1⟩ : String.Pos.Raw).IsValid key
  /-- The key can be cut there, and its parts are the bytes on both sides of the colon. -/
  slices : ∀ n, colon = some n →
    (∃ before after, Text.cut? key.toList n = some (before, ':' :: after)) ∧
      Text.bytes (withColon key colon).base = (Text.bytes key).take n ∧
      Text.bytes (withColon key colon).condition = (Text.bytes key).drop (n + 1)
  withColon_eq : withColon key colon = parse key

theorem colonOf_colon? (key : String) : ColonOf key (colon? key) := by
  constructor
  case none_iff => exact colon?_eq_none_iff
  case some_iff => exact fun _ => colon?_eq_some_iff
  case isValid =>
    intro n hn
    obtain ⟨base, condition, -, rfl, rfl⟩ := colon?_eq_some_iff.mp hn
    exact ⟨Text.isValid_before_colon base condition, Text.isValid_after_colon base condition⟩
  case slices =>
    intro n hn
    obtain ⟨base, condition, hb, rfl, rfl⟩ := colon?_eq_some_iff.mp hn
    have hparse : withColon (base ++ ":" ++ condition) (colon? (base ++ ":" ++ condition)) =
        ⟨base ++ ":" ++ condition, base, condition⟩ :=
      (Divided.colon condition hb).parse_eq
    refine ⟨⟨base.toList, condition.toList, ?_⟩, ?_, ?_⟩
    · rw [Text.toList_append_colon, ← Text.byteLength_toList base, Text.cut?_append]
    · rw [hparse, Text.bytes_append_colon, ← Text.length_bytes base, List.take_left]
    · rw [hparse, Text.bytes_append_colon, ← Text.length_bytes base, List.drop_length_add_append]
      rfl
  case withColon_eq => rfl

end Action

namespace Evaluator

variable {S R : Type}

/-- The colon positions of a table are those of its keys, which are in the order of their bytes, and
the policies that apply to an action are those whose keys do when read anew, by the same rules. -/
structure KeepsColons (e : Evaluator S R) : Prop where
  pairwise_keys : e.keys.Pairwise fun a b => Text.bytes a < Text.bytes b
  colonOf : ∀ key entry, (key, entry) ∈ e.policies.toList → Action.ColonOf key entry.colon
  matching_eq : ∀ action, (e.matching action).value =
    e.policies.toList.filterMap fun (key, entry) =>
      (e.ruleFor? key action).map fun rule => ⟨key, rule, entry.predicate⟩

/-- A table that stores the positions of colons has valid ones. -/
theorem ColonsCached.keepsColons {e : Evaluator S R} (hc : e.ColonsCached) : e.KeepsColons := by
  constructor
  case pairwise_keys => exact e.policies.pairwise_keys.imp Text.bytes_lt_bytes
  case colonOf =>
    intro key entry he
    rw [hc key entry (KeyMap.mem_toList_iff.mp he)]
    exact Action.colonOf_colon? key
  case matching_eq => exact applicable_eq hc

/-- Whether a table starts empty or is compiled, every sequence of calls on it leaves the colon
positions that are stored in it those of its keys. -/
theorem stored_colons_kept [RoleBearer S] :
    (∀ calls : List (Call S R), (ofCalls calls).KeepsColons) ∧
    ∀ (config : Config) (roles : RoleMatcher) (provider : Provider S R) (calls : List (Call S R)),
      (calls.foldl perform (compile config roles provider).value.evaluator).KeepsColons := by
  constructor
  · intro calls
    exact (colonsCached_ofCalls calls).keepsColons
  · intro config roles provider calls
    rw [Compilation.evaluator_compile, ofCalls, ← List.foldl_append]
    exact (colonsCached_ofCalls _).keepsColons

end Evaluator

end AccessPolicy

import AccessPolicy.Proofs.Command.Loading
import AccessPolicy.Proofs.Conditions.Permission
import AccessPolicy.Proofs.Text.Lines

/-! The keys of a compiled configuration. They are the texts of the rules, with the two spellings of
the wildcard made one, each once and in order, whatever becomes of the conditions. A key is stored
with the position of its colon, at which it is cut into the parts that the rule was cut into. The
keys are what the program lists. -/

namespace AccessPolicy

variable {S R : Type}

/-- The texts of the rules of all roles, with `*` in place of `*:*`, each once and in order. -/
structure Config.NormalizedRules (c : Config) (keys : List String) : Prop where
  increasing : keys.Pairwise (· < ·)
  mem_iff : ∀ key, key ∈ keys ↔
    ∃ role, ∃ text ∈ c.allowed role, (if text = "*:*" then "*" else text) = key

/-- The parts of a key as the table has them, cut at the stored position. -/
def Evaluator.storedAction? (e : Evaluator S R) (key : String) : Option Action :=
  (e.policies.get? key).map fun entry => Action.withColon key entry.colon

namespace Config.NormalizedRules

variable {c : Config} {keys keys' : List String}

theorem eq (h : c.NormalizedRules keys) (h' : c.NormalizedRules keys') : keys = keys' :=
  h.increasing.eq_of_mem_iff h'.increasing fun key => by rw [h.mem_iff, h'.mem_iff]

theorem eq_nil_iff (h : c.NormalizedRules keys) : keys = [] ↔ ∀ role, c.allowed role = [] := by
  constructor
  · intro hnil role
    rw [List.eq_nil_iff_forall_not_mem]
    intro text hmem
    have hkey : (if text = "*:*" then "*" else text) ∈ keys :=
      (h.mem_iff _).mpr ⟨role, text, hmem, rfl⟩
    rw [hnil] at hkey
    exact List.not_mem_nil hkey
  · intro hnone
    rw [List.eq_nil_iff_forall_not_mem]
    intro key hkey
    obtain ⟨role, text, hmem, -⟩ := (h.mem_iff key).mp hkey
    rw [hnone role] at hmem
    exact List.not_mem_nil hmem

end Config.NormalizedRules

/-! ### The parts of a key -/

/-- What is stored with a key cuts it as parsing does. -/
theorem Evaluator.storedAction?_of_mem_keys {e : Evaluator S R} (hc : e.ColonsCached)
    {key : String} (hkey : key ∈ e.keys) : e.storedAction? key = some (Action.parse key) := by
  obtain ⟨entry, hentry⟩ := mem_keys_iff.mp hkey
  have hcolon : entry.colon = Action.colon? key := hc key entry hentry
  rw [storedAction?, hentry, Option.map_some, hcolon, Action.parse]

theorem Rule.parse_key {r : Rule} (hne : r.text ≠ "*:*") :
    Action.parse r.key = ⟨r.text, r.action, r.condition?.getD ""⟩ := by
  have hkey : r.key = r.text := by rw [key_eq_keyOf, keyOf_eq_ite, if_neg hne]
  rw [hkey, parse_text]

namespace Compilation

variable [RoleBearer S]

/-- The keys of a compiled table are the normalized rules of its configuration. -/
theorem normalizedRules_keys_compile (config : Config) (roles : RoleMatcher)
    (provider : Provider S R) :
    config.NormalizedRules (compile config roles provider).value.evaluator.keys where
  increasing := KeyMap.pairwise_keys _
  mem_iff key := by
    rw [mem_keys_compile_iff]
    simp only [Config.mem_rules_iff_mem_allowed, Rule.key_eq_keyOf, Rule.keyOf_eq_ite]
    constructor
    · rintro ⟨rule, hmem, hkey⟩
      exact ⟨rule.role, rule.text, hmem, hkey⟩
    · rintro ⟨role, text, hmem, hkey⟩
      exact ⟨⟨role, text⟩, hmem, hkey⟩

end Compilation

/-! ### The output -/

namespace Report

theorem unlines_cons (line : String) (rest : List String) :
    unlines (line :: rest) = line ++ "\n" ++ unlines rest := by
  rw [unlines, List.map_cons, String.join_cons, unlines]

theorem lineBreaks_unlines (lines : List String) :
    Text.lineBreaks (unlines lines) = lines.length + (lines.map Text.lineBreaks).sum := by
  have hbreak : Text.lineBreaks "\n" = 1 := by decide
  induction lines with
  | nil => rfl
  | cons line rest ih =>
    rw [unlines_cons, Text.lineBreaks_append, Text.lineBreaks_append, hbreak, ih,
      List.length_cons, List.map_cons, List.sum_cons]
    omega

/-- The output of a line without line breaks is that of no other lines. -/
theorem unlines_eq_singleton_iff {lines : List String} {text : String} (h : '\n' ∉ text.toList) :
    unlines lines = unlines [text] ↔ lines = [text] := by
  constructor
  · intro heq
    have hbreaks := congrArg Text.lineBreaks heq
    rw [lineBreaks_unlines, lineBreaks_unlines, List.map_singleton,
      Text.lineBreaks_eq_zero_iff.mpr h, List.length_singleton, List.sum_singleton] at hbreaks
    rcases lines with _ | ⟨line, _ | ⟨next, rest⟩⟩
    · cases hbreaks
    · have htext : line.toList ++ ['\n'] = text.toList ++ ['\n'] := by
        simpa [unlines_cons] using congrArg String.toList heq
      rw [String.toList_inj.mp (List.append_cancel_right htext)]
    · rw [List.length_cons, List.length_cons] at hbreaks
      omega
  · rintro rfl
    rfl

end Report

/-! ### The command -/

namespace Command

variable {config : Config} {files : Files} {path : String}

theorem run_keys_of_loadPolicy (hl : loadPolicy files path = .ok config) :
    run files ⟨path, .keys⟩ = keys config := by
  simp only [run, hl]

/-- The command lists the normalized rules, if there are any. -/
theorem lines_keys {expected : List String} (hkeys : config.NormalizedRules expected) :
    (keys config).lines = if expected = [] then ["No policies defined."] else expected := by
  let e := (compileConfig config).value.evaluator
  have hlisted : e.keys = expected := by
    have hcompiled : config.NormalizedRules e.keys := by
      rw [show e.keys = _ from congrArg (·.evaluator.keys) (compileConfig_value config)]
      exact Compilation.normalizedRules_keys_compile config _ _
    exact hcompiled.eq hkeys
  have hempty : e.isEmpty = true ↔ expected = [] := by
    rw [← hlisted]
    show e.policies.toList.isEmpty = true ↔ e.policies.toList.map (·.1) = []
    rw [List.isEmpty_iff, List.map_eq_nil_iff]
  show (if e.isEmpty then ["No policies defined."] else e.keys) = _
  simp only [hempty, hlisted]

end Command

variable [RoleBearer S]

end AccessPolicy

import AccessPolicy.Proofs.Compilation.Report
import AccessPolicy.Proofs.Text.Lines

/-! The message of the errors that compiling reports. It joins the texts of the errors by line
breaks, and the texts quote roles, rules and conditions as they are given, with the provider's
reason as it is. So each error takes up one line more than the line breaks in what it quotes: the
lines are the texts of the errors exactly if nothing that is quoted holds a line break, and
otherwise the message does not tell how many rules failed. -/

namespace AccessPolicy

/-! ### The texts of errors -/

namespace RuleError

/-- The line breaks in what the text of an error quotes. -/
def lineBreaks (e : RuleError) : Nat :=
  Text.lineBreaks e.role + Text.lineBreaks e.rule + Text.lineBreaks e.condition +
    Text.lineBreaks e.source.message

/-- Neither role nor rule nor reason of an error holds a line break. -/
def FitsLine (e : RuleError) : Prop :=
  '\n' ∉ e.role.toList ∧ '\n' ∉ e.rule.toList ∧ '\n' ∉ e.source.message.toList

instance : DecidablePred FitsLine := fun _ => inferInstanceAs (Decidable (_ ∧ _ ∧ _))

theorem lineBreaks_message (e : RuleError) : Text.lineBreaks e.message = e.lineBreaks := by
  have h₁ : Text.lineBreaks "role '" = 0 := by decide
  have h₂ : Text.lineBreaks "': rule '" = 0 := by decide
  have h₃ : Text.lineBreaks "': failed to get predicate '" = 0 := by decide
  have h₄ : Text.lineBreaks "': " = 0 := by decide
  simp only [message, toString, Text.lineBreaks_append, h₁, h₂, h₃, h₄, lineBreaks]
  omega

end RuleError

theorem Rule.Conditioned.lineBreaks_le {text condition : String} (hc : Conditioned text condition) :
    Text.lineBreaks condition ≤ Text.lineBreaks text := by
  cases hc with
  | bare =>
    have hwildcard : Text.lineBreaks wildcard = 0 := by decide
    omega
  | colon condition =>
    rw [Text.lineBreaks_append]
    omega

/-- The message joins the texts of the errors by line breaks. -/
theorem PolicyError.message_compile (errors : List RuleError) :
    (compile errors).message = "\n".intercalate (errors.map RuleError.message) := by
  have hjoined : (compile errors).message = "\n".intercalate (ruleMessages errors) := rfl
  rw [hjoined, ruleMessages_eq_map]

variable {S R : Type} {provider : Provider S R}

/-- The condition is part of the rule, so its line breaks are the rule's. -/
theorem Explains.lineBreaks_eq_zero_iff {e : RuleError} (he : Explains provider e) :
    e.lineBreaks = 0 ↔ e.FitsLine := by
  have hcondition := he.conditioned.lineBreaks_le
  rw [RuleError.FitsLine, ← Text.lineBreaks_eq_zero_iff, ← Text.lineBreaks_eq_zero_iff,
    ← Text.lineBreaks_eq_zero_iff, RuleError.lineBreaks]
  omega

variable [RoleBearer S]

/-- The lines of the message are the lines of the texts of its errors, in order. There is one line
for each error and one more for each line break that it quotes, so the lines are the texts, and as
many as there are errors, exactly if no role, rule or reason of an error holds a line break. -/
theorem lines_message_errors_compile (config : Config) (roles : RoleMatcher)
    (provider : Provider S R) (hne : (compile config roles provider).value.errors ≠ []) :
    let errors := (compile config roles provider).value.errors
    let lines := Text.lines (PolicyError.compile errors).message
    lines = errors.flatMap (fun e => Text.lines e.message) ∧
      lines.length = errors.length + (errors.map RuleError.lineBreaks).sum ∧
      (lines = errors.map RuleError.message ↔ ∀ e ∈ errors, e.FitsLine) ∧
      (lines.length = errors.length ↔ ∀ e ∈ errors, e.FitsLine) := by
  intro errors lines
  have hlines : lines = (errors.map RuleError.message).flatMap Text.lines := by
    rw [show lines = Text.lines (PolicyError.compile errors).message from rfl,
      PolicyError.message_compile, Text.lines_intercalate (mt List.map_eq_nil_iff.mp hne)]
  have hlength : lines.length = errors.length + (errors.map RuleError.lineBreaks).sum := by
    have hbreaks : Text.lineBreaks ∘ RuleError.message = RuleError.lineBreaks :=
      funext RuleError.lineBreaks_message
    rw [hlines, Text.length_flatMap_lines, List.length_map, List.map_map, hbreaks]
  have hfits : ∀ e ∈ errors, e.lineBreaks = 0 ↔ e.FitsLine := by
    intro e he
    rw [show errors = _ from Compilation.errors_compile config roles provider] at he
    exact (Compilation.explains_of_mem_errors he).lineBreaks_eq_zero_iff
  have hlength_iff : lines.length = errors.length ↔ ∀ e ∈ errors, e.FitsLine := by
    rw [hlength, Nat.add_eq_left, List.sum_eq_zero_iff_forall_eq_nat]
    simp only [List.forall_mem_map]
    exact forall₂_congr hfits
  refine ⟨by rw [hlines, List.flatMap_map], hlength, ⟨?_, ?_⟩, hlength_iff⟩
  · intro htexts
    rw [← hlength_iff, htexts, List.length_map]
  · intro hall
    rw [hlines]
    apply Text.flatMap_lines_of_not_mem
    simp only [List.forall_mem_map]
    intro e he
    rw [← Text.lineBreaks_eq_zero_iff, e.lineBreaks_message, hfits e he]
    exact hall e he

/-- Two roles with one failing rule each: two errors, two lines. -/
theorem lines_message_errors_compile_two_roles :
    let config := (Config.empty.withRole "editor" ["edit:x"]).withRole "viewer" ["read:y"]
    let provider := (Registry.empty : Registry Entity Entity).lookup
    let errors := (compile config .flat provider).value.errors
    errors ≠ [] ∧
      Text.lines (PolicyError.compile errors).message = errors.map RuleError.message := by
  intro config provider errors
  have hlength : errors.length = 2 := by decide +kernel
  have hne : errors ≠ [] := by
    intro hnil
    rw [hnil] at hlength
    cases hlength
  have hfits : ∀ e ∈ errors, e.FitsLine := by decide +kernel
  exact ⟨hne, (lines_message_errors_compile config .flat _ hne).2.2.1.mpr hfits⟩

/-- The name of a role can end the text of an error and go on with that of another one. Then one
rule fails and the message has two lines, just as if two rules of two other roles had failed. -/
theorem message_of_one_error_has_two_lines :
    let role := "editor': rule 'edit:x': failed to get predicate 'x': predicate not found: x" ++
      "\nrole 'viewer"
    let config := Config.empty.withRole role ["read:y"]
    let config' := (Config.empty.withRole "editor" ["edit:x"]).withRole "viewer" ["read:y"]
    let provider := (Registry.empty : Registry Entity Entity).lookup
    let errors := (compile config .flat provider).value.errors
    let errors' := (compile config' .flat provider).value.errors
    errors.length = 1 ∧ (Text.lines (PolicyError.compile errors).message).length = 2 ∧
      Text.lines (PolicyError.compile errors).message ≠ errors.map RuleError.message ∧
      (PolicyError.compile errors).message = (PolicyError.compile errors').message ∧
      errors'.length = 2 := by
  intro role config config' provider errors errors'
  have hone : errors.length = 1 := by decide +kernel
  have htwo : (Text.lines (PolicyError.compile errors).message).length = 2 := by decide +kernel
  refine ⟨hone, htwo, ?_, by decide +kernel, by decide +kernel⟩
  intro htexts
  have hlength := congrArg List.length htexts
  rw [htwo, List.length_map, hone] at hlength
  cases hlength

end AccessPolicy

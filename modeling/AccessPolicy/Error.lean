import AccessPolicy.File
import AccessPolicy.Json.Error

/-! What goes wrong with policies, with the text of each error. -/

namespace AccessPolicy

/-- Why a configuration has not the shape of one. -/
inductive ParseFault where
  | json (error : Json.ReadError)
  | toml
  | other (text : String)
deriving Repr

/-- What a text is reported to be wrong in. -/
def ParseFault.message : ParseFault → String
  | json error => error.message
  | toml => "not a TOML configuration"
  | other text => text

/-- A rule whose condition could not be resolved, with the reason in `ε`. The rule is still
compiled, with a condition that never holds. -/
structure UnresolvedRule (ε : Type) where
  role : String
  rule : String
  condition : String
  source : ε
deriving Repr

/-- The errors of the policy layer. -/
inductive PolicyError where
  /-- No predicate has this name. -/
  | predicateNotFound (name : String)
  /-- Some rules could not be fully compiled. -/
  | compile (errors : List (UnresolvedRule PolicyError))
  /-- A configuration has the wrong shape. -/
  | parse (fault : ParseFault)
  /-- A configuration file cannot be read. -/
  | file (error : FileError)
deriving Repr

/-- A rule whose condition could not be resolved. -/
abbrev RuleError : Type := UnresolvedRule PolicyError

mutual

/-- The text of an error. Rules that are not resolved have a line each. -/
def PolicyError.message : PolicyError → String
  | .predicateNotFound name => s!"predicate not found: {name}"
  | .compile errors => "\n".intercalate (PolicyError.ruleMessages errors)
  | .parse fault => s!"failed to parse config: {fault.message}"
  | .file error => s!"failed to read config file: {error.message}"

/-- The texts of the rules that are not resolved, each with the reason of the provider. -/
def PolicyError.ruleMessages : List (UnresolvedRule PolicyError) → List String
  | [] => []
  | ⟨role, rule, condition, source⟩ :: rest =>
    s!"role '{role}': rule '{rule}': failed to get predicate '{condition}': {source.message}" ::
      PolicyError.ruleMessages rest

end

theorem PolicyError.message_predicateNotFound (name : String) :
    (predicateNotFound name).message = s!"predicate not found: {name}" :=
  rfl

/-- The text of one rule that is not resolved. -/
def RuleError.message (e : RuleError) : String :=
  s!"role '{e.role}': rule '{e.rule}': failed to get predicate '{e.condition}': {e.source.message}"

theorem PolicyError.ruleMessages_eq_map (errors : List RuleError) :
    PolicyError.ruleMessages errors = errors.map RuleError.message := by
  induction errors with
  | nil => rfl
  | cons e rest ih => simp [ruleMessages, ih, RuleError.message]

end AccessPolicy

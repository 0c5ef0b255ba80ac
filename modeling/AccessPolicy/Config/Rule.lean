import AccessPolicy.Action
import AccessPolicy.Config

/-! The rules of a configuration, each with its role, its parts and the key of the policy that it
becomes. -/

namespace AccessPolicy

/-- A rule of a role. -/
structure Rule where
  role : String
  text : String
deriving DecidableEq, Repr

namespace Rule

/-- The action of a rule and its condition, if one is written out. -/
def parts (r : Rule) : String × Option String :=
  match Text.splitColon? r.text.toList with
  | some (action, condition) => (String.ofList action, some (String.ofList condition))
  | none => (r.text, none)

/-- The part of a rule before its first colon. -/
def action (r : Rule) : String := r.parts.1

/-- The condition of a rule, which is absent if the rule has no colon. -/
def condition? (r : Rule) : Option String := r.parts.2

/-- The condition of a rule that a provider must resolve: one that is written out and is not the
wildcard. -/
def namedCondition? (r : Rule) : Option String := r.condition?.filter (· ≠ wildcard)

/-- The key of the policy that a rule becomes: the wildcard for the rules that allow everything, the
whole rule if a condition is written out, and the action otherwise. -/
def key (r : Rule) : String :=
  if r.text = wildcard then wildcard
  else
    match r.condition? with
    | none => r.action
    | some condition =>
      if r.action = wildcard ∧ condition = wildcard then wildcard else r.text

end Rule

/-- All rules, by role and then in the order in which they are given. -/
def Config.rules (c : Config) : List Rule :=
  c.policies.toList.flatMap fun (role, policy) => policy.allow.map fun text => ⟨role, text⟩

end AccessPolicy

import AccessPolicy.Text.Position

/-! Action strings `base` and `base:condition`, and the rules by which a policy key applies to a
requested action. The first colon divides an action, so a base holds no colon and a condition may
hold more of them. -/

namespace AccessPolicy

/-- The catch-all key and condition. -/
def wildcard : String := "*"

/-- An action string with its parts before and after its first colon. -/
structure Action where
  raw : String
  base : String
  condition : String
deriving DecidableEq, Repr

/-- Why a policy key applies to a requested action. -/
inductive MatchRule where
  /-- The key is the wildcard. -/
  | global
  /-- The key is the requested action. -/
  | exact
  /-- The key has the wildcard for its condition, and the action has the key's base. -/
  | anyCondition
  /-- The key has no condition, and the action has one on the same base. -/
  | baseCoversCondition
  /-- The key has a condition, which its predicate still decides, and the action has none. -/
  | conditionCoversBase
deriving DecidableEq, Repr

/-- How the rule is named to users. -/
def MatchRule.text : MatchRule → String
  | .global => "global wildcard"
  | .exact => "exact"
  | .anyCondition => "any condition"
  | .baseCoversCondition => "base covers condition"
  | .conditionCoversBase => "condition covers base"

namespace Action

/-- The position of the first colon of an action. -/
def colon? (raw : String) : Option Nat := Text.colon? raw.toList

/-- The action cut at a known byte position of its first colon; without one, all of it is base. -/
def withColon (raw : String) : Option Nat → Action
  | none => ⟨raw, raw, ""⟩
  | some colon =>
    match Text.cut? raw.toList colon with
    | some (before, _ :: after) => ⟨raw, String.ofList before, String.ofList after⟩
    | _ => ⟨raw, raw, ""⟩

/-- An action string read by finding its first colon. -/
def parse (raw : String) : Action := withColon raw (colon? raw)

instance : ToString Action := ⟨raw⟩

/-- The rule by which the policy stored under `key` applies to `requested`: the first of the rules
that holds. A wildcard in the request has no special meaning. -/
def matchRule? (key requested : Action) : Option MatchRule :=
  if key.raw = wildcard then some .global
  else if key.raw = requested.raw then some .exact
  else if key.base ≠ requested.base then none
  else if key.condition = wildcard then some .anyCondition
  else if key.condition = "" ∧ requested.condition ≠ "" then some .baseCoversCondition
  else if requested.condition = "" ∧ key.condition ≠ "" then some .conditionCoversBase
  else none

end Action

end AccessPolicy

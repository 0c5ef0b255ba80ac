import AccessPolicy.Action
import AccessPolicy.Recorded

/-! What the library reports while it works: the events, with their severity, message and fields,
and the computations that report them. -/

namespace AccessPolicy

/-- How severe an event is. -/
inductive Level where
  | error
  | warn
  | info
  | debug
  | trace
deriving DecidableEq, Repr

namespace Level

/-- Levels in their order, the most urgent first. -/
def rank : Level → Nat
  | error => 0
  | warn => 1
  | info => 2
  | debug => 3
  | trace => 4

/-- Whether a log at level `threshold` keeps events of level `l`: those at least as severe. -/
def admits (threshold l : Level) : Bool := l.rank ≤ threshold.rank

/-- How a level is written. -/
def name : Level → String
  | error => "ERROR"
  | warn => "WARN"
  | info => "INFO"
  | debug => "DEBUG"
  | trace => "TRACE"

end Level

/-- The roles of a cycle on one line. -/
def cycleText (roles : List String) : String := " -> ".intercalate roles

/-- Something worth reporting. -/
inductive Event where
  /-- The roles along a cycle of a hierarchy, the first one repeated at the end. -/
  | hierarchyCycle (cycle : List String)
  | unresolvedCondition (role rule condition : String)
  | compiledRule (role rule key : String)
  | registeringPolicy (key : String)
  | policyApplies (policy action : String) (rule : MatchRule)
  | evaluatedRequest (action : String) (allowed : Bool)
deriving DecidableEq, Repr

namespace Event

/-- What a field of an event holds. -/
inductive Field where
  | text (value : String)
  | flag (value : Bool)
deriving DecidableEq, Repr

/-- How urgent an event is. -/
def level : Event → Level
  | hierarchyCycle .. | unresolvedCondition .. => .warn
  | compiledRule .. | registeringPolicy .. => .debug
  | policyApplies .. | evaluatedRequest .. => .trace

/-- What an event is called. -/
def message : Event → String
  | hierarchyCycle .. => "role hierarchy contains a cycle"
  | unresolvedCondition .. => "unresolved condition, rule will deny"
  | compiledRule .. => "compiled rule"
  | registeringPolicy .. => "registering policy"
  | policyApplies .. => "policy applies"
  | evaluatedRequest .. => "evaluated request"

/-- What an event tells, in order. -/
def fields : Event → List (String × Field)
  | hierarchyCycle cycle => [("cycle", .text (cycleText cycle))]
  | unresolvedCondition role rule condition =>
    [("role", .text role), ("rule", .text rule), ("condition", .text condition)]
  | compiledRule role rule key => [("role", .text role), ("rule", .text rule), ("key", .text key)]
  | registeringPolicy key => [("key", .text key)]
  | policyApplies policy action rule =>
    [("policy", .text policy), ("action", .text action), ("rule", .text rule.text)]
  | evaluatedRequest action allowed => [("action", .text action), ("allowed", .flag allowed)]

end Event

/-- A value with the events reported on the way to it. -/
abbrev Logged (α : Type) : Type := Recorded Event α

end AccessPolicy

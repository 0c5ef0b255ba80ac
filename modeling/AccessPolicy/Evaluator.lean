import AccessPolicy.Event
import AccessPolicy.KeyMap
import AccessPolicy.Request
import AccessPolicy.Text.Quoted

/-! The table of policies and the decisions made with it. A request is denied unless some policy
whose key applies to the requested action holds for it. Policies are visited in key order.
`evaluate` combines all policies that apply before it consults any of them, and `decide` consults
them one by one and stops at the first that holds; both reach the same verdict by the same checks.
-/

namespace AccessPolicy

/-- The outcome of a request with its reason. -/
inductive Decision where
  /-- The key whose policy granted the request, and why that key applies. -/
  | allow (policy : String) (rule : MatchRule)
  | deny (reason : String)
deriving DecidableEq, Repr

/-- Whether a decision allows the action. -/
def Decision.isAllowed : Decision → Bool
  | allow .. => true
  | deny _ => false

/-- A policy of the table, with the byte position of the first colon of its key. -/
structure Entry (S R : Type) where
  colon : Option Nat
  predicate : RequestPredicate S R

/-- A table of policies by key. In strict mode an action without condition is not granted by
policies of keys with a condition, the wildcard condition apart. -/
structure Evaluator (S R : Type) where
  policies : KeyMap (Entry S R)
  strictConditions : Bool

/-- A policy that applies to an action, with the rule by which it does. -/
structure Applicable (S R : Type) where
  key : String
  rule : MatchRule
  predicate : RequestPredicate S R

variable {S R : Type}

/-- The event of a policy that is found to apply to an action. -/
def Applicable.event (a : Applicable S R) (action : String) : Event :=
  .policyApplies a.key action a.rule

namespace Evaluator

/-- A table without policies, not strict. -/
def empty : Evaluator S R := ⟨.empty, false⟩

instance : Inhabited (Evaluator S R) := ⟨empty⟩

/-- The same table in strict mode. -/
def withStrictConditions (e : Evaluator S R) : Evaluator S R := { e with strictConditions := true }

/-- Adds a policy under `key`. If there is one already, either of the two may grant, the older one
being consulted first. -/
def addPolicy (e : Evaluator S R) (key : String) (p : RequestPredicate S R) :
    Logged (Evaluator S R) := do
  Recorded.note (.registeringPolicy key)
  return { e with policies := e.policies.upsert key fun
    | some entry => { entry with predicate := entry.predicate.or p }
    | none => ⟨Action.colon? key, p⟩ }

/-- How many keys the table has. -/
def size (e : Evaluator S R) : Nat := e.policies.size

/-- The table has no policy. -/
def isEmpty (e : Evaluator S R) : Bool := e.policies.isEmpty

/-- The keys in increasing order. -/
def keys (e : Evaluator S R) : List String := e.policies.keys

/-- The policy of an entry as it applies to `requested`, if it does. -/
def applies? (e : Evaluator S R) (requested : Action) (key : String) (entry : Entry S R) :
    Option (Applicable S R) :=
  match (Action.withColon key entry.colon).matchRule? requested with
  | none => none
  | some rule =>
    if e.strictConditions && rule == .conditionCoversBase then none
    else some ⟨key, rule, entry.predicate⟩

/-- The policies that apply to an action, in key order. -/
def applicable (e : Evaluator S R) (action : String) : List (Applicable S R) :=
  let requested := Action.parse action
  e.policies.toList.filterMap fun (key, entry) => e.applies? requested key entry

/-- The policies that apply to an action, each reported as it is visited. -/
def matching (e : Evaluator S R) (action : String) : Logged (List (Applicable S R)) :=
  ⟨e.applicable action, (e.applicable action).map (·.event action)⟩

/-- The disjunction of some predicates from left to right, if there are any. -/
def anyOf? : List (RequestPredicate S R) → Option (RequestPredicate S R)
  | [] => none
  | p :: ps => some (ps.foldl Predicate.or p)

/-- The disjunction of all policies that apply to an action; nothing if none applies. -/
def policyFor (e : Evaluator S R) (action : String) : Logged (Option (RequestPredicate S R)) := do
  let found ← e.matching action
  return anyOf? (found.map (·.predicate))

/-- Whether a request is granted. -/
def evaluate (e : Evaluator S R) (q : Request S R) : Logged (Traced Bool) := do
  let combined ← e.policyFor q.action
  let verdict : Traced Bool :=
    match combined with
    | some p => p.run q
    | none => pure false
  Recorded.note (.evaluatedRequest q.action verdict.value)
  return verdict

/-- Why a request is denied to which `considered` policies apply. -/
def denial (action : String) (considered : Nat) : String :=
  if considered = 0 then s!"no policy matches action '{action}'"
  else s!"no matching policy granted '{action}' ({considered} considered)"

/-- Consults policies in turn until one grants the request; `considered` did not. -/
def decideAmong (q : Request S R) (considered : Nat) :
    List (Applicable S R) → Logged (Traced Decision)
  | [] => pure (pure (.deny (denial q.action considered)))
  | a :: rest => do
    Recorded.note (a.event q.action)
    let verdict := a.predicate.run q
    if verdict.value then
      return ⟨.allow a.key a.rule, verdict.notes⟩
    else
      let later ← decideAmong q (considered + 1) rest
      return ⟨later.value, verdict.notes ++ later.notes⟩

/-- The decision about a request, with the policy that granted it or the reason of the denial. -/
def decide (e : Evaluator S R) (q : Request S R) : Logged (Traced Decision) :=
  decideAmong q 0 (e.applicable q.action)

/-- The table on one line, its keys quoted. -/
def summary (e : Evaluator S R) : String :=
  let keys := ", ".intercalate (e.keys.map Text.quoted)
  s!"Evaluator \x7b policies: [{keys}], strict_conditions: {e.strictConditions} \x7d"

end Evaluator

end AccessPolicy

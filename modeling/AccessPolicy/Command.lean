import AccessPolicy.CommandLine
import AccessPolicy.Conditions
import AccessPolicy.Config.Load

/-! The commands of the program: deciding a request, validating a policy file and listing its keys.
A command reads files, and reports what it has to print and how it ended; printing is left to the
caller. -/

namespace AccessPolicy

open CommandLine (Command Invocation)

/-- Why a command fails. -/
inductive CommandError where
  | policyNotFound (path : String)
  | entity (error : EntityError)
  | unresolved (count : Nat)
  | policy (error : PolicyError)
deriving Repr

/-- What the user is told about an error. -/
def CommandError.message : CommandError → String
  | policyNotFound path =>
    s!"policy file not found at {path}. Pass --policy or set {CommandLine.policyVariable}"
  | entity error => error.message
  | unresolved count => s!"{count} rule(s) reference unknown conditions"
  | policy error => error.message

/-- How a command ended: whether it had a positive answer, or why it has none. -/
abbrev Verdict : Type := Except CommandError Bool

/-- What a command leaves behind: its lines, its warnings and its verdict. -/
structure Report where
  lines : List String
  warnings : List String
  verdict : Verdict

namespace Report

/-- The report of a command that fails before it prints anything. -/
def failure (error : CommandError) : Report := ⟨[], [], .error error⟩

/-- 0 after a positive answer, 2 after a denial and 1 after an error. -/
def exitStatus (r : Report) : Nat :=
  match r.verdict with
  | .ok true => 0
  | .ok false => 2
  | .error _ => 1

/-- The lines of an output, each with a line end. -/
def unlines (lines : List String) : String := String.join (lines.map (· ++ "\n"))

/-- What a command prints. -/
def output (r : Report) : String := unlines r.lines

/-- The last line of what is printed about a command that failed. -/
def errorLine : Verdict → List String
  | .ok _ => []
  | .error e => [s!"Error: {e.message}"]

/-- What a command prints beside its output: its warnings, then its error. -/
def errorOutput (r : Report) : String := unlines (r.warnings ++ errorLine r.verdict)

end Report

namespace Command

/-- A warning for each rule that is not resolved. -/
def warningsOf (errors : List RuleError) : List String :=
  errors.map fun e => s!"warning: {e.message}"

/-- The policy file, which must exist. -/
def loadPolicy (files : Files) (path : String) : Except CommandError Config :=
  if (files path).isPresent then (Config.load files path).mapError .policy
  else .error (.policyNotFound path)

/-- The line for a decision on an action, which starts with the verdict. -/
def decisionLine (action : String) : Decision → String
  | .allow policy rule => s!"allow  {action}  (policy '{policy}', {rule.text})"
  | .deny reason => s!"deny   {action}  ({reason})"

/-- The subject and the resource of a request, the subject read first; without a resource file the
resource is empty. -/
def loadEntities (files : Files) (subject : String) (resource? : Option String) :
    Except CommandError (Entity × Entity) := do
  let subject ← (Entity.load files subject).mapError .entity
  match resource? with
  | none => return (subject, .empty)
  | some path => return (subject, ← (Entity.load files path).mapError .entity)

/-- Decides on one request. Rules that are not resolved are warned of, and grant nothing. -/
def check (config : Config) (subject resource : Entity) (action : String) (strict : Bool) :
    Report :=
  let c := (compileConfig config).value
  let evaluator := if strict then c.evaluator.withStrictConditions else c.evaluator
  let decision := (evaluator.decide ⟨subject, resource, action⟩).value.value
  ⟨[decisionLine action decision], warningsOf c.errors, .ok decision.isAllowed⟩

/-- Reports the rules that cannot be resolved and a cycle of the hierarchy. -/
def validate (config : Config) : Report :=
  let c := (compileConfig config).value
  let cycle :=
    match config.hierarchy.findCycle? with
    | some roles => [s!"warning: role hierarchy cycle: {cycleText roles}"]
    | none => []
  if c.errors.isEmpty then
    let summary := s!"ok: {config.policies.size} role(s), {c.evaluator.size} policy key(s)"
    ⟨cycle ++ [summary], [], .ok true⟩
  else
    ⟨cycle ++ c.errors.map (fun e => s!"error: {e.message}"), [],
      .error (.unresolved c.errors.length)⟩

/-- Lists the keys of the compiled policies. -/
def keys (config : Config) : Report :=
  let c := (compileConfig config).value
  let lines := if c.evaluator.isEmpty then ["No policies defined."] else c.evaluator.keys
  ⟨lines, warningsOf c.errors, .ok true⟩

/-- Runs a command; the policy file is read before the entities. -/
def run (files : Files) (invocation : Invocation) : Report :=
  match loadPolicy files invocation.policy with
  | .error e => .failure e
  | .ok config =>
    match invocation.command with
    | .check subject resource? action strict =>
      match loadEntities files subject resource? with
      | .error e => .failure e
      | .ok (subject, resource) => check config subject resource action strict
    | .validate => validate config
    | .keys => keys config

end Command

end AccessPolicy

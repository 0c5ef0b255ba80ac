/-! The command line: the commands with their options, and how arguments are read. An option's value
may be attached to it or be the next argument, unless that starts with a dash; an option may be
given once. The policy file may be named before the command or after it. -/

namespace AccessPolicy.CommandLine

/-- What is to be done. -/
inductive Command where
  | check (subject : String) (resource? : Option String) (action : String) (strict : Bool)
  | validate
  | keys
deriving DecidableEq, Repr

/-- A command with the policy file that it works on. -/
structure Invocation where
  policy : String
  command : Command
deriving DecidableEq, Repr

/-- The files that an invocation reads, the policy first. -/
def Invocation.paths (invocation : Invocation) : List String :=
  match invocation.command with
  | .check subject resource? .. => invocation.policy :: subject :: resource?.toList
  | .validate | .keys => [invocation.policy]

/-- What the arguments ask for. -/
inductive Asked where
  | run (invocation : Invocation)
  | version
  | help
  | usageError
deriving DecidableEq, Repr

/-- The options that take a value. -/
inductive ValueOption where
  | policy
  | subject
  | resource
  | action
deriving DecidableEq, Repr

/-- All options. -/
inductive AnyOption where
  | value (option : ValueOption)
  | strict
  | version
  | help
deriving DecidableEq, Repr

/-- The names of the commands; `help` is one of them. -/
inductive CommandName where
  | check
  | validate
  | keys
  | help
deriving DecidableEq, Repr

/-- The command of this name. -/
def CommandName.ofString? : String → Option CommandName
  | "check" => some .check
  | "validate" => some .validate
  | "keys" => some .keys
  | "help" => some .help
  | _ => none

/-- Where in the arguments an option stands: before the command or after it. -/
inductive Scope where
  | program
  | command (name : CommandName)
deriving DecidableEq, Repr

namespace Scope

/-- The option with this long name where options of the scope may stand. -/
def long? : Scope → String → Option AnyOption
  | _, "policy" => some (.value .policy)
  | _, "help" => some .help
  | program, "version" => some .version
  | command .check, "subject" => some (.value .subject)
  | command .check, "resource" => some (.value .resource)
  | command .check, "action" => some (.value .action)
  | command .check, "strict" => some .strict
  | _, _ => none

/-- The option with this letter. -/
def short? : Scope → Char → Option AnyOption
  | _, 'p' => some (.value .policy)
  | _, 'h' => some .help
  | program, 'V' => some .version
  | command .check, 's' => some (.value .subject)
  | command .check, 'r' => some (.value .resource)
  | command .check, 'a' => some (.value .action)
  | _, _ => none

end Scope

/-- The options given in a scope. -/
structure Given where
  policy? : Option String
  subject? : Option String
  resource? : Option String
  action? : Option String
  strict : Bool
deriving DecidableEq, Repr

/-- Why reading ends before the arguments do. -/
inductive Stop where
  | version
  | help
  | usage
deriving DecidableEq, Repr

namespace Given

/-- No option is given. -/
def none : Given := ⟨.none, .none, .none, .none, false⟩

/-- The value that is given for an option. -/
def get? (g : Given) : ValueOption → Option String
  | .policy => g.policy?
  | .subject => g.subject?
  | .resource => g.resource?
  | .action => g.action?

/-- Gives a value to an option that has none yet; a path may not be empty. -/
def set (g : Given) (option : ValueOption) (value : String) : Except Stop Given :=
  if (g.get? option).isSome then .error .usage
  else
    match option with
    | .action => .ok { g with action? := some value }
    | .policy => if value = "" then .error .usage else .ok { g with policy? := some value }
    | .subject => if value = "" then .error .usage else .ok { g with subject? := some value }
    | .resource => if value = "" then .error .usage else .ok { g with resource? := some value }

/-- Notes an option that has no value. It is given once at most, and one that asks for help or the
version ends the reading. -/
def flag (g : Given) : AnyOption → Except Stop Given
  | .strict => if g.strict then .error .usage else .ok { g with strict := true }
  | .version => .error .version
  | .help => .error .help
  | .value _ => .error .usage

end Given

/-- Reads an argument of option letters after its dash; the rest of the argument after an option
with a value is that value. An option at the end waits for its value. -/
def readLetters (scope : Scope) (g : Given) : List Char → Except Stop (Given × Option ValueOption)
  | [] => .ok (g, none)
  | c :: rest =>
    match scope.short? c with
    | none => .error .usage
    | some (.value option) =>
      match rest with
      | [] => .ok (g, some option)
      | '=' :: value => return (← g.set option (String.ofList value), none)
      | value => return (← g.set option (String.ofList value), none)
    | some option => do
      let g ← g.flag option
      readLetters scope g rest

/-- Reads an argument with the long name of an option after its dashes. -/
def readLong (scope : Scope) (g : Given) (text : List Char) :
    Except Stop (Given × Option ValueOption) :=
  let name := String.ofList (text.takeWhile (· ≠ '='))
  let attached? : Option String :=
    match text.dropWhile (· ≠ '=') with
    | [] => none
    | _ :: value => some (String.ofList value)
  match scope.long? name, attached? with
  | none, _ => .error .usage
  | some (.value option), some value => return (← g.set option value, none)
  | some (.value option), none => .ok (g, some option)
  | some _, some _ => .error .usage
  | some option, none => return (← g.flag option, none)

/-- Reads the arguments of a scope: the options given, and the command with what follows it, if
there is one. `waiting` is an option whose value must come next. -/
def readArguments (scope : Scope) (g : Given) (waiting : Option ValueOption) :
    List String → Except Stop (Given × Option (CommandName × List String))
  | [] => if waiting.isSome then .error .usage else .ok (g, none)
  | argument :: rest =>
    match waiting, argument.toList with
    | some _, '-' :: _ :: _ => .error .usage
    | some option, _ => do
      let g ← g.set option argument
      readArguments scope g none rest
    | none, ['-', '-'] => if rest = [] then .ok (g, none) else .error .usage
    | none, '-' :: '-' :: text => do
      let (g, waiting) ← readLong scope g text
      readArguments scope g waiting rest
    | none, '-' :: c :: text => do
      let (g, waiting) ← readLetters scope g (c :: text)
      readArguments scope g waiting rest
    | none, _ =>
      match scope, CommandName.ofString? argument with
      | .program, some name => .ok (g, some (name, rest))
      | _, _ => .error .usage

/-- The policy file, unless one is given. -/
def defaultPolicy : String := "warden.json"

/-- Where the name of the policy file comes from, from the weakest source on. -/
inductive Source where
  | default
  | environment
  | argument
deriving DecidableEq, Repr

/-- The policy file of a scope: the one given there, else that of the environment, which may not be
empty, else the default one. -/
def policyOf (g : Given) (environment : Option String) : Except Stop (Source × String) :=
  match g.policy?, environment with
  | some path, _ => .ok (.argument, path)
  | none, some "" => .error .usage
  | none, some path => .ok (.environment, path)
  | none, none => .ok (.default, defaultPolicy)

/-- The command with the options given for it. A check cannot do without a subject and an action. -/
def commandOf (name : CommandName) (g : Given) : Except Stop Command :=
  match name with
  | .check =>
    match g.subject?, g.action? with
    | some subject, some action => .ok (.check subject g.resource? action g.strict)
    | _, _ => .error .usage
  | .validate => .ok .validate
  | .keys => .ok .keys
  | .help => .error .help

/-- Reads what stands before the command, the command and what stands after it. A policy file named
after the command wins over one named before it. -/
def readInvocation (environment : Option String) (arguments : List String) :
    Except Stop Invocation := do
  match ← readArguments .program .none none arguments with
  | (_, none) => .error .usage
  | (_, some (.help, rest)) =>
    match rest with
    | [] => .error .help
    | [name] => .error (if (CommandName.ofString? name).isSome then .help else .usage)
    | _ => .error .usage
  | (before, some (name, rest)) =>
    let (after, _) ← readArguments (.command name) .none none rest
    let command ← commandOf name after
    let (innerSource, inner) ← policyOf after environment
    let (outerSource, outer) ← policyOf before environment
    let policy := if outerSource = .argument ∧ innerSource ≠ .argument then outer else inner
    return ⟨policy, command⟩

/-- What the arguments ask for, where `environment` may name the policy file. -/
def read (environment : Option String) (arguments : List String) : Asked :=
  match readInvocation environment arguments with
  | .ok invocation => .run invocation
  | .error .version => .version
  | .error .help => .help
  | .error .usage => .usageError

/-- The environment variable that names the policy file. -/
def policyVariable : String := "WARDEN_POLICY"

/-- What is printed for the option that asks for the version. -/
def versionText : String := "warden 0.1.0\n"

/-- What is printed for the option that asks for help. -/
def helpText : String :=
  String.join <| List.map (· ++ "\n")
    ["Evaluate role and attribute based access policies",
      "",
      "Usage: warden [OPTIONS] <COMMAND>",
      "",
      "Commands:",
      "  check     Decide a single request; exits 2 when denied",
      "  validate  Compile the policy file and report rules with unknown conditions",
      "  keys      List the compiled policy keys",
      "  help      Print this message or the help of the given subcommand(s)",
      "",
      "Options:",
      "  -p, --policy <POLICY>  Policy file (.json or .toml) [env: WARDEN_POLICY=] " ++
        s!"[default: {defaultPolicy}]",
      "  -h, --help             Print help",
      "  -V, --version          Print version"]

end AccessPolicy.CommandLine

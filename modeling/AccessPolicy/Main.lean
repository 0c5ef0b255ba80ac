import AccessPolicy.Command

/-! The program: it passes arguments, environment and files to the commands, and prints what they
report. -/

namespace AccessPolicy

/-- Whether the system's number `code` of an error, which may come negated, is `number`. -/
def isErrorNumber (number code : UInt32) : Bool := code == number || code == -number

/-- What a path leads to that could not be opened. -/
def FileState.ofFailure : IO.Error → FileState
  | .noFileOrDirectory .. => .absent
  | .inappropriateType _ code _ =>
    .unreadable (if isErrorNumber 21 code then .isDirectory else .notDirectory)
  | e@(.invalidArgument _ code _) =>
    .unreadable (if isErrorNumber 36 code then .nameTooLong else .other (toString e))
  | e => .unreadable (.other (toString e))

/-- What a path leads to whose bytes were read. -/
def FileState.ofBytes (bytes : ByteArray) : FileState :=
  match String.fromUTF8? bytes with
  | some content => .text content
  | none => .unreadable .notText

/-- What a path leads to now. -/
def lookAt (path : String) : IO FileState := do
  try
    return .ofBytes (← IO.FS.readBinFile path)
  catch e =>
    return .ofFailure e

/-- Runs a command on the files it names, prints its report and returns its status. -/
def runCommand (invocation : CommandLine.Invocation) : IO UInt32 := do
  let states ← invocation.paths.mapM fun path => return (path, ← lookAt path)
  let report := Command.run (fun path => (states.lookup path).getD .absent) invocation
  IO.print report.output
  IO.eprint report.errorOutput
  return report.exitStatus.toUInt32

/-- Does what the arguments ask for. -/
def program (arguments : List String) : IO UInt32 := do
  match CommandLine.read (← IO.getEnv CommandLine.policyVariable) arguments with
  | .run invocation => runCommand invocation
  | .version => IO.print CommandLine.versionText; return 0
  | .help => IO.print CommandLine.helpText; return 0
  | .usageError => IO.eprint CommandLine.helpText; return 2

end AccessPolicy

/-- The program. -/
def main (arguments : List String) : IO UInt32 := AccessPolicy.program arguments

import InkLint.CommandLine.Arguments
import InkLint.CommandLine.LogFilter
import InkLint.Output.Console
import InkLint.Scan

/-!
# A run from the command line

The report goes to the standard output, log lines and errors to the standard error. What is logged
and whether the report is coloured follows from the environment.
-/

namespace InkLint

namespace CommandLine

/-- The environment variables. -/
abbrev Environment := String → Option Bytes

/-- How a run ends. -/
structure Ending where
  status : Nat := 0
  stdout : Bytes := []
  stderr : Bytes := []
deriving DecidableEq, Repr

/-- A variable that is set to some text. -/
def Environment.text? (env : Environment) (name : String) : Option (List Char) :=
  (env name).bind Utf8.decode?

/-- The filter for the log: from the first of the two variables that holds a filter. -/
def logFilter (env : Environment) : LogFilter :=
  ((env.text? "KINDLEFY_LOG").bind LogFilter.parse? <|>
    (env.text? "RUST_LOG").bind LogFilter.parse?).getD LogFilter.quiet

/-- Whether the report is coloured. The output is no terminal, so only a demand counts. -/
def isColored (env : Environment) : Bool :=
  (env.text? "CLICOLOR_FORCE").any (· != ['0'])

/-- The target to scan: one must be given, and it must not be empty. -/
def requireTarget : Option Path → Except LintError Path
  | some (b :: rest) => .ok (b :: rest)
  | _ => .error (.usage "Please provide a file or directory.")

/-- The line for an error. -/
def errorLine (e : LintError) : Bytes :=
  Bytes.ofString ("Error: " ++ e.message ++ "\n")

/-- The log lines that a filter lets through. -/
def logLines (stamp : String) (f : LogFilter) (events : List Event) : Bytes :=
  (events.filter f.enables).flatMap fun e => Bytes.ofString (e.line stamp)

/-- Scans a target and writes the report, the log and the error, if there is one. -/
def runScan (stamp : String) (v : Volume) (env : Environment) (target : Option Path) : Ending :=
  match requireTarget target with
  | .error error => { status := error.exitCode, stderr := errorLine error }
  | .ok target =>
    let (answer, sink) := scan v (Console.reporter (isColored env)) target {}
    let log := logLines stamp (logFilter env) answer.events
    match answer.result with
    | .ok _ => { stdout := sink.content, stderr := log }
    | .error error =>
      { status := error.exitCode, stdout := sink.content, stderr := log ++ errorLine error }

/-- Does what the arguments ask for. -/
def run (stamp : String) (v : Volume) (env : Environment) (args : List Bytes) : Ending :=
  match readArguments args with
  | .help => { stdout := Bytes.ofString helpText }
  | .version => { stdout := Bytes.ofString versionText }
  | .refused why => { status := 2, stderr := Bytes.ofString why.message }
  | .scan target => runScan stamp v env target

end CommandLine

end InkLint

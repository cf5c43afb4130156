import TieredDispatch.CommandLine.LogFilter
import TieredDispatch.CommandLine.Parse

/-!
# The program

What the program does for given arguments and a given environment: its exit code, its output, the
failure it reports and its log lines. Everything but the measuring of time is here.
-/

namespace TieredDispatch

/-- What is seen of the program. -/
structure ProgramOutput where
  exitCode : Nat
  stdout : String := ""
  /-- The reason why the workload did not run. -/
  failure : Option WorkloadError := none
  /-- The events that become log lines, in order. -/
  log : List ProgramEvent := []
  /-- Why the arguments do not lead to a run, if that is an error. -/
  complaint : Option ParseStop := none
  /-- Whether log lines and complaints are colored. -/
  colored : Bool := false
  /-- The pieces of the log filter that are passed over, in order. -/
  ignored : List String := []

namespace ProgramOutput

/-- The number of log lines of a level. -/
def linesAt (output : ProgramOutput) (level : LogLevel) : Nat :=
  output.log.countP fun event => event.level = level

/-- Whether escape characters are written: those that color log lines and complaints, and those of
the pieces that are passed over, which are named as they are. -/
def writesEscapes (output : ProgramOutput) : Bool :=
  (output.colored && (!output.log.isEmpty || output.complaint.isSome))
    || output.ignored.any fun piece => piece.toList.contains '\x1b'

end ProgramOutput

/-- Name and version, as `--version` prints them. -/
def versionText : String :=
  "tierjit 0.1.0\n"

/-- The options in a short overview, as `--help` prints them. -/
def helpText : String :=
  let optionLine (spec : OptionSpec) : String :=
    match spec.kind with
    | .flag _ => "  --" ++ spec.name ++ "\n"
    | .valued _ => "  --" ++ spec.name ++ " <VALUE>\n"
  "Usage: tierjit [OPTIONS]\n\nOptions:\n" ++ String.join (OptionSpec.all.map optionLine)
    ++ "  -h, --help\n  -V, --version\n"

namespace Program

/-- Whether an environment variable has a text that is not empty. -/
def isFilled (environment : String → Option String) (name : String) : Bool :=
  (environment name).any (· ≠ "")

/-- The environment variables that decide about the color of complaints. -/
def colorVariables : List String :=
  ["NO_COLOR", "CLICOLOR_FORCE", "CLICOLOR", "TERM", "CI"]

/-- Whether complaints are colored. The environment can forbid it, and otherwise demand it. If it
does neither, a terminal shows colors that is known to have them. -/
def colorsComplaints (environment : String → Option String) (onTerminal : Bool) : Bool :=
  if isFilled environment "NO_COLOR" then false
  else if isFilled environment "CLICOLOR_FORCE" then true
  else if environment "CLICOLOR" = some "0" then false
  else
    onTerminal
      && ((environment "TERM").any (· ≠ "dumb")
        || (environment "CLICOLOR").isSome || (environment "CI").isSome)

/-- The output of a command line that asks for no run. -/
def stopped (stop : ParseStop) (environment : String → Option String) (onTerminal : Bool) :
    ProgramOutput where
  exitCode := stop.exitCode
  stdout := match stop with
    | .displayHelp => helpText
    | .displayVersion => versionText
    | _ => ""
  complaint := if stop.exitCode = 0 then none else some stop
  colored := colorsComplaints environment onTerminal

/-- The text of the log filter. -/
def filterText (environment : String → Option String) : String :=
  (environment "RUST_LOG").getD ""

/-- The filter of the log lines, if it can be read: the environment goes before the option. -/
def filter? (options : Options) (environment : String → Option String) : Option LogFilter :=
  LogFilter.parse? (filterText environment) options.logLevel

/-- The exit code of a program whose log filter cannot be read. -/
def unreadableFilter : Nat := 101

/-- Whether log lines are colored. -/
def usesColor (options : Options) (onTerminal : Bool) : Bool :=
  match options.logColor with
  | .always => true
  | .never => false
  | .auto => onTerminal

/-- A report as the options want it. -/
def reportText (options : Options) (report : WorkloadReport) : String :=
  if options.json then report.toJson.spread ++ "\n" else report.text

/-- All events of a run, in order. -/
def events (elapsedMs : Nat) (result : WorkloadResult) : List ProgramEvent :=
  result.log ++ [.finished elapsedMs result.pending, .done]

/-- The output if the log filter cannot be read. -/
def unfiltered (options : Options) (environment : String → Option String) (onTerminal : Bool) :
    ProgramOutput where
  exitCode := unreadableFilter
  colored := usesColor options onTerminal
  ignored := LogFilter.ignored (filterText environment)

/-- The output of a run. -/
def finished (options : Options) (environment : String → Option String) (onTerminal : Bool)
    (elapsedMs : Nat) (result : Except WorkloadError WorkloadResult) : ProgramOutput :=
  let colored := usesColor options onTerminal
  let ignored := LogFilter.ignored (filterText environment)
  match filter? options environment, result with
  | none, _ => unfiltered options environment onTerminal
  | some _, .error error => { exitCode := 1, failure := some error, colored, ignored }
  | some filter, .ok result =>
    { exitCode := 0
      stdout := reportText options { result.report with elapsedMs }
      log := (events elapsedMs result).filter filter.shows
      colored
      ignored }

/-- The output for given arguments and environment. -/
def run (arguments : List String) (environment : String → Option String) (onTerminal : Bool)
    (elapsedMs : Nat) : ProgramOutput :=
  match Options.parse arguments environment with
  | .error stop => stopped stop environment onTerminal
  | .ok options => finished options environment onTerminal elapsedMs (runWorkload options)

end Program

end TieredDispatch

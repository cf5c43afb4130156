import TieredDispatch.CommandLine.Program

/-!
# The executable

Reads the arguments and the environment, runs the program, and writes its output. The report goes to
standard output and the log lines to standard error, so that a JSON report can be piped on.
-/

namespace TieredDispatch

/-- The environment variables that the program looks at. -/
def readEnvironment : IO (String → Option String) := do
  let names := "RUST_LOG" :: Program.colorVariables ++ OptionSpec.all.filterMap (·.fallback)
  let values ← names.mapM fun name => do
    let value ← IO.getEnv name
    pure (name, value)
  pure fun name => (values.lookup name).join

/-- One log line: the level flush right, the message, and the fields. -/
def logLine (colored : Bool) (event : ProgramEvent) : String :=
  let level := toString event.level
  let shown := if colored then "\x1b[1m" ++ level ++ "\x1b[0m" else level
  let fields := event.fields.map fun field => " " ++ field.1 ++ "=" ++ field.2
  padLeft (5 - level.length) "" ++ shown ++ " " ++ event.message ++ String.join fields

/-- What is wrong with the arguments, and how they should look. -/
def complaintText (colored : Bool) (stop : ParseStop) : String :=
  let mark := if colored then "\x1b[1merror:\x1b[0m" else "error:"
  mark ++ " " ++ toString stop ++ "\n\n" ++ helpText

/-- Why the program failed, with the causes one by one. -/
def failureLines (error : WorkloadError) : List String :=
  match error.chain with
  | [] => []
  | [message] => ["Error: " ++ message]
  | message :: causes => ["Error: " ++ message, "", "Caused by:"] ++ causes.map ("    " ++ ·)

/-- Writes the output of the program, and gives back its exit code. -/
def writeOutput (output : ProgramOutput) : IO UInt32 := do
  let stderr ← IO.getStderr
  for piece in output.ignored do
    stderr.putStrLn ("ignoring '" ++ piece ++ "': no log directive")
  for event in output.log do
    stderr.putStrLn (logLine output.colored event)
  IO.print output.stdout
  match output.complaint with
  | some stop => stderr.putStrLn (complaintText output.colored stop)
  | none => pure ()
  match output.failure with
  | some error =>
    for line in failureLines error do
      stderr.putStrLn line
  | none => pure ()
  pure (UInt32.ofNat output.exitCode)

/-- Runs the workload of the given options and measures its time. -/
def runMeasured (options : Options) (environment : String → Option String) : IO UInt32 := do
  let onTerminal ← (← IO.getStderr).isTty
  if (Program.filter? options environment).isNone then
    let exitCode ← writeOutput (Program.unfiltered options environment onTerminal)
    (← IO.getStderr).putStrLn "Error: a part of the log filter begins or ends inside a character"
    return exitCode
  let before ← IO.monoMsNow
  let result := runWorkload options
  match result with
  | .ok result => IO.sleep (UInt32.ofNat result.compileMs)
  | .error _ => pure ()
  let after ← IO.monoMsNow
  writeOutput (Program.finished options environment onTerminal (after - before) result)

end TieredDispatch

open TieredDispatch

def main (arguments : List String) : IO UInt32 := do
  let environment ← readEnvironment
  match Options.parse arguments environment with
  | .ok options => runMeasured options environment
  | .error stop =>
    let onTerminal ← (← IO.getStderr).isTty
    writeOutput (Program.stopped stop environment onTerminal)

import TieredDispatch.Config
import TieredDispatch.Dispatch.Event
import TieredDispatch.Text.Decimal

/-!
# Options of the command line

What a run of the program is asked to do: the size of the workload, the tiering configuration, the
behaviour of the simulated compiler, and the form of the output.
-/

namespace TieredDispatch

/-! ## Log level and log color -/

/-- The level a text names, by its name in any case or by its verbosity. -/
def LogLevel.parse? (text : String) : Option LogLevel :=
  LogLevel.all.find? fun level =>
    parseWord? text = some (UInt64.ofNat level.verbosity) || text.toUpper = toString level

/-- When log lines are colored. -/
inductive LogColor
  /-- If they go to a terminal. -/
  | auto
  | always
  | never
deriving DecidableEq, Inhabited, Repr

namespace LogColor

instance : ToString LogColor where
  toString
    | auto => "auto"
    | always => "always"
    | never => "never"

instance : Described LogColor where
  describe
    | auto => "Auto"
    | always => "Always"
    | never => "Never"

/-- The color setting a text names, in any case. -/
def parse (text : String) : Except String LogColor :=
  match [auto, always, never].find? fun color => text.toLower = toString color with
  | some color => .ok color
  | none => .error ("Invalid log color '" ++ text ++ "'. Expected: auto, always, or never")

end LogColor

/-! ## Options -/

/-- The options of a run. -/
structure Options where
  /-- Number of caller threads. -/
  threads : UInt64 := 8
  /-- Number of distinct methods. -/
  methods : UInt64 := 64
  /-- Invocations by each caller thread. -/
  callsPerThread : UInt64 := 20000
  /-- Seed of the choice of methods. -/
  seed : UInt64 := 0x7153
  /-- Rounds of busy work for an interpreted call. -/
  work : UInt64 := 200
  l1Threshold : UInt64 := 20
  l2Threshold : UInt64 := 900
  /-- Compile on a pool of threads. -/
  background : Bool := false
  compileWorkers : UInt64 := 2
  shards : UInt64 := 64
  /-- Milliseconds that a compilation at `l1` takes. -/
  compileDelayMs : UInt64 := 2
  /-- Fail every so many attempts to compile. -/
  failEvery : Option UInt64 := none
  /-- Print the report as JSON. -/
  json : Bool := false
  logLevel : LogLevel := .info
  logColor : LogColor := .auto
deriving DecidableEq, Inhabited, Repr

namespace Options

/-- The configuration that the tiering options ask for. -/
def tierConfig (options : Options) : TierConfig where
  l1Threshold := options.l1Threshold
  l2Threshold := options.l2Threshold
  mode := if options.background then .background else .synchronous
  compileWorkers := options.compileWorkers
  shards := options.shards

end Options

end TieredDispatch

import TieredDispatch.Json.Codec
import TieredDispatch.Text.Decimal

/-!
# Workload reports

What a workload did: its size, how many calls failed, the metrics of the dispatcher, and how many
methods ended at each tier. A report is shown as four lines of text or as JSON.
-/

namespace TieredDispatch

/-- How many methods are in each state. -/
structure TierCounts where
  interpreted : Nat := 0
  l1Compiled : Nat := 0
  l2Compiled : Nat := 0
deriving DecidableEq, Inhabited, Repr

namespace TierCounts

/-- Counts one more method. -/
def count (counts : TierCounts) : MethodTier → TierCounts
  | .interpreted => { counts with interpreted := counts.interpreted + 1 }
  | .l1Compiled => { counts with l1Compiled := counts.l1Compiled + 1 }
  | .l2Compiled => { counts with l2Compiled := counts.l2Compiled + 1 }

/-- All methods counted. -/
def total (counts : TierCounts) : Nat :=
  counts.interpreted + counts.l1Compiled + counts.l2Compiled

theorem total_count (counts : TierCounts) (tier : MethodTier) :
    (counts.count tier).total = counts.total + 1 := by
  cases tier <;> simp only [count, total] <;> omega

end TierCounts

/-- What a workload did. -/
structure WorkloadReport where
  config : TierConfig
  threads : Nat
  totalCalls : Nat
  failedCalls : Nat
  elapsedMs : Nat
  metrics : Metrics
  tiers : TierCounts
deriving DecidableEq, Repr

namespace WorkloadReport

/-- The report as text, line by line. -/
def lines (report : WorkloadReport) : List String :=
  let metrics := report.metrics
  [ toString report.totalCalls ++ " calls on " ++ toString report.threads ++ " threads in "
      ++ toString report.elapsedMs ++ " ms (" ++ toString report.failedCalls ++ " failed)",
    "interpreted: " ++ padLeft 10 (toString metrics.interpretations)
      ++ "   executed: " ++ padLeft 10 (toString metrics.executions),
    "compiled L1: " ++ padLeft 10 (toString metrics.l1Compilations)
      ++ "   compiled L2: " ++ padLeft 7 (toString metrics.l2Compilations)
      ++ "   failures: " ++ toString metrics.compilationFailures
      ++ "   denied: " ++ toString metrics.requestsDenied
      ++ "   superseded: " ++ toString metrics.supersededPublishes,
    "methods interpreted: " ++ toString report.tiers.interpreted
      ++ "   at L1: " ++ toString report.tiers.l1Compiled
      ++ "   at L2: " ++ toString report.tiers.l2Compiled ]

/-- The report as text. -/
def text (report : WorkloadReport) : String :=
  String.join (report.lines.map (· ++ "\n"))

/-- The report as a JSON object. -/
def toJson (report : WorkloadReport) : JsonValue :=
  .object [
    ("config", TieredDispatch.toJson report.config),
    ("threads", .number report.threads),
    ("total_calls", .number report.totalCalls),
    ("failed_calls", .number report.failedCalls),
    ("elapsed_ms", .number report.elapsedMs),
    ("metrics", TieredDispatch.toJson report.metrics),
    ("tiers", .object [
      ("interpreted", .number report.tiers.interpreted),
      ("l1_compiled", .number report.tiers.l1Compiled),
      ("l2_compiled", .number report.tiers.l2Compiled)])]

end WorkloadReport

end TieredDispatch

import TieredDispatch.Tier

/-!
# Metrics

Eight counters of dispatch and compilation events. Each is a 64-bit word: an increment wraps, and
only the derived total number of invocations saturates.
-/

namespace TieredDispatch

/-- The sum of two words, or the largest word when it does not fit. -/
def saturatingAdd (a b : UInt64) : UInt64 :=
  if a + b < a then UInt64.ofNat (UInt64.size - 1) else a + b

/-- Counters of dispatch and compilation events. -/
structure Metrics where
  /-- Invocations that ran through the interpreter. -/
  interpretations : UInt64 := 0
  /-- Invocations that ran a compiled artifact. -/
  executions : UInt64 := 0
  /-- Successful compilations at `l1`. -/
  l1Compilations : UInt64 := 0
  /-- Successful compilations at `l2`. -/
  l2Compilations : UInt64 := 0
  /-- Compilations that failed; their request was given back. -/
  compilationFailures : UInt64 := 0
  /-- A tier was asked for, but another caller already held the request. -/
  requestsDenied : UInt64 := 0
  /-- Requests handed to the compiler pool. -/
  requestsQueued : UInt64 := 0
  /-- Artifacts that arrived after a higher tier was published. -/
  supersededPublishes : UInt64 := 0
deriving DecidableEq, Inhabited, Repr

namespace Metrics

/-- All invocations, compiled or not. -/
def invocations (metrics : Metrics) : UInt64 :=
  saturatingAdd metrics.interpretations metrics.executions

def countInterpretation (metrics : Metrics) : Metrics :=
  { metrics with interpretations := metrics.interpretations + 1 }

def countExecution (metrics : Metrics) : Metrics :=
  { metrics with executions := metrics.executions + 1 }

/-- Counts a successful compilation at a tier. -/
def countCompilation (metrics : Metrics) : Tier → Metrics
  | .l1 => { metrics with l1Compilations := metrics.l1Compilations + 1 }
  | .l2 => { metrics with l2Compilations := metrics.l2Compilations + 1 }

def countFailure (metrics : Metrics) : Metrics :=
  { metrics with compilationFailures := metrics.compilationFailures + 1 }

def countDenial (metrics : Metrics) : Metrics :=
  { metrics with requestsDenied := metrics.requestsDenied + 1 }

def countQueued (metrics : Metrics) : Metrics :=
  { metrics with requestsQueued := metrics.requestsQueued + 1 }

def countSuperseded (metrics : Metrics) : Metrics :=
  { metrics with supersededPublishes := metrics.supersededPublishes + 1 }

/-- The counters by name, in order. -/
def toList (metrics : Metrics) : List (String × UInt64) := [
  ("interpretations", metrics.interpretations),
  ("executions", metrics.executions),
  ("l1_compilations", metrics.l1Compilations),
  ("l2_compilations", metrics.l2Compilations),
  ("compilation_failures", metrics.compilationFailures),
  ("requests_denied", metrics.requestsDenied),
  ("requests_queued", metrics.requestsQueued),
  ("superseded_publishes", metrics.supersededPublishes)]

/-- Stores a value into the counter of that name; an unknown name changes nothing. -/
def set (metrics : Metrics) (name : String) (value : UInt64) : Metrics :=
  match name with
  | "interpretations" => { metrics with interpretations := value }
  | "executions" => { metrics with executions := value }
  | "l1_compilations" => { metrics with l1Compilations := value }
  | "l2_compilations" => { metrics with l2Compilations := value }
  | "compilation_failures" => { metrics with compilationFailures := value }
  | "requests_denied" => { metrics with requestsDenied := value }
  | "requests_queued" => { metrics with requestsQueued := value }
  | "superseded_publishes" => { metrics with supersededPublishes := value }
  | _ => metrics

instance : Described Metrics where
  describe metrics :=
    Described.record "MetricsSnapshot" (metrics.toList.map fun entry => (entry.1, describe entry.2))

end Metrics

end TieredDispatch

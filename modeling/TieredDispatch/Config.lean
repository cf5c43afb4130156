import TieredDispatch.Tier

/-!
# Configuration

A configuration fixes the two thresholds, where compilations run, and how finely the per-method
maps are split. `TierConfig.validate` finds the first reason to refuse a configuration; inverted
thresholds are accepted, and then no method is ever compiled at `l1`.
-/

namespace TieredDispatch

/-- Where compilation work runs. -/
inductive CompilationMode
  /-- The invocation that wins a request compiles inline and reports a failure. -/
  | synchronous
  /-- Requests go to a pool of compiler threads while callers keep interpreting. -/
  | background
deriving DecidableEq, Inhabited, Repr

namespace CompilationMode

instance : ToString CompilationMode where
  toString
    | synchronous => "synchronous"
    | background => "background"

instance : Described CompilationMode where
  describe
    | synchronous => "Synchronous"
    | background => "Background"

end CompilationMode

/-! ## Reasons to refuse a configuration -/

/-- A configuration the dispatcher does not start with. -/
inductive ConfigError
  | zeroThreshold (tier : Tier)
  | noCompileWorkers
  | invalidShardCount (shards : UInt64)
deriving DecidableEq, Repr

namespace ConfigError

/-- The text shown to the host. -/
def message : ConfigError → String
  | zeroThreshold tier => toString tier ++ " threshold must be positive"
  | noCompileWorkers => "background compilation needs at least one compile worker"
  | invalidShardCount shards =>
    "shard count must be a non-zero power of two, got " ++ toString shards

instance : Described ConfigError where
  describe
    | zeroThreshold tier => Described.wrapper "ZeroThreshold" (describe tier)
    | noCompileWorkers => "NoCompileWorkers"
    | invalidShardCount shards => Described.wrapper "InvalidShardCount" (describe shards)

end ConfigError

/-! ## Configurations -/

/-- Configuration of a tiered dispatcher. The default compiles a method at `l1` on its 20th
invocation and at `l2` on its 900th, inline. -/
structure TierConfig where
  /-- Invocation count from which a method is eligible for `l1`. -/
  l1Threshold : UInt64 := 20
  /-- Invocation count from which a method is eligible for `l2`. -/
  l2Threshold : UInt64 := 900
  mode : CompilationMode := .synchronous
  /-- Number of compiler threads in background mode. -/
  compileWorkers : UInt64 := 1
  /-- Number of shards of the per-method maps, a power of two. -/
  shards : UInt64 := 64
deriving DecidableEq, Inhabited, Repr

/-- A power of two has no bit in common with its predecessor, and zero is none. -/
def isPowerOfTwo (n : UInt64) : Bool :=
  n != 0 && n &&& (n - 1) == 0

namespace TierConfig

/-- The given thresholds, and defaults elsewhere. -/
def withThresholds (l1 l2 : UInt64) : TierConfig :=
  { l1Threshold := l1, l2Threshold := l2 }

/-- Compile in the background with this many workers. -/
def inBackground (config : TierConfig) (workers : UInt64) : TierConfig :=
  { config with mode := .background, compileWorkers := workers }

/-- The first value the dispatcher cannot run with: thresholds first, then workers, then shards. -/
def validate (config : TierConfig) : Except ConfigError Unit :=
  if config.l1Threshold = 0 then
    .error (.zeroThreshold .l1)
  else if config.l2Threshold = 0 then
    .error (.zeroThreshold .l2)
  else if config.mode = .background ∧ config.compileWorkers = 0 then
    .error .noCompileWorkers
  else if isPowerOfTwo config.shards then
    .ok ()
  else
    .error (.invalidShardCount config.shards)

/-- `l1` would not fire strictly before `l2`. -/
def hasInvertedThresholds (config : TierConfig) : Bool :=
  config.l2Threshold ≤ config.l1Threshold

instance : Described TierConfig where
  describe config := Described.record "TierConfig" [
    ("l1_threshold", describe config.l1Threshold),
    ("l2_threshold", describe config.l2Threshold),
    ("compilation_mode", describe config.mode),
    ("compile_workers", describe config.compileWorkers),
    ("shards", describe config.shards)]

end TierConfig

end TieredDispatch

import TieredDispatch.CompilationCache
import TieredDispatch.Policy
import TieredDispatch.UsageCounter
import TieredDispatch.Dispatch.Pool

/-!
# The dispatcher

A dispatcher owns the usage counter, the compilation cache, the metrics and, in background mode,
the compiler pool. It is an explicit value of the host; there is no state outside it. A **compile
job** is a granted request on its way from the compiler to the cache.
-/

namespace TieredDispatch

/-! ## Compile jobs -/

/-- Where a compile job is. Each stage names the step that comes next; only `compiling` waits for
the host. -/
inductive CompileStage (α : Type)
  /-- The request is held; next the compiler is called. -/
  | holding
  /-- The compiler is at work. -/
  | compiling
  /-- The compiler produced an artifact and the request is kept; next the compilation is counted. -/
  | compiled (artifact : α)
  /-- Next the tier is recorded as requested. -/
  | counted (artifact : α)
  /-- Next the artifact is offered to the cache. -/
  | recorded (artifact : α)
  /-- The artifact came after one of a higher tier; next that is counted. -/
  | superseded
  /-- The compiler failed; next the request is given back. -/
  | failed (cause : CompileFailure)
  /-- The request was given back; next the failure is counted. -/
  | released (cause : CompileFailure)
  /-- An error was taken for a panic, because its thread is unwinding; next it is counted as an
  error too. -/
  | charged (reason : String)
  /-- Done, with the reason if there is no artifact. -/
  | done (failure : Option CompileFailure)
deriving DecidableEq, Repr

namespace CompileStage

variable {α : Type}

/-- Steps that are still to come, at most. -/
def rank : CompileStage α → Nat
  | holding => 6
  | compiling => 5
  | compiled _ => 4
  | counted _ => 3
  | recorded _ => 2
  | superseded => 1
  | failed _ => 3
  | released _ => 2
  | charged _ => 1
  | done _ => 0

end CompileStage

/-- A granted request and where its compilation is. -/
structure CompileJob (α : Type) where
  request : Request
  stage : CompileStage α := .holding
deriving DecidableEq, Repr

/-- Who moves next in a compile job. -/
inductive JobTurn
  | dispatcher
  | compiler
  /-- Nobody: the job is done, with the reason if there is no artifact. -/
  | ended (failure : Option CompileFailure)
deriving DecidableEq, Repr

/-! ## Dispatchers -/

/-- The state of a dispatcher whose artifacts have type `α`. -/
structure Dispatcher (α : Type) where
  config : TierConfig
  counter : UsageCounter
  cache : CompilationCache α
  metrics : Metrics := {}
  /-- The compiler pool, in background mode only. -/
  pool : Option (Pool (CompileJob α)) := none
  /-- Events reported so far, newest first. -/
  log : List Event := []

namespace Dispatcher

variable {α : Type}

/-- Reports an event. -/
def report (d : Dispatcher α) (event : Event) : Dispatcher α :=
  { d with log := event :: d.log }

/-- The events in the log, oldest first. -/
def events (d : Dispatcher α) : List Event :=
  d.log.reverse

/-- Takes the events out of the log, oldest first. -/
def takeLog (d : Dispatcher α) : List Event × Dispatcher α :=
  (d.events, { d with log := [] })

/-- A dispatcher with nothing counted and nothing requested. -/
def ofConfig (config : TierConfig) : Dispatcher α where
  config := config
  counter := .withShards config.shards.toNat
  cache := .withShards config.shards.toNat
  pool := match config.mode with
    | .synchronous => none
    | .background => some (.start config.compileWorkers.toNat)

/-- Starts a dispatcher, unless its configuration is refused. Inverted thresholds are reported and
accepted. -/
def start (config : TierConfig) : Except ConfigError (Dispatcher α) := do
  config.validate
  if config.hasInvertedThresholds then
    pure ((ofConfig config).report (.invertedThresholds config.l1Threshold config.l2Threshold))
  else
    pure (ofConfig config)

def policy (d : Dispatcher α) : TierPolicy :=
  .ofConfig d.config

/-- How a method runs now. -/
def methodTier (d : Dispatcher α) (m : MethodId) : MethodTier :=
  .ofTier (d.cache.tierOf m)

/-- Requests waiting for a worker; none in synchronous mode. -/
def pendingCompilations (d : Dispatcher α) : Nat :=
  (d.pool.map (·.queued)).getD 0

instance : Described (Dispatcher α) where
  describe d := Described.openRecord "Dispatcher" [
    ("config", describe d.config), ("methods", describe d.counter.size), ("pool", describe d.pool)]

end Dispatcher

/-! ## The steps of a compile job -/

namespace CompileJob

variable {α : Type}

/-- A granted request whose compiler has not been called yet. -/
def hold (request : Request) : CompileJob α :=
  { request }

/-- The compiler is called. -/
def begin (job : CompileJob α) : CompileJob α :=
  match job.stage with
  | .holding => { job with stage := .compiling }
  | _ => job

/-- The compiler's call ended. An artifact keeps the request, anything else will give it back. -/
def conclude (job : CompileJob α) (outcome : Outcome α) : CompileJob α :=
  match job.stage with
  | .compiling =>
    match outcome with
    | .value artifact => { job with stage := .compiled artifact }
    | .error reason => { job with stage := .failed (.error reason) }
    | .panic payload => { job with stage := .failed (.panic payload) }
  | _ => job

/-- Whether the compiler is at work on the job. -/
def isCompiling (job : CompileJob α) : Bool :=
  match job.stage with
  | .compiling => true
  | _ => false

/-- Who moves next. -/
def turn (job : CompileJob α) : JobTurn :=
  match job.stage with
  | .holding | .compiling => .compiler
  | .done failure => .ended failure
  | _ => .dispatcher

/-- The next atomic step of a job. On a thread that is unwinding, giving the request back takes
every failure for a panic. -/
def advance (job : CompileJob α) (unwinding : Bool) (d : Dispatcher α) :
    CompileJob α × Dispatcher α :=
  let m := job.request.method
  let tier := job.request.tier
  match job.stage with
  | .holding | .compiling | .done _ => (job, d)
  | .compiled artifact =>
    ({ job with stage := .counted artifact },
      { d with metrics := d.metrics.countCompilation tier })
  | .counted artifact =>
    ({ job with stage := .recorded artifact },
      { d with cache := d.cache.recordRequest m tier })
  | .recorded artifact =>
    let (taken, cache) := d.cache.place m ⟨tier, artifact⟩
    if taken then
      ({ job with stage := .done none }, { d with cache }.report (.compiled job.request))
    else
      ({ job with stage := .superseded }, { d with cache })
  | .superseded =>
    ({ job with stage := .done none },
      { d with metrics := d.metrics.countSuperseded }.report (.superseded job.request))
  | .failed cause =>
    ({ job with stage := .released cause }, { d with cache := d.cache.release m tier })
  | .released (.panic payload) =>
    ({ job with stage := .done (some (.panic payload)) },
      { d with metrics := d.metrics.countFailure }.report (.compilerPanicked job.request))
  | .released (.error reason) =>
    if unwinding then
      ({ job with stage := .charged reason },
        { d with metrics := d.metrics.countFailure }.report (.compilerPanicked job.request))
    else
      ({ job with stage := .done (some (.error reason)) },
        { d with metrics := d.metrics.countFailure }.report (.compilationFailed job.request reason))
  | .charged reason =>
    ({ job with stage := .done (some (.error reason)) },
      { d with metrics := d.metrics.countFailure }.report (.compilationFailed job.request reason))

/-- Nobody moves next only in a job that is done. -/
theorem exists_done_of_turn {job : CompileJob α} {failure : Option CompileFailure}
    (h : job.turn = .ended failure) : ∃ request, job = ⟨request, .done failure⟩ := by
  obtain ⟨request, stage⟩ := job
  cases stage <;> simp only [turn, JobTurn.ended.injEq, reduceCtorEq] at h
  exact ⟨request, by rw [h]⟩

/-- A step of the dispatcher brings a job closer to its end. -/
theorem rank_advance_lt (job : CompileJob α) (unwinding : Bool) (d : Dispatcher α)
    (h : job.turn = .dispatcher) : (job.advance unwinding d).1.stage.rank < job.stage.rank := by
  obtain ⟨request, stage⟩ := job
  cases stage with
  | holding | compiling | done _ => simp [turn] at h
  | recorded artifact =>
    simp only [advance]
    split <;> simp [CompileStage.rank]
  | released cause =>
    cases cause with
    | error reason =>
      simp only [advance]
      split <;> simp [CompileStage.rank]
    | panic payload => simp [advance, CompileStage.rank]
  | compiled _ | counted _ | superseded | failed _ | charged _ => simp [advance, CompileStage.rank]

/-- The compiler's work brings a job closer to its end. -/
theorem rank_conclude_lt (job : CompileJob α) (outcome : Outcome α) (h : job.turn = .compiler) :
    (job.begin.conclude outcome).stage.rank < job.stage.rank := by
  obtain ⟨request, stage⟩ := job
  cases stage <;> simp [turn] at h <;> cases outcome <;>
    simp [begin, conclude, CompileStage.rank]

end CompileJob

/-! ## The workers of the pool -/

namespace Dispatcher

variable {α : Type}

/-- Lets every free worker take a waiting request, oldest first, and gives back what was taken. -/
def feedWorkers (d : Dispatcher α) : List Request × Dispatcher α :=
  match d.pool with
  | none => ([], d)
  | some pool =>
    let (taken, pool) := pool.feed .hold
    (taken, { d with pool := some pool })

/-- A worker is done with its job. A panic ends in the log. -/
def finishJob (d : Dispatcher α) (worker : Nat) (request : Request)
    (failure : Option CompileFailure) : Dispatcher α :=
  let d := match failure with
    | some (.panic payload) => d.report (.requestPanicked request payload)
    | _ => d
  { d with pool := d.pool.map (·.finish worker) }

/-- A worker is lost while it drops the payload of the panic that its job ended in. Only what is no
text has a destructor that can panic. -/
def loseWorker (d : Dispatcher α) (worker : Nat) (payload : PanicPayload) :
    Option (Dispatcher α) := do
  let pool ← d.pool
  let job ← pool.jobOf? worker
  match job.turn with
  | .ended (some (.panic .other)) =>
    some { d.report (.requestPanicked job.request .other) with
      pool := some (pool.lose worker payload) }
  | _ => none

end Dispatcher

end TieredDispatch

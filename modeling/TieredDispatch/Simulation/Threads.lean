import TieredDispatch.Dispatch.System
import TieredDispatch.Simulation.Workload

/-!
# Workloads on threads

`runWorkload` lets the callers take their turns call by call. Here every caller thread and every
worker of the pool moves on its own, one atomic step at a time: a **schedule** says whose turn it
is, and what a thread does next is settled by where it is. The threads share the dispatcher and the
compiler, which numbers its attempts when it is called and answers when the call ends, whatever else
happens in between. When all callers are done, the main thread looks at the methods one by one and
then loads the counters one by one, while the workers go on.
-/

namespace TieredDispatch

/-- Who takes the next step of a workload. -/
inductive Mover
  /-- A caller thread. -/
  | thread (i : Nat)
  /-- A worker of the compiler pool. -/
  | worker (i : Nat)
  /-- The thread that waits for the callers and collects the report. -/
  | main
deriving DecidableEq, Repr

/-- Whether the methods are picked for these options: a list for each thread, with a method for each
call. -/
def Options.admits (options : Options) (picks : List (List MethodId)) : Bool :=
  picks.length = options.threads.toNat && picks.all fun methods =>
    methods.length = options.callsPerThread.toNat && methods.all (·.val < options.methods)

/-- A workload whose threads are on their way. -/
structure ThreadedWorkload where
  options : Options
  system : System SimArtifact UInt64
  compiler : SimulatedCompiler
  /-- The methods that each caller thread is still to invoke. -/
  picks : List (List MethodId)
  /-- What the compiler will answer to those who wait for it. -/
  answers : List (Mover × Except String SimArtifact) := []
  failedCalls : Nat := 0
  /-- How many methods were looked at so far, and what was seen. -/
  looked : Nat := 0
  tiers : TierCounts := {}
  /-- How many counters were loaded so far, and what they showed. -/
  loaded : Nat := 0
  snapshot : Metrics := {}

/-- The engine runs what a call found: the artifact, or else the method itself. -/
def SimulatedEngine.run (engine : SimulatedEngine) (m : MethodId) :
    Option (CompiledMethod SimArtifact) → UInt64
  | some compiled => engine.execute compiled.artifact
  | none => engine.interpret m

namespace ThreadedWorkload

/-- A workload before the first step. Each thread has its own picks. -/
def start (options : Options) (dispatcher : Dispatcher SimArtifact)
    (picks : List (List MethodId)) : ThreadedWorkload where
  options
  system := .start dispatcher options.threads.toNat
  compiler := .start options.compileDelayMs.toNat options.failEvery
  picks

/-! ## What the threads share beside the dispatcher -/

/-- The compiler is called. The attempt is numbered, and that settles the answer. -/
def ask (w : ThreadedWorkload) (mover : Mover) (request : Request) : ThreadedWorkload :=
  let (answer, compiler) := w.compiler.compile request
  { w with compiler, answers := (mover, answer) :: w.answers }

/-- The answer that somebody waits for. -/
def answer? (w : ThreadedWorkload) (mover : Mover) : Option (Except String SimArtifact) :=
  (w.answers.find? (·.1 = mover)).map (·.2)

/-- An answer reaches the one who waits for it. -/
def hear (w : ThreadedWorkload) (mover : Mover) : ThreadedWorkload :=
  { w with answers := w.answers.eraseP (·.1 = mover) }

/-- A caller is back from a call, and counts it if it failed. -/
def note (w : ThreadedWorkload) : CallResult UInt64 → ThreadedWorkload
  | .failed _ => { w with failedCalls := w.failedCalls + 1 }
  | .output _ | .panicked _ => w

/-- A step of the dispatcher, its callers and its workers. -/
def go (w : ThreadedWorkload) (label : Label SimArtifact UInt64) : Option ThreadedWorkload := do
  let system ← w.system.step label
  some { w with system }

/-! ## Steps -/

/-- The next step of a caller thread: it goes on with its call, or makes the next one. -/
def stepThread (w : ThreadedWorkload) (i : Nat) : Option ThreadedWorkload := do
  match ← w.system.callers[i]? with
  | [] =>
    match ← w.picks[i]? with
    | [] => none
    | m :: rest => go { w with picks := w.picks.set i rest } (.caller i (.invoke m false))
  | c :: _ =>
    match c.turn with
    | .dispatcher => w.go (.caller i .advance)
    | .compiler job =>
      if job.isCompiling then do
        let answer ← w.answer? (.thread i)
        (w.hear (.thread i)).go (.caller i (.endCompile (.ofExcept answer)))
      else
        (w.ask (.thread i) job.request).go (.caller i .beginCompile)
    | .engine found =>
      w.go (.caller i (.endRun (.value (SimulatedEngine.run ⟨w.options.work⟩ c.method found))))
    | .ended result => (w.note result).go (.caller i .leave)

/-- The next step of a worker: it goes on with its job, or takes a request. -/
def stepWorker (w : ThreadedWorkload) (i : Nat) : Option ThreadedWorkload := do
  match (← w.system.dispatcher.pool).jobOf? i with
  | none => w.go (.worker i .take)
  | some job =>
    match job.turn with
    | .dispatcher => w.go (.worker i .advance)
    | .compiler =>
      if job.isCompiling then do
        let answer ← w.answer? (.worker i)
        (w.hear (.worker i)).go (.worker i (.endCompile (.ofExcept answer)))
      else
        (w.ask (.worker i) job.request).go (.worker i .beginCompile)
    | .ended _ => w.go (.worker i .finish)

/-- Whether all caller threads are done. -/
def isDone (w : ThreadedWorkload) : Bool :=
  w.picks.all (·.isEmpty) && w.system.callers.all (·.isEmpty)

/-- The main thread looks at the next method. -/
def look (w : ThreadedWorkload) : ThreadedWorkload :=
  { w with
    looked := w.looked + 1
    tiers := w.tiers.count (w.system.dispatcher.methodTier ⟨UInt64.ofNat w.looked⟩) }

/-- The main thread loads the next counter. -/
def load (w : ThreadedWorkload) : Option ThreadedWorkload := do
  let (name, value) ← w.system.dispatcher.metrics.toList[w.loaded]?
  some { w with loaded := w.loaded + 1, snapshot := w.snapshot.set name value }

/-- The next step of the main thread, once the callers are done. -/
def stepMain (w : ThreadedWorkload) : Option ThreadedWorkload :=
  if !w.isDone then none
  else if w.looked < w.options.methods.toNat then some w.look
  else w.load

/-- The next step of whoever's turn it is, if it is possible. -/
def step (w : ThreadedWorkload) : Mover → Option ThreadedWorkload
  | .thread i => w.stepThread i
  | .worker i => w.stepWorker i
  | .main => w.stepMain

/-- Carries out a schedule. -/
def run : ThreadedWorkload → List Mover → Option ThreadedWorkload
  | w, [] => some w
  | w, mover :: schedule => (w.step mover).bind (·.run schedule)

/-! ## The report -/

/-- Whether everything that is reported was collected. -/
def isReported (w : ThreadedWorkload) : Bool :=
  w.loaded = w.snapshot.toList.length

/-- The report on a workload. The elapsed time is left to the one who measures it. -/
def report (w : ThreadedWorkload) : WorkloadReport where
  config := w.options.tierConfig
  threads := w.options.threads.toNat
  totalCalls := w.options.threads.toNat * w.options.callsPerThread.toNat
  failedCalls := w.failedCalls
  elapsedMs := 0
  metrics := w.snapshot
  tiers := w.tiers

end ThreadedWorkload

end TieredDispatch

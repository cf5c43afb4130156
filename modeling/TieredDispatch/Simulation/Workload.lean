import TieredDispatch.CommandLine.Options
import TieredDispatch.Simulation.Collaborators
import TieredDispatch.Simulation.Random
import TieredDispatch.Simulation.Report

/-!
# Workloads

A workload drives a dispatcher with simulated collaborators: every caller thread invokes methods of
its own choice, and failed calls are counted and survived. Callers take their turns call by call,
and background compilations run as soon as they are queued.
-/

namespace TieredDispatch

/-! ## Reasons not to run -/

/-- Why a workload does not run. -/
inductive WorkloadError
  | noThreads
  | noMethods
  | tooManyCalls
  | invalidConfig (error : ConfigError)
deriving DecidableEq, Repr

namespace WorkloadError

/-- The text shown to the user. -/
def message : WorkloadError → String
  | noThreads => "--threads must be positive"
  | noMethods => "--methods must be positive"
  | tooManyCalls => "--threads times --calls-per-thread overflows u64"
  | invalidConfig _ => "invalid tiering configuration"

/-- The text shown to the user and the texts of its causes, outermost first. -/
def chain : WorkloadError → List String
  | invalidConfig error => [(invalidConfig error).message, error.message]
  | error => [error.message]

end WorkloadError

/-! ## Events of a run -/

/-- An event of the program. -/
inductive ProgramEvent
  | dispatch (event : Event)
  | starting (options : Options)
  | callFailed (error : DispatchError)
  | finished (elapsedMs pending : Nat)
  | done
deriving Repr

namespace ProgramEvent

/-- Failed compilations are expected; other failures deserve attention. -/
def level : ProgramEvent → LogLevel
  | dispatch event => event.level
  | callFailed (.compilationFailed _ _ _) => .debug
  | callFailed _ => .warn
  | starting _ | finished _ _ | done => .info

/-- The part of the program that an event comes from. -/
def target : ProgramEvent → String
  | dispatch (.requestPanicked _ _) => "tierjit::compiler_thread"
  | dispatch _ => "tierjit::dispatch"
  | starting _ | callFailed _ | finished _ _ => "tierjit::workload"
  | done => "tierjit"

def message : ProgramEvent → String
  | dispatch event => event.message
  | starting _ => "starting workload"
  | callFailed _ => "call failed"
  | finished _ _ => "workload finished"
  | done => "done"

/-- The named fields of an event. -/
def fields : ProgramEvent → List (String × String)
  | dispatch event => event.fields
  | starting options => [
      ("threads", toString options.threads), ("methods", toString options.methods),
      ("calls_per_thread", toString options.callsPerThread),
      ("mode", describe options.tierConfig.mode)]
  | callFailed error => [("err", error.message)]
  | finished elapsedMs pending => [
      ("elapsed_ms", toString elapsedMs), ("pending", toString pending)]
  | done => []

end ProgramEvent

/-! ## Running -/

/-- A session with the simulated collaborators. -/
abbrev SimSession := Session SimulatedCompiler SimArtifact

/-- A workload on its way. -/
structure Workload where
  session : SimSession
  failedCalls : Nat := 0
  /-- The events so far, newest first. -/
  log : List ProgramEvent := []

namespace Workload

/-- Moves the events of the dispatcher to the log of the workload. -/
def collect (w : Workload) : Workload :=
  let (events, dispatcher) := w.session.dispatcher.takeLog
  { w with
    session := { w.session with dispatcher }
    log := (events.map .dispatch).reverse ++ w.log }

/-- Invokes a method, and lets the compilations that it queued run to their end. -/
def call (co : Collaborators SimulatedCompiler SimArtifact UInt64) (w : Workload)
    (m : MethodId) : Workload :=
  let (result, session) := w.session.call co 0 m
  let w := { w with session }.collect
  let w := match result with
    | .failed error =>
      { w with failedCalls := w.failedCalls + 1, log := .callFailed error :: w.log }
    | _ => w
  { w with session := (w.session.drainAll co 0).2 }.collect

/-- The methods one caller thread invokes. -/
def picksOf (options : Options) (thread : Nat) : List MethodId :=
  RandomSource.picks ⟨options.seed + UInt64.ofNat thread⟩ options.methods
    options.callsPerThread.toNat

/-- How many of the first `methods` methods are in each state. -/
def tierCounts (dispatcher : Dispatcher SimArtifact) (methods : UInt64) : TierCounts :=
  methods.toNat.fold (fun n _ counts => counts.count (dispatcher.methodTier ⟨UInt64.ofNat n⟩)) {}

/-- Invokes all methods picked, thread by thread. -/
def callAll (options : Options) (w : Workload) : Workload :=
  let co := simulatedCollaborators ⟨options.work⟩
  options.threads.toNat.fold (fun thread _ w => (picksOf options thread).foldl (call co) w) w

end Workload

/-- What a workload did. -/
structure WorkloadResult where
  report : WorkloadReport
  /-- The events up to the last call. -/
  log : List ProgramEvent
  /-- Compilations queued but not finished. -/
  pending : Nat
  /-- Milliseconds spent compiling. -/
  compileMs : Nat

/-- The dispatcher a workload starts with, unless its size or its configuration is refused. -/
def startWorkload (options : Options) : Except WorkloadError (Dispatcher SimArtifact) :=
  if options.threads = 0 then .error .noThreads
  else if options.methods = 0 then .error .noMethods
  else if UInt64.size ≤ options.threads.toNat * options.callsPerThread.toNat then
    .error .tooManyCalls
  else (Dispatcher.start options.tierConfig).mapError .invalidConfig

/-- A workload before its first call. -/
def Workload.start (options : Options) (dispatcher : Dispatcher SimArtifact) : Workload :=
  let host := SimulatedCompiler.start options.compileDelayMs.toNat options.failEvery
  let w := collect { session := { dispatcher, host } }
  { w with log := .starting options :: w.log }

/-- The report on a workload after its last call. The elapsed time is left to the one who measures
it. -/
def Workload.report (options : Options) (w : Workload) : WorkloadReport where
  config := options.tierConfig
  threads := options.threads.toNat
  totalCalls := options.threads.toNat * options.callsPerThread.toNat
  failedCalls := w.failedCalls
  elapsedMs := 0
  metrics := w.session.dispatcher.metrics
  tiers := tierCounts w.session.dispatcher options.methods

/-- Runs the workload that the options describe. -/
def runWorkload (options : Options) : Except WorkloadError WorkloadResult :=
  (startWorkload options).map fun dispatcher =>
    let w := (Workload.start options dispatcher).callAll options
    { report := w.report options
      log := w.log.reverse
      pending := w.session.dispatcher.pendingCompilations
      compileMs := w.session.host.spent }

end TieredDispatch

import TieredDispatch.Script.Caching
import TieredDispatch.Script.Counting
import TieredDispatch.Script.Host

/-!
# Scripts for a dispatcher

Steps on a session with a scripted host. Background compilations wait until a step lets them go on:
`finish` for one of them, `drop` for all. After every step each free worker takes a waiting request,
so the requests in flight are always the oldest ones. After `drop` there is no dispatcher any more,
and steps only say so.
-/

namespace TieredDispatch

/-- A session with a scripted host. -/
abbrev ScriptSession := Session ScriptHost ScriptArtifact

/-- A step that makes calls or lets a compilation go on. -/
inductive CallStep
  | call (m : MethodId)
  /-- Calls one method `n` times. -/
  | repeated (m : MethodId) (n : Nat)
  | sequence (ms : List MethodId)
  /-- Some threads call one method `n` times each. -/
  | threads (m : MethodId) (callers n : Nat)
  | finish (request : Request)

/-- What such a step answers. -/
inductive CallAnswer
  | result (result : CallResult String)
  /-- Runs of equal results. -/
  | runs (runs : List (CallResult String × Nat))
  | results (results : List (CallResult String))
  | invocations (n : UInt64)
  | tier (tier : MethodTier)
  | notInFlight
  /-- There is no dispatcher any more. -/
  | gone

/-- What is seen during such a step. -/
structure CallReport where
  answer : CallAnswer
  /-- What the host did, for a single call only. -/
  events : Option (List HostEvent) := none
  /-- The requests taken by workers, in background mode only. -/
  started : Option (List Request) := none
  log : List Event := []

/-- A step on a dispatcher. -/
inductive DispatchStep
  | work (step : CallStep)
  | cache (step : CacheStep ScriptArtifact)
  /-- Counts `n` invocations without making a call. -/
  | count (m : MethodId) (n : Nat)
  | state (m : MethodId)
  | lookup (m : MethodId)
  | counted
  | pending
  | metrics
  | setMetric (name : String) (value : UInt64)
  | config
  | policy
  | describe
  | drop

/-- What is known of a method. -/
structure MethodReport where
  count : UInt64
  tier : MethodTier
  cache : TierState
  l1Attempts : Nat
  l2Attempts : Nat

/-- What a step on a dispatcher answers. -/
inductive DispatchAnswer
  | work (report : CallReport)
  | cache (answer : CacheAnswer)
  | count (n : Option UInt64)
  | method (report : MethodReport)
  | found (compiled : Option (CompiledMethod ScriptArtifact))
  | size (n : Nat)
  | metrics (m : Metrics)
  | config (c : TierConfig)
  | text (s : String)
  /-- The compilations that ran, each with its number. -/
  | dropped (ran : List (Request × Nat))
  /-- There is no dispatcher any more. -/
  | gone

/-! ## Orders and runs -/

/-- Requests by method, and then by tier. -/
def Request.le (a b : Request) : Bool :=
  a.method.val < b.method.val || a.method == b.method && a.tier ≤ b.tier

/-- Runs of equal elements, each with its length. -/
def runLengths {γ : Type} [DecidableEq γ] : List γ → List (γ × Nat)
  | [] => []
  | a :: rest =>
    match runLengths rest with
    | (b, n) :: runs => if a = b then (b, n + 1) :: runs else (a, 1) :: (b, n) :: runs
    | [] => [(a, 1)]

/-! ## Steps that make calls -/

namespace CallStep

/-- Carries out a step and gives back its answer, before any worker takes a request. -/
def run (script : Script) (s : ScriptSession) : CallStep → CallAnswer × ScriptSession
  | call m =>
    let (result, s) := s.call script.collaborators script.depth m
    (.result result, s)
  | repeated m n =>
    let (results, s) := s.calls script.collaborators script.depth (List.replicate n m)
    (.runs (runLengths results), s)
  | sequence ms =>
    let (results, s) := s.calls script.collaborators script.depth ms
    (.results results, s)
  | threads m callers n =>
    let before := s.dispatcher.metrics.invocations
    let (_, s) := s.calls script.collaborators script.depth (List.replicate (callers * n) m)
    let after := s.dispatcher.metrics.invocations
    (.invocations (after - before), { s with dispatcher := s.dispatcher.takeLog.2 })
  | finish request =>
    match s.finish script.collaborators script.depth request with
    | some s => (.tier (s.dispatcher.methodTier request.method), s)
    | none => (.notInFlight, s)

/-- Whether a step reports what the host did. -/
def showsEvents : CallStep → Bool
  | call _ => true
  | _ => false

/-- Carries out a step on a session whose log and events are empty, and then feeds the workers. -/
def report (script : Script) (s : ScriptSession) (step : CallStep) : CallReport × ScriptSession :=
  let (answer, s) := step.run script s
  let (taken, s) := s.feed
  ({ answer
     events := if step.showsEvents then some s.host.events else none
     started := if script.synchronous then none else some (taken.mergeSort Request.le)
     log := s.dispatcher.events }, s)

/-- The report of a step once the dispatcher is gone. -/
def reportGone (script : Script) (step : CallStep) : CallReport where
  answer := .gone
  events := if step.showsEvents then some [] else none
  started := if script.synchronous then none else some []

end CallStep

/-! ## Steps on a dispatcher -/

namespace DispatchStep

/-- What a method's count, tier, requests and attempts are. -/
def reportOn (s : ScriptSession) (m : MethodId) : MethodReport where
  count := s.dispatcher.counter.get m
  tier := s.dispatcher.methodTier m
  cache := s.dispatcher.cache.tierState m
  l1Attempts := s.host.attemptsOf ⟨m, .l1⟩
  l2Attempts := s.host.attemptsOf ⟨m, .l2⟩

/-- A session with no events in the log or of the host. -/
def clear (s : ScriptSession) : ScriptSession where
  dispatcher := s.dispatcher.takeLog.2
  host := s.host.clear

/-- Carries out a step; only `drop` leaves no session. -/
def run (script : Script) (s : ScriptSession) (step : DispatchStep) :
    DispatchAnswer × Option ScriptSession :=
  match step with
  | work step =>
    let (report, s) := step.report script (clear s)
    (.work report, some s)
  | cache step =>
    let (answer, after) := step.run s.dispatcher.cache
    (.cache answer, some { s with dispatcher := { s.dispatcher with cache := after } })
  | count m n =>
    let (counts, counter) := s.dispatcher.counter.incrementTimes m n
    (.count counts.getLast?, some { s with dispatcher := { s.dispatcher with counter } })
  | state m => (.method (reportOn s m), some s)
  | lookup m => (.found (s.dispatcher.cache.lookup m), some s)
  | counted => (.size s.dispatcher.counter.size, some s)
  | pending => (.size s.dispatcher.pendingCompilations, some s)
  | metrics => (.metrics s.dispatcher.metrics, some s)
  | setMetric name value =>
    let after := s.dispatcher.metrics.set name value
    (.metrics after, some { s with dispatcher := { s.dispatcher with metrics := after } })
  | config => (.config s.dispatcher.config, some s)
  | policy => (.text (TieredDispatch.describe s.dispatcher.policy), some s)
  | describe => (.text (TieredDispatch.describe s.dispatcher), some s)
  | drop =>
    let (ran, _) := s.shutDown script.collaborators script.depth
    (.dropped (runLengths (ran.mergeSort Request.le)), none)

/-- What a step answers once the dispatcher is gone. -/
def runGone (script : Script) : DispatchStep → DispatchAnswer
  | work step => .work (step.reportGone script)
  | _ => .gone

/-- Carries out steps one after the other. -/
def runAll (script : Script) : Option ScriptSession → List DispatchStep → List DispatchAnswer
  | _, [] => []
  | some s, step :: steps =>
    let (answer, s) := step.run script s
    answer :: runAll script s steps
  | none, step :: steps => step.runGone script :: runAll script none steps

end DispatchStep

/-! ## Runs -/

/-- What is seen of a dispatcher from its start on. -/
structure DispatchRun where
  /-- The events of the start. -/
  log : List Event
  answers : List DispatchAnswer

/-- Starts a dispatcher with a scripted host and carries out steps on it. -/
def DispatchRun.of (config : TierConfig) (script : Script) (steps : List DispatchStep) :
    Except ConfigError DispatchRun := do
  let dispatcher ← Dispatcher.start config
  let script := { script with synchronous := config.mode = .synchronous }
  let session : ScriptSession := { dispatcher, host := .start script }
  pure { log := dispatcher.events, answers := DispatchStep.runAll script (some session) steps }

end TieredDispatch

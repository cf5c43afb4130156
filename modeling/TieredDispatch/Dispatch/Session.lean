import TieredDispatch.Dispatch.Call

/-!
# Sessions

A session is a dispatcher together with the host that compiles and runs methods for it. The host is
given by its **collaborators**: what the compiler and the engine do when called, and which calls
they make themselves before they answer. A panic of such a nested call ends the work it was made
for, and so passes through every call around it.

`Session.call` carries one call to its end and `Session.finish` one background compilation; both
only ever take the steps of `Call` and `CompileJob`.
-/

namespace TieredDispatch

variable {σ α β γ : Type}

/-! ## Collaborators -/

/-- One piece of work of a collaborator: the host's state when it starts, the methods it calls, and
how it ends. -/
structure Activity (σ γ : Type) where
  state : σ
  nested : List MethodId := []
  conclude : σ → Outcome γ × σ

/-- The host's compiler and engine, over host states of type `σ`, artifacts of type `α` and outputs
of type `β`. -/
structure Collaborators (σ α β : Type) where
  compile : σ → Request → Activity σ α
  execute : σ → α → Activity σ β
  interpret : σ → MethodId → Activity σ β
  /-- A call made by a collaborator returned. -/
  onNested : σ → MethodId → CallResult β → σ := fun state _ _ => state

/-- The engine's work for what a call found: run the artifact, or interpret the method. -/
def Collaborators.run (co : Collaborators σ α β) (state : σ) (m : MethodId)
    (found : Option (CompiledMethod α)) : Activity σ β :=
  match found with
  | some compiled => co.execute state compiled.artifact
  | none => co.interpret state m

/-- A dispatcher and the state of its host. -/
structure Session (σ α : Type) where
  dispatcher : Dispatcher α
  host : σ

/-- How a collaborator makes a call of its own. -/
abbrev Caller (σ α β : Type) :=
  Session σ α → MethodId → CallResult β × Session σ α

namespace Session

/-! ## The host at work -/

/-- Makes calls one after the other until one panics, and gives back that panic. -/
def nestedCalls (co : Collaborators σ α β) (caller : Caller σ α β) :
    Session σ α → List MethodId → Option PanicPayload × Session σ α
  | s, [] => (none, s)
  | s, m :: rest =>
    match caller s m with
    | (.panicked payload, s) => (some payload, s)
    | (result, s) => nestedCalls co caller { s with host := co.onNested s.host m result } rest

/-- Carries out a piece of work. Without a caller the host makes no calls. -/
def perform (co : Collaborators σ α β) (caller : Option (Caller σ α β)) (s : Session σ α)
    (activity : Activity σ γ) : Outcome γ × Session σ α :=
  let s := { s with host := activity.state }
  let (panic, s) := match caller with
    | some caller => nestedCalls co caller s activity.nested
    | none => (none, s)
  match panic with
  | some payload => (.panic payload, s)
  | none =>
    let (outcome, host) := activity.conclude s.host
    (outcome, { s with host })

/-! ## Calls -/

/-- Carries a call to its end: the dispatcher's steps are taken one by one, and the host is asked
when it is its turn. -/
def drive (co : Collaborators σ α β) (caller : Option (Caller σ α β)) (s : Session σ α)
    (c : Call α β) : CallResult β × Session σ α :=
  match _hturn : c.turn with
  | .ended result => (result, s)
  | .dispatcher =>
    let next := c.advance s.dispatcher
    drive co caller { s with dispatcher := next.2 } next.1
  | .compiler job =>
    let (outcome, s) := perform co caller s (co.compile s.host job.request)
    drive co caller s (c.beginCompile.concludeCompile outcome)
  | .engine found =>
    let (outcome, s) := perform co caller s (co.run s.host c.method found)
    (Call.runResult c.method found outcome, s)
termination_by c.rank
decreasing_by
  · exact Call.rank_advance_lt c s.dispatcher _hturn
  · exact Call.rank_compile_lt c job _ _hturn

/-- A call by a host that may nest its own calls up to the given depth. -/
def callWithin (co : Collaborators σ α β) : Nat → Caller σ α β
  | 0, s, m => drive co none s (.arrive m false)
  | depth + 1, s, m => drive co (some (callWithin co depth)) s (.arrive m false)

/-- Invokes a method. -/
def call (co : Collaborators σ α β) (depth : Nat) (s : Session σ α) (m : MethodId) :
    CallResult β × Session σ α :=
  callWithin co depth s m

/-- Invokes methods one after the other, whatever becomes of each call. -/
def calls (co : Collaborators σ α β) (depth : Nat) :
    Session σ α → List MethodId → List (CallResult β) × Session σ α
  | s, [] => ([], s)
  | s, m :: rest =>
    let (result, s) := call co depth s m
    let (results, s) := calls co depth s rest
    (result :: results, s)

/-! ## Background compilation -/

/-- Carries a compile job to its end, and gives back why there is no artifact, if there is none. -/
def driveJob (co : Collaborators σ α β) (caller : Option (Caller σ α β)) (s : Session σ α)
    (job : CompileJob α) : Option CompileFailure × Session σ α :=
  match _hturn : job.turn with
  | .ended failure => (failure, s)
  | .dispatcher =>
    let next := job.advance false s.dispatcher
    driveJob co caller { s with dispatcher := next.2 } next.1
  | .compiler =>
    let (outcome, s) := perform co caller s (co.compile s.host job.request)
    driveJob co caller s (job.begin.conclude outcome)
termination_by job.stage.rank
decreasing_by
  · exact CompileJob.rank_advance_lt job false s.dispatcher _hturn
  · exact CompileJob.rank_conclude_lt job _ _hturn

/-- Lets the compilation of one worker run to its end. -/
def finishWorker (co : Collaborators σ α β) (depth : Nat) (s : Session σ α) (worker : Nat)
    (job : CompileJob α) : Session σ α :=
  let (failure, s) := driveJob co (some (callWithin co depth)) s job
  { s with dispatcher := s.dispatcher.finishJob worker job.request failure }

/-- Lets the compilation in flight for a request run to its end, if there is one. -/
def finish (co : Collaborators σ α β) (depth : Nat) (s : Session σ α) (request : Request) :
    Option (Session σ α) := do
  let pool ← s.dispatcher.pool
  let (worker, job) ← pool.findBusy? fun job => job.request = request
  pure (finishWorker co depth s worker job)

/-- Lets every free worker take a waiting request. -/
def feed (s : Session σ α) : List Request × Session σ α :=
  let (taken, dispatcher) := s.dispatcher.feedWorkers
  (taken, { s with dispatcher })

/-- Runs up to `n` background compilations, oldest worker first, and gives back what was run. -/
def drain (co : Collaborators σ α β) (depth : Nat) :
    Nat → Session σ α → List Request × Session σ α
  | 0, s => ([], s)
  | n + 1, s =>
    let (_, s) := s.feed
    match s.dispatcher.pool.bind (·.findBusy? fun _ => true) with
    | none => ([], s)
    | some (worker, job) =>
      let (ran, s) := drain co depth n (finishWorker co depth s worker job)
      (job.request :: ran, s)

/-- Requests that are queued or in flight. -/
def outstanding (s : Session σ α) : Nat :=
  match s.dispatcher.pool with
  | none => 0
  | some pool => pool.queue.length + pool.workers.countP (·.job?.isSome)

/-- Runs everything that is queued or in flight. -/
def drainAll (co : Collaborators σ α β) (depth : Nat) (s : Session σ α) :
    List Request × Session σ α :=
  drain co depth s.outstanding s

/-- Closes the pool and joins its workers, which first run everything queued and in flight. -/
def shutDown (co : Collaborators σ α β) (depth : Nat) (s : Session σ α) :
    List Request × Session σ α :=
  let s := { s with dispatcher.pool := s.dispatcher.pool.map (·.close) }
  drainAll co depth s

end Session

end TieredDispatch

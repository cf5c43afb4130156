import TieredDispatch.Dispatch.Dispatcher

/-!
# Dispatched calls

One invocation of a method, step by step. A call counts the invocation, reads the requested tiers
and the published artifact, decides, claims the compilation if it wants one, compiles inline or
hands the request to the pool, and finally runs the artifact or the interpreter.

`Call.advance` is the next atomic step; `Call.turn` tells whether the dispatcher, the compiler or
the engine moves next. Every move brings a call closer to its end (`rank_advance_lt`,
`rank_compile_lt`).
-/

namespace TieredDispatch

/-- Where a call is. Each stage names the step that comes next. -/
inductive CallStage (α β : Type)
  /-- Next the counter is probed for the method. -/
  | arriving
  /-- The method has no count; next one is entered. -/
  | unseen
  /-- The method has a count; next the invocation is counted. -/
  | seen
  /-- Next the requested tiers are read. -/
  | counted (count : UInt64)
  /-- Next the published tier is read, if the method had an entry, and the call decides. -/
  | inspecting (count : UInt64) (requested : Option RequestSet)
  /-- Next the compilation is claimed. -/
  | claiming (tier : Tier) (count : UInt64)
  /-- Another caller holds the request; next that is counted. -/
  | denied (tier : Tier) (count : UInt64)
  /-- The request was granted; next it is compiled inline or handed to the pool. -/
  | promoting (tier : Tier) (count : UInt64)
  /-- The pool has the request; next that is counted. -/
  | queued
  /-- The call compiles inline. -/
  | compiling (job : CompileJob α)
  /-- Next the artifact is looked up. -/
  | selecting
  /-- Next the execution or interpretation is counted. -/
  | entering (found : Option (CompiledMethod α))
  /-- The engine is at work. -/
  | running (found : Option (CompiledMethod α))
  | returned (result : CallResult β)
deriving DecidableEq

/-- One invocation of a method. -/
structure Call (α β : Type) where
  method : MethodId
  /-- Whether the calling thread is unwinding from a panic during the whole call. -/
  unwinding : Bool := false
  stage : CallStage α β := .arriving
deriving DecidableEq

/-- Who moves next in a call. -/
inductive Turn (α β : Type)
  | dispatcher
  | compiler (job : CompileJob α)
  | engine (found : Option (CompiledMethod α))
  | ended (result : CallResult β)

namespace Call

variable {α β : Type}

/-- A call that has just been made. -/
def arrive (m : MethodId) (unwinding : Bool) : Call α β :=
  { method := m, unwinding }

/-- Who moves next. -/
def turn (c : Call α β) : Turn α β :=
  match c.stage with
  | .compiling job => if job.turn = .compiler then .compiler job else .dispatcher
  | .running found => .engine found
  | .returned result => .ended result
  | _ => .dispatcher

/-- Whether the host is at work on behalf of the call, so that it may make calls of its own. -/
def isWithHost (c : Call α β) : Bool :=
  match c.stage with
  | .compiling job => job.isCompiling
  | .running _ => true
  | _ => false

/-- What a finished job means for its call: an artifact is looked up, an error is reported, and a
panic passes through. -/
def afterJob (c : Call α β) (request : Request) (failure : Option CompileFailure) : Call α β :=
  match failure with
  | none => { c with stage := .selecting }
  | some (.error reason) =>
    { c with stage := .returned (.failed (.compilationFailed request.method request.tier reason)) }
  | some (.panic payload) => { c with stage := .returned (.panicked payload) }

/-- The next atomic step of a call, if it is the dispatcher's turn. -/
def advance (c : Call α β) (d : Dispatcher α) : Call α β × Dispatcher α :=
  let m := c.method
  match c.stage with
  | .arriving =>
    if d.counter.probe m then ({ c with stage := .seen }, d) else ({ c with stage := .unseen }, d)
  | .unseen =>
    ({ c with stage := .seen }, { d with counter := d.counter.enter m })
  | .seen =>
    let (count, counter) := d.counter.add m
    ({ c with stage := .counted count }, { d with counter })
  | .counted count =>
    ({ c with stage := .inspecting count (d.cache.requested? m) }, d)
  | .inspecting count requested =>
    let state := TierState.ofEntry requested (d.cache.tierOf m)
    match (d.policy.decide count state.l1Requested state.l2Requested).tier with
    | some tier => ({ c with stage := .claiming tier count }, d)
    | none => ({ c with stage := .selecting }, d)
  | .claiming tier count =>
    let (granted, cache) := d.cache.request m tier
    if granted then
      ({ c with stage := .promoting tier count }, { d with cache })
    else
      ({ c with stage := .denied tier count }, { d with cache })
  | .denied tier count =>
    ({ c with stage := .selecting },
      { d with metrics := d.metrics.countDenial }.report (.alreadyRequested ⟨m, tier⟩ count))
  | .promoting tier count =>
    let request : Request := ⟨m, tier⟩
    let d := d.report (.promoting request count)
    match d.pool with
    | none => ({ c with stage := .compiling (.hold request) }, d)
    | some pool =>
      match pool.send request with
      | some pool => ({ c with stage := .queued }, { d with pool := some pool })
      | none =>
        ({ c with stage := .compiling (.hold request) }, d.report (.poolUnavailable request))
  | .queued =>
    ({ c with stage := .selecting }, { d with metrics := d.metrics.countQueued })
  | .compiling job =>
    match job.turn with
    | .ended failure => (c.afterJob job.request failure, d)
    | _ =>
      let (job, d) := job.advance c.unwinding d
      ({ c with stage := .compiling job }, d)
  | .selecting =>
    ({ c with stage := .entering (d.cache.lookup m) }, d)
  | .entering found =>
    let metrics := if found.isSome then d.metrics.countExecution else d.metrics.countInterpretation
    ({ c with stage := .running found }, { d with metrics })
  | .running _ | .returned _ => (c, d)

/-- The compiler is called on behalf of the call. -/
def beginCompile (c : Call α β) : Call α β :=
  match c.stage with
  | .compiling job => { c with stage := .compiling job.begin }
  | _ => c

/-- The compiler's work for the call ended. -/
def concludeCompile (c : Call α β) (outcome : Outcome α) : Call α β :=
  match c.stage with
  | .compiling job => { c with stage := .compiling (job.conclude outcome) }
  | _ => c

/-- What an outcome of the engine means for the caller. -/
def runResult (m : MethodId) (found : Option (CompiledMethod α)) : Outcome β → CallResult β
  | .value v => .output v
  | .error reason =>
    if found.isSome then .failed (.executionFailed m reason)
    else .failed (.interpretationFailed m reason)
  | .panic payload => .panicked payload

/-- The engine's work for the call ended. -/
def concludeRun (c : Call α β) (outcome : Outcome β) : Call α β :=
  match c.stage with
  | .running found => { c with stage := .returned (runResult c.method found outcome) }
  | _ => c

/-! ## Calls come to an end -/

/-- Moves that are still to come, at most. -/
def rank (c : Call α β) : Nat :=
  match c.stage with
  | .arriving => 17
  | .unseen => 16
  | .seen => 15
  | .counted _ => 14
  | .inspecting _ _ => 13
  | .claiming _ _ => 12
  | .promoting _ _ => 11
  | .compiling job => 4 + job.stage.rank
  | .denied _ _ | .queued => 4
  | .selecting => 3
  | .entering _ => 2
  | .running _ => 1
  | .returned _ => 0

/-- A step of the dispatcher brings the call closer to its end. -/
theorem rank_advance_lt (c : Call α β) (d : Dispatcher α) (h : c.turn = .dispatcher) :
    (c.advance d).1.rank < c.rank := by
  obtain ⟨m, unwinding, stage⟩ := c
  cases stage with
  | unseen | seen | counted _ | denied _ _ | queued | selecting | entering _ => simp [advance, rank]
  | arriving =>
    simp only [advance]
    split <;> simp [rank]
  | inspecting count requested =>
    simp only [advance]
    split <;> simp [rank]
  | claiming tier count =>
    simp only [advance]
    split <;> simp [rank]
  | promoting tier count =>
    simp only [advance]
    split
    · simp [rank, CompileJob.hold, CompileStage.rank]
    · split <;> simp [rank, CompileJob.hold, CompileStage.rank]
  | compiling job =>
    cases hjob : job.turn with
    | compiler => simp [turn, hjob] at h
    | ended failure =>
      simp only [advance, hjob]
      cases failure with
      | none =>
        simp only [afterJob, rank]
        omega
      | some cause => cases cause <;> simp only [afterJob, rank] <;> omega
    | dispatcher =>
      have hlt := job.rank_advance_lt unwinding d hjob
      simp only [advance, hjob, rank]
      omega
  | running _ | returned _ => simp [turn] at h

/-- The compiler's work brings the call closer to its end. -/
theorem rank_compile_lt (c : Call α β) (job : CompileJob α) (outcome : Outcome α)
    (h : c.turn = .compiler job) :
    (c.beginCompile.concludeCompile outcome).rank < c.rank := by
  obtain ⟨m, unwinding, stage⟩ := c
  cases stage with
  | compiling held =>
    by_cases hheld : held.turn = .compiler
    · have hlt := held.rank_conclude_lt outcome hheld
      simp only [beginCompile, concludeCompile, rank]
      omega
    · simp [turn, hheld] at h
  | _ => simp [turn] at h

end Call

end TieredDispatch

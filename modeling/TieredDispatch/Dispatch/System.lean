import TieredDispatch.Dispatch.Call

/-!
# Systems of callers and workers

A system is a dispatcher with any number of callers and the workers of its pool. Each **caller** is
a stack of calls, the innermost first: while the host is at work on behalf of a call it may make
another one on top of it. Compilations on a worker make their calls as callers of their own.

`System.step` is one atomic step of one caller or one worker, or one operation of the host directly
on the cache; a label says which. The host's choices are the labels: when it calls, what its
compiler and engine answer, whether the destructor of a panic's payload panics, and in which order
everybody moves. Every interleaving is a list of labels, and `System.run` carries it out.
-/

namespace TieredDispatch

/-! ## States -/

/-- A dispatcher, its callers, and through the pool its workers. -/
structure System (α β : Type) where
  dispatcher : Dispatcher α
  /-- The calls of each caller, the innermost first. -/
  callers : List (List (Call α β))

/-- An operation of the host on the cache. -/
inductive CacheOperation (α : Type)
  | request (m : MethodId) (tier : Tier)
  | release (m : MethodId) (tier : Tier)
  | recordRequest (m : MethodId) (tier : Tier)
  | place (m : MethodId) (compiled : CompiledMethod α)

/-- What a caller does. -/
inductive CallerMove (α β : Type)
  /-- The host invokes a method, perhaps on a thread that is unwinding. -/
  | invoke (m : MethodId) (unwinding : Bool)
  /-- The dispatcher takes the next step of the innermost call. -/
  | advance
  | beginCompile
  | endCompile (outcome : Outcome α)
  | endRun (outcome : Outcome β)
  /-- The innermost call, which has returned, is left. -/
  | leave

/-- What a worker does. -/
inductive WorkerMove (α : Type)
  | take
  | beginCompile
  | endCompile (outcome : Outcome α)
  /-- The dispatcher takes the next step of the job. -/
  | advance
  /-- The worker is done with its job. -/
  | finish
  | stop

/-- One step of a system. -/
inductive Label (α β : Type)
  | caller (i : Nat) (move : CallerMove α β)
  | worker (i : Nat) (move : WorkerMove α)
  /-- The host works on the cache directly. -/
  | direct (operation : CacheOperation α)
  /-- The host gives the dispatcher up: nothing more is sent to the pool. -/
  | close
  /-- A worker is done with a job that ended in a panic, drops the payload, and the payload's
  destructor panics. -/
  | lose (i : Nat) (payload : PanicPayload)

variable {α β : Type}

/-! ## Steps on the cache -/

/-- Carries out an operation on a cache. -/
def CacheOperation.apply (cache : CompilationCache α) : CacheOperation α → CompilationCache α
  | request m tier => (cache.request m tier).2
  | release m tier => cache.release m tier
  | recordRequest m tier => cache.recordRequest m tier
  | place m compiled => (cache.place m compiled).2

/-! ## Steps of a caller -/

namespace CallerMove

/-- Whether the host may make a call on top of a stack of calls. -/
def mayInvoke : List (Call α β) → Bool
  | [] => true
  | c :: _ => c.isWithHost

/-- Carries out a move of the caller with the given calls, if it is possible. -/
def apply (d : Dispatcher α) (calls : List (Call α β)) (move : CallerMove α β) :
    Option (List (Call α β) × Dispatcher α) :=
  match move, calls with
  | invoke m unwinding, calls =>
    if mayInvoke calls then some (.arrive m unwinding :: calls, d) else none
  | advance, c :: outer =>
    match c.turn with
    | .dispatcher =>
      let (c, d) := c.advance d
      some (c :: outer, d)
    | _ => none
  | beginCompile, c :: outer =>
    match c.turn with
    | .compiler job => if job.isCompiling then none else some (c.beginCompile :: outer, d)
    | _ => none
  | endCompile outcome, c :: outer =>
    match c.turn with
    | .compiler job =>
      if job.isCompiling then some (c.concludeCompile outcome :: outer, d) else none
    | _ => none
  | endRun outcome, c :: outer =>
    match c.turn with
    | .engine _ => some (c.concludeRun outcome :: outer, d)
    | _ => none
  | leave, c :: outer =>
    match c.turn with
    | .ended _ => some (outer, d)
    | _ => none
  | _, [] => none

end CallerMove

/-! ## Steps of a worker -/

namespace WorkerMove

/-- Carries out a move of a worker that is busy with a job, if it is possible. -/
def applyBusy (d : Dispatcher α) (pool : Pool (CompileJob α)) (i : Nat) (job : CompileJob α)
    (move : WorkerMove α) : Option (Dispatcher α) :=
  match move, job.turn with
  | beginCompile, .compiler =>
    if job.isCompiling then none else some { d with pool := some (pool.setJob i job.begin) }
  | endCompile outcome, .compiler =>
    if job.isCompiling then some { d with pool := some (pool.setJob i (job.conclude outcome)) }
    else none
  | advance, .dispatcher =>
    let (job, d) := job.advance false d
    some { d with pool := d.pool.map (·.setJob i job) }
  | finish, .ended failure => some (d.finishJob i job.request failure)
  | _, _ => none

/-- Carries out a move of a worker, if it is possible. -/
def apply (d : Dispatcher α) (i : Nat) (move : WorkerMove α) : Option (Dispatcher α) := do
  let pool ← d.pool
  match move with
  | take =>
    let (_, pool) ← pool.take i .hold
    some { d with pool := some pool }
  | stop =>
    let pool ← pool.stop i
    some { d with pool := some pool }
  | move =>
    let job ← pool.jobOf? i
    move.applyBusy d pool i job

end WorkerMove

/-! ## Steps of a system -/

namespace System

/-- A dispatcher with callers that have made no call yet. -/
def start (dispatcher : Dispatcher α) (callers : Nat) : System α β :=
  ⟨dispatcher, List.replicate callers []⟩

/-- Carries out one step, if it is possible. -/
def step (s : System α β) : Label α β → Option (System α β)
  | .caller i move => do
    let calls ← s.callers[i]?
    let (calls, dispatcher) ← move.apply s.dispatcher calls
    some ⟨dispatcher, s.callers.set i calls⟩
  | .worker i move => do
    let dispatcher ← move.apply s.dispatcher i
    some { s with dispatcher }
  | .direct operation =>
    let d := s.dispatcher
    some { s with dispatcher := { d with cache := operation.apply d.cache } }
  | .close =>
    let d := s.dispatcher
    some { s with dispatcher := { d with pool := d.pool.map (·.close) } }
  | .lose i payload => do
    let dispatcher ← s.dispatcher.loseWorker i payload
    some { s with dispatcher }

/-- Carries out one step after the other. -/
def run : System α β → List (Label α β) → Option (System α β)
  | s, [] => some s
  | s, label :: labels => (s.step label).bind (·.run labels)

theorem run_append (s : System α β) (before after : List (Label α β)) :
    s.run (before ++ after) = (s.run before).bind (·.run after) := by
  induction before generalizing s with
  | nil => rfl
  | cons label before ih =>
    simp only [List.cons_append, run]
    cases s.step label with
    | none => rfl
    | some t => exact ih t

end System

end TieredDispatch

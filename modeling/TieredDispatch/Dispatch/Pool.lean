import TieredDispatch.Dispatch.Event

/-!
# Compiler pool

A fixed number of workers fed from one queue of requests. A free worker **takes** the oldest
request and turns it into a job; when the job is done the worker is free again, whatever became of
the job. Once the pool is **closed** nothing more is sent, and a free worker stops when it finds the
queue empty. Sending is refused only when no worker is left to receive.

A worker catches the panic of a job, but not one of the destructor that runs when the panic's
payload is dropped. The worker is **lost** then. Requests that are waiting when the last worker goes
are discarded.
-/

namespace TieredDispatch

/-- What a worker is doing. -/
inductive Worker (J : Type)
  | free
  | busy (job : J)
  | stopped
  /-- A panic ended it. -/
  | lost (payload : PanicPayload)
deriving DecidableEq, Inhabited, Repr

/-- The job of a busy worker. -/
def Worker.job? {J : Type} : Worker J → Option J
  | busy job => some job
  | free | stopped | lost _ => none

/-- Whether a worker still receives requests. -/
def Worker.isAlive {J : Type} : Worker J → Bool
  | free | busy _ => true
  | stopped | lost _ => false

/-- The panic that ended a worker. -/
def Worker.panic? {J : Type} : Worker J → Option PanicPayload
  | lost payload => some payload
  | free | busy _ | stopped => none

/-- A pool whose workers run jobs of type `J`. -/
structure Pool (J : Type) where
  /-- Whether requests can still be sent. -/
  isOpen : Bool := true
  /-- Requests that no worker has taken, oldest first. -/
  queue : List Request := []
  workers : List (Worker J)
deriving Inhabited

namespace Pool

variable {J : Type}

/-- An open pool with this many free workers, at least one. -/
def start (workers : Nat) : Pool J :=
  { workers := List.replicate (max workers 1) .free }

/-- The name of a worker's thread. -/
def threadName (worker : Nat) : String :=
  "tierjit-compiler-" ++ toString worker

/-- Number of workers the pool was started with. -/
def size (pool : Pool J) : Nat :=
  pool.workers.length

/-- Requests waiting for a free worker. -/
def queued (pool : Pool J) : Nat :=
  if pool.isOpen then pool.queue.length else 0

/-- Queues a request behind the others, if the pool is open and a worker is left. -/
def send (pool : Pool J) (request : Request) : Option (Pool J) :=
  if pool.isOpen && pool.workers.any (·.isAlive) then
    some { pool with queue := pool.queue ++ [request] }
  else
    none

/-- A free worker takes the oldest request. -/
def take (pool : Pool J) (worker : Nat) (start : Request → J) : Option (Request × Pool J) :=
  match pool.workers[worker]?, pool.queue with
  | some .free, request :: rest =>
    some (request, { pool with
      queue := rest, workers := pool.workers.set worker (.busy (start request)) })
  | _, _ => none

/-- Each of the given workers that is free takes the oldest request still waiting. -/
def feedEach (start : Request → J) : List Nat → Pool J → List Request × Pool J
  | [], pool => ([], pool)
  | worker :: workers, pool =>
    match pool.take worker start with
    | some (request, pool) =>
      let (taken, pool) := feedEach start workers pool
      (request :: taken, pool)
    | none => feedEach start workers pool

/-- Lets every free worker take a waiting request, oldest first, and gives back what was taken. -/
def feed (pool : Pool J) (start : Request → J) : List Request × Pool J :=
  feedEach start (List.range pool.size) pool

/-- The job a worker is busy with. -/
def jobOf? (pool : Pool J) (worker : Nat) : Option J :=
  pool.workers[worker]? >>= (·.job?)

/-- Replaces the job of a worker. -/
def setJob (pool : Pool J) (worker : Nat) (job : J) : Pool J :=
  { pool with workers := pool.workers.set worker (.busy job) }

/-- A worker that was busy is free again. -/
def finish (pool : Pool J) (worker : Nat) : Pool J :=
  { pool with workers := pool.workers.set worker .free }

/-- A worker that was busy is lost. With the last worker the waiting requests go too. -/
def lose (pool : Pool J) (worker : Nat) (payload : PanicPayload) : Pool J :=
  let workers := pool.workers.set worker (.lost payload)
  { pool with workers, queue := if workers.any (·.isAlive) then pool.queue else [] }

/-- What is reported about a worker when its thread is joined: the panic that ended it, if one
did. -/
def joinEvent? (pool : Pool J) (worker : Nat) : Option Event :=
  (pool.workers[worker]? >>= (·.panic?)).map (.workerPanicked (threadName worker))

/-- Nothing more will be sent. -/
def close (pool : Pool J) : Pool J :=
  { pool with isOpen := false }

/-- A free worker stops once the pool is closed and its queue empty. -/
def stop (pool : Pool J) (worker : Nat) : Option (Pool J) :=
  match pool.workers[worker]?, pool.queue with
  | some .free, [] =>
    if pool.isOpen then none
    else some { pool with workers := pool.workers.set worker .stopped }
  | _, _ => none

/-- The first busy worker whose job satisfies a condition, with that job. -/
def findBusy? (pool : Pool J) (p : J → Bool) : Option (Nat × J) := do
  let worker ← pool.workers.findIdx? fun w => (w.job?.map p).getD false
  let job ← pool.jobOf? worker
  pure (worker, job)

instance : Described (Pool J) where
  describe pool := Described.record "CompilerPool" [
    ("active", describe pool.isOpen), ("workers", describe pool.size)]

end Pool

end TieredDispatch

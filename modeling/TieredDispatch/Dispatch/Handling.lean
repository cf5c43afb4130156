import TieredDispatch.Dispatch.Pool

/-!
# Handling requests

A pool at work with a handler that only ends or panics. `Handling.move` is one move of the sender or
of a worker; any list of moves is a schedule. The schedule also says how the handler ends each time,
and whether the destructor of a panic's payload panics in turn. A worker survives a panic of its
handler, which ends in the log; it does not survive one of a destructor. When the sender has given
the pool up it joins one worker after the other.

`Handling.complete` is one schedule of a handler that always does the same with the same request,
and of destructors that do not panic: all requests are sent, every free worker takes one, and then
the workers handle what is there, the first busy worker first.
-/

namespace TieredDispatch

/-- A request that a worker is done with. -/
structure Handled where
  worker : Nat
  request : Request
  /-- The panic of the handler, if it panicked. -/
  panic : Option PanicPayload
deriving DecidableEq, Repr

/-- The event of a handled request: nothing is reported unless the handler panicked. -/
def Handled.event? (handled : Handled) : Option Event :=
  handled.panic.map (.requestPanicked handled.request)

/-- A pool and what became of the requests so far, all newest first. -/
structure Handling where
  pool : Pool Request
  sent : List Request := []
  started : List Request := []
  handled : List Handled := []
  log : List Event := []
  /-- The number of workers that were joined, in their order. -/
  joined : Nat := 0

/-- One move of the sender or of a worker. -/
inductive PoolMove
  | send (request : Request)
  /-- A free worker takes a request and starts to handle it. -/
  | take (worker : Nat)
  /-- The handler of a worker ends or panics. -/
  | handle (worker : Nat) (panic : Option PanicPayload)
  /-- The handler of a worker panics with something that is no text, and the destructor of that
  panics too. -/
  | lose (worker : Nat) (payload : PanicPayload)
  /-- The sender gives the pool up. -/
  | close
  /-- A worker leaves. -/
  | stop (worker : Nat)
  /-- The sender, having given the pool up, has waited for the next worker to end. -/
  | join
deriving DecidableEq, Repr

namespace Handling

/-- A pool that has received nothing. -/
def start (workers : Nat) : Handling :=
  { pool := .start workers }

/-- Records that a worker is done with a request. A panic of the handler is reported. -/
def record (h : Handling) (handled : Handled) : Handling :=
  { h with handled := handled :: h.handled, log := handled.event?.toList ++ h.log }

/-- Makes a move, if it is possible. -/
def move (h : Handling) : PoolMove → Option Handling
  | .send request => do
    let pool ← h.pool.send request
    some { h with pool, sent := request :: h.sent }
  | .take worker => do
    let (request, pool) ← h.pool.take worker id
    some { h with pool, started := request :: h.started }
  | .handle worker panic => do
    let request ← h.pool.jobOf? worker
    some ({ h with pool := h.pool.finish worker }.record ⟨worker, request, panic⟩)
  | .lose worker payload => do
    let request ← h.pool.jobOf? worker
    some ({ h with pool := h.pool.lose worker payload }.record ⟨worker, request, some .other⟩)
  | .close => some { h with pool := h.pool.close }
  | .stop worker => do
    let pool ← h.pool.stop worker
    some { h with pool }
  | .join => do
    let worker ← h.pool.workers[h.joined]?
    if h.pool.isOpen || worker.isAlive then none
    else some { h with
      joined := h.joined + 1
      log := (h.pool.joinEvent? h.joined).toList ++ h.log }

/-- Makes one move after the other. -/
def moves : Handling → List PoolMove → Option Handling
  | h, [] => some h
  | h, m :: ms => (h.move m).bind (·.moves ms)

/-- Makes those of the moves that are possible when it is their turn. -/
def tryMoves (h : Handling) (ms : List PoolMove) : Handling :=
  ms.foldl (fun h m => (h.move m).getD h) h

/-- Sends requests, and lets every free worker take one. The handler has no part in this. -/
def sendAll (_handler : Request → Option PanicPayload) (h : Handling) (requests : List Request) :
    Handling :=
  h.tryMoves (requests.map .send ++ (List.range h.pool.size).map .take)

/-- The first busy worker handles its request, and every free worker takes the next one. -/
def handleNext (handler : Request → Option PanicPayload) (h : Handling) : Handling :=
  match h.pool.findBusy? fun _ => true with
  | none => h
  | some (worker, request) =>
    h.tryMoves (.handle worker (handler request) :: (List.range h.pool.size).map .take)

/-- Handles up to `n` requests. -/
def handleUpTo (handler : Request → Option PanicPayload) : Nat → Handling → Handling
  | 0, h => h
  | n + 1, h => handleUpTo handler n (h.handleNext handler)

/-- Handles all requests that were sent. -/
def complete (handler : Request → Option PanicPayload) (h : Handling) : Handling :=
  handleUpTo handler h.sent.length h

/-- The requests handled so far, oldest first. -/
def history (h : Handling) : List Handled :=
  h.handled.reverse

/-- The events reported so far, oldest first. -/
def events (h : Handling) : List Event :=
  h.log.reverse

/-- The requests handled to their end, oldest first. -/
def completed (h : Handling) : List Handled :=
  h.history.filter (·.panic.isNone)

end Handling

end TieredDispatch

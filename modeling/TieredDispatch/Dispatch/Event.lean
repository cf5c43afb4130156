import TieredDispatch.Dispatch.Outcome

/-!
# Log events

The events a dispatcher and its compiler pool report, each with a level, a message and named
fields.
-/

namespace TieredDispatch

/-- Severity of a log event. -/
inductive LogLevel
  | error
  | warn
  | info
  | debug
  | trace
deriving DecidableEq, Inhabited, Repr

namespace LogLevel

/-- All levels, most severe first. -/
def all : List LogLevel := [error, warn, info, debug, trace]

/-- Verbosity of a level, from 1 for errors up. -/
def verbosity : LogLevel → Nat
  | error => 1
  | warn => 2
  | info => 3
  | debug => 4
  | trace => 5

instance : ToString LogLevel where
  toString
    | error => "ERROR"
    | warn => "WARN"
    | info => "INFO"
    | debug => "DEBUG"
    | trace => "TRACE"

end LogLevel

/-- An event of the dispatcher or of its pool. -/
inductive Event
  | invertedThresholds (l1 l2 : UInt64)
  | promoting (request : Request) (count : UInt64)
  | alreadyRequested (request : Request) (count : UInt64)
  | poolUnavailable (request : Request)
  | compiled (request : Request)
  | superseded (request : Request)
  | compilationFailed (request : Request) (reason : String)
  | compilerPanicked (request : Request)
  | requestPanicked (request : Request) (payload : PanicPayload)
  /-- The thread of a worker ended in a panic. -/
  | workerPanicked (thread : String) (payload : PanicPayload)
deriving DecidableEq, Repr

namespace Event

def level : Event → LogLevel
  | invertedThresholds _ _ | poolUnavailable _ | compilationFailed _ _ => .warn
  | promoting _ _ | alreadyRequested _ _ | superseded _ => .debug
  | compiled _ => .info
  | compilerPanicked _ | requestPanicked _ _ | workerPanicked _ _ => .error

def message : Event → String
  | invertedThresholds _ _ =>
    "L1 threshold is not below L2 threshold; L1 compilation will be skipped"
  | promoting _ _ => "promoting method"
  | alreadyRequested _ _ => "compilation already requested"
  | poolUnavailable _ => "compiler pool unavailable, compiling inline"
  | compiled _ => "compiled method"
  | superseded _ => "artifact superseded by a higher tier"
  | compilationFailed _ _ => "compilation failed"
  | compilerPanicked _ => "compiler panicked"
  | requestPanicked _ _ => "compilation request panicked"
  | workerPanicked _ _ => "compiler thread panicked"

/-- The method and tier an event is about, if it is about one. -/
def request? : Event → Option Request
  | invertedThresholds _ _ | workerPanicked _ _ => none
  | promoting r _ | alreadyRequested r _ | poolUnavailable r | compiled r | superseded r
  | compilationFailed r _ | compilerPanicked r | requestPanicked r _ => some r

/-- What an event says beyond its method and tier. -/
def details : Event → List (String × String)
  | invertedThresholds l1 l2 => [("l1_threshold", toString l1), ("l2_threshold", toString l2)]
  | promoting _ count | alreadyRequested _ count => [("count", toString count)]
  | compilationFailed _ reason => [("reason", reason)]
  | requestPanicked _ payload => [("payload", describe payload.message?)]
  | workerPanicked thread payload =>
    [("thread", thread), ("payload", describe payload.message?)]
  | poolUnavailable _ | compiled _ | superseded _ | compilerPanicked _ => []

/-- The named fields of an event. -/
def fields (event : Event) : List (String × String) :=
  let subject := match event.request? with
    | some r => [("method", toString r.method), ("tier", toString r.tier)]
    | none => []
  subject ++ event.details

end Event

end TieredDispatch

import TieredDispatch.Text.Quoted
import TieredDispatch.Tier

/-!
# Outcomes

What the host's compiler and engine give back, and what a dispatched call gives back to its
caller. A collaborator produces a value, reports an error with a reason, or panics; a panic of a
collaborator passes through the call.
-/

namespace TieredDispatch

/-- A granted right to compile a method at a tier. -/
structure Request where
  method : MethodId
  tier : Tier
deriving DecidableEq, Inhabited, Repr

/-- What a panic carries: a text, or something that is none. What is no text is the host's own, and
so is its destructor, which may panic in turn when the payload is dropped. -/
inductive PanicPayload
  | text (message : String)
  | other
deriving DecidableEq, Inhabited, Repr

/-- The text of a panic, if it has one. -/
def PanicPayload.message? : PanicPayload → Option String
  | text message => some message
  | other => none

/-- How a collaborator's work ended. -/
inductive Outcome (γ : Type)
  | value (v : γ)
  | error (reason : String)
  | panic (payload : PanicPayload)
deriving DecidableEq, Repr

/-- Why a compilation did not produce an artifact. -/
inductive CompileFailure
  | error (reason : String)
  | panic (payload : PanicPayload)
deriving DecidableEq, Repr

/-! ## Errors of a dispatched call -/

/-- Errors reported to the caller of a method. -/
inductive DispatchError
  /-- The compiler rejected the method. Its request was given back, so a later invocation may try
  the same tier again. -/
  | compilationFailed (method : MethodId) (tier : Tier) (reason : String)
  /-- Running a compiled artifact failed. -/
  | executionFailed (method : MethodId) (reason : String)
  /-- The interpreter failed. -/
  | interpretationFailed (method : MethodId) (reason : String)
deriving DecidableEq, Repr

namespace DispatchError

/-- The text shown to the host. -/
def message : DispatchError → String
  | compilationFailed method tier reason =>
    "compilation of " ++ toString method ++ " at " ++ toString tier ++ " failed: " ++ reason
  | executionFailed method reason =>
    "execution of compiled " ++ toString method ++ " failed: " ++ reason
  | interpretationFailed method reason =>
    "interpretation of " ++ toString method ++ " failed: " ++ reason

instance : Described DispatchError where
  describe
    | compilationFailed method tier reason => Described.record "CompilationFailed" [
        ("method", describe method), ("tier", describe tier), ("reason", describe reason)]
    | executionFailed method reason => Described.record "ExecutionFailed" [
        ("method", describe method), ("reason", describe reason)]
    | interpretationFailed method reason => Described.record "InterpretationFailed" [
        ("method", describe method), ("reason", describe reason)]

end DispatchError

/-- What a dispatched call gives back. -/
inductive CallResult (β : Type)
  | output (value : β)
  | failed (error : DispatchError)
  | panicked (payload : PanicPayload)
deriving DecidableEq, Repr

end TieredDispatch

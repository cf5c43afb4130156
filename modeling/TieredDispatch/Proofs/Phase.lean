import TieredDispatch.Proofs.Jobs
import TieredDispatch.Proofs.SingleCaller

/-!
# Phases of a request

From its grant to the event that tells how it ended a request goes through **phases**, and while it
does one piece of work is in charge of it. What a piece of work is in charge of is its **standing**:
a request and its phase. `Phase.Next` lists how a request goes from one phase to the next, and what
is reported on the way; a bit is set in some of the phases and clear in the others.

A step of a system changes one standing at most. It grants a request, or it takes one to its next
phase, or it reports nothing (`System.phaseStep_of_step`). That holds where calls compile only if
there is no pool, and where no call is denied its request.
-/

namespace TieredDispatch

variable {α β : Type}

/-! ## Phases -/

/-- How far a request has come. -/
inductive Phase
  /-- Nothing is done for the request. -/
  | unclaimed
  /-- The request was granted; that is reported next. -/
  | granted
  /-- The compilation waits, is at work or is on its way into the cache. -/
  | promoted
  /-- The compilation failed and the request was given back; that is reported next. -/
  | released
  /-- The compiler panicked on a worker; that the panic ended there is reported next. -/
  | panicked
  /-- The artifact was published, or came too late for that. -/
  | settled
deriving DecidableEq

namespace Phase

/-- Whether the bit of the request is set. -/
def isRequested : Phase → Bool
  | granted | promoted | settled => true
  | unclaimed | released | panicked => false

/-- Whether a piece of work is in charge of the request. -/
def isOpen : Phase → Bool
  | granted | promoted | released | panicked => true
  | unclaimed | settled => false

/-- The phase after a panic of the compiler: on a worker there is one event to come. -/
def afterPanic (pooled : Bool) : Phase :=
  if pooled then panicked else unclaimed

/-- How a request that was granted goes from one phase to the next, with the events reported on the
way, newest first. -/
inductive Next (pooled : Bool) (r : Request) : Phase → List Event → Phase → Prop
  | promote (count : UInt64) : Next pooled r granted [.promoting r count] promoted
  | publish : Next pooled r promoted [.compiled r] settled
  | supersede : Next pooled r promoted [.superseded r] settled
  | release : Next pooled r promoted [] released
  | fail (reason : String) : Next pooled r released [.compilationFailed r reason] unclaimed
  | panic : Next pooled r released [.compilerPanicked r] (afterPanic pooled)
  | echo (payload : PanicPayload) (hpooled : pooled = true) :
    Next pooled r panicked [.requestPanicked r payload] unclaimed

end Phase

/-- A request that a piece of work is in charge of, and its phase. -/
structure Standing where
  request : Request
  phase : Phase
deriving DecidableEq

/-- The standing of a request in a phase, if anything is in charge of it. -/
def Phase.standing? (phase : Phase) (r : Request) : Option Standing :=
  if phase.isOpen then some ⟨r, phase⟩ else none

/-- The phase of the request of a job, on a worker or with a call, as long as the job is in
charge. -/
def CompileJob.phase? (pooled : Bool) (job : CompileJob α) : Option Phase :=
  match job.stage with
  | .holding | .compiling | .compiled _ | .counted _ | .recorded _ | .superseded | .failed _ =>
    some .promoted
  | .released _ | .charged _ => some .released
  | .done (some (.panic _)) => if pooled then some .panicked else none
  | .done _ => none

def CompileJob.standing? (pooled : Bool) (job : CompileJob α) : Option Standing :=
  (job.phase? pooled).map (⟨job.request, ·⟩)

/-- What a piece of work is in charge of, if it is. -/
def Work.standing? : Work α β → Option Standing
  | call c =>
    match c.stage with
    | .promoting tier _ => some ⟨⟨c.method, tier⟩, .granted⟩
    | .compiling held => held.standing? false
    | _ => none
  | job j => j.standing? true
  | queued r => some ⟨r, .promoted⟩

/-- What some work is in charge of. -/
def Work.standings (w : Multiset (Work α β)) : Multiset Standing :=
  w.filterMap standing?

/-- All that is in somebody's charge. -/
def System.standings (s : System α β) : Multiset Standing :=
  Work.standings s.work

end TieredDispatch

import TieredDispatch.Proofs.Stack

/-!
# Transcripts and rounds

The **transcript** of a run lists what the host did for the dispatcher and what it got: the compile
calls that ended, the runs of the engine, and the results of the calls that were left. A host makes
**rounds** if it calls one method at a time and waits before the next call until nothing is under
way any more: the call has returned and was left, and the request that it made, if it made one, is
completed. In between the caller and the workers move in any order.
-/

namespace TieredDispatch

variable {α β : Type}

/-! ## Transcripts -/

/-- What the host did, and what a caller got for it. -/
inductive Occurrence (α β : Type)
  /-- The compiler was called for a request, and its call ended. -/
  | compiled (r : Request) (outcome : Outcome α)
  /-- The engine ran what a call of the method found. -/
  | ran (m : MethodId) (found : Option (CompiledMethod α)) (outcome : Outcome β)
  /-- A call of the method was left with its result. -/
  | returned (m : MethodId) (result : CallResult β)
deriving DecidableEq

/-- The compile call that ended. -/
def Occurrence.compilation? : Occurrence α β → Option (Request × Outcome α)
  | compiled r outcome => some (r, outcome)
  | ran _ _ _ | returned _ _ => none

/-- What happened in a run, oldest first. -/
abbrev Transcript (α β : Type) := List (Occurrence α β)

namespace Transcript

/-- The compile calls, by callers and by workers, and how they ended. -/
def compilations (events : Transcript α β) : List (Request × Outcome α) :=
  events.filterMap (·.compilation?)

/-- What concerns the callers: the runs of the engine and the results. -/
def calls (events : Transcript α β) : Transcript α β :=
  events.filter (·.compilation?.isNone)

@[simp]
theorem compilations_nil : compilations ([] : Transcript α β) = [] := rfl

@[simp]
theorem calls_nil : calls ([] : Transcript α β) = [] := rfl

theorem compilations_append (events events' : Transcript α β) :
    compilations (events ++ events') = events.compilations ++ events'.compilations :=
  List.filterMap_append

theorem calls_append (events events' : Transcript α β) :
    calls (events ++ events') = events.calls ++ events'.calls :=
  List.filter_append ..

theorem mem_compilations {events : Transcript α β} {r : Request} {outcome : Outcome α} :
    (r, outcome) ∈ events.compilations ↔ .compiled r outcome ∈ events := by
  rw [compilations, List.mem_filterMap]
  constructor
  · rintro ⟨occurrence, hmem, hsome⟩
    cases occurrence with
    | compiled =>
      cases hsome
      exact hmem
    | ran | returned => cases hsome
  · exact fun hmem => ⟨_, hmem, rfl⟩

/-- Without compile calls there is nothing else but calls. -/
theorem calls_eq_self {events : Transcript α β} (h : events.compilations = []) :
    events.calls = events := by
  refine List.filter_eq_self.mpr fun event hmem => ?_
  rw [Option.isNone_iff_eq_none]
  exact List.filterMap_eq_nil_iff.mp h event hmem

end Transcript

/-- What happens in a move of the caller with the given calls. -/
def CallerMove.occurrence? (calls : List (Call α β)) (move : CallerMove α β) :
    Option (Occurrence α β) :=
  match move, calls with
  | endCompile outcome, c :: _ => c.compiles?.map (.compiled · outcome)
  | endRun outcome, c :: _ =>
    match c.stage with
    | .running found => some (.ran c.method found outcome)
    | _ => none
  | leave, c :: _ =>
    match c.stage with
    | .returned result => some (.returned c.method result)
    | _ => none
  | _, _ => none

/-- What happens in a move of a worker that is busy with a job. -/
def WorkerMove.occurrence? (job : CompileJob α) : WorkerMove α → Option (Occurrence α β)
  | endCompile outcome => some (.compiled job.request outcome)
  | take | beginCompile | advance | finish | stop => none

namespace System

/-- What happens in a step. -/
def occurrence? (s : System α β) : Label α β → Option (Occurrence α β)
  | .caller i move => move.occurrence? (s.callsOf i)
  | .worker i move => do
    let pool ← s.dispatcher.pool
    let job ← pool.jobOf? i
    move.occurrence? job
  | .direct _ | .close | .lose _ _ => none

/-- What happens in a run. -/
def transcript : System α β → List (Label α β) → Transcript α β
  | _, [] => []
  | s, label :: labels =>
    match s.step label with
    | some t => (s.occurrence? label).toList ++ t.transcript labels
    | none => []

theorem transcript_cons_of_step {s t : System α β} {label : Label α β}
    (hstep : s.step label = some t) (labels : List (Label α β)) :
    s.transcript (label :: labels) = (s.occurrence? label).toList ++ t.transcript labels := by
  rw [transcript, hstep]

theorem transcript_append_of_run {s t : System α β} {before : List (Label α β)}
    (hrun : s.run before = some t) (after : List (Label α β)) :
    s.transcript (before ++ after) = s.transcript before ++ t.transcript after := by
  induction before generalizing s with
  | nil =>
    obtain rfl := Option.some.inj hrun
    rfl
  | cons label before ih =>
    obtain ⟨u, hstep, hrest⟩ := Option.bind_eq_some_iff.mp hrun
    rw [List.cons_append, transcript_cons_of_step hstep, transcript_cons_of_step hstep, ih hrest,
      List.append_assoc]

end System

/-! ## Rounds -/

/-- Whether the step goes on with what was begun: no call is made, the dispatcher is kept with all
of its workers, and the host leaves the cache alone. -/
def Label.goesOn : Label α β → Bool
  | caller _ (.invoke _ _) => false
  | caller _ _ | worker _ _ => true
  | direct _ | close | lose _ _ => false

/-- A call of a method and everything up to the moment at which nothing is under way any more: the
call was left, and nothing is queued or in flight. -/
structure System.Round (s : System α β) (m : MethodId) (labels : List (Label α β))
    (t : System α β) : Prop where
  begins : ∃ i rest, labels = .caller i (.invoke m false) :: rest ∧ ∀ label ∈ rest, label.goesOn
  run : s.run labels = some t
  rests : t.work = 0

/-- Rounds of some methods, one after the other. -/
inductive System.Rounds :
    System α β → List MethodId → List (Label α β) → System α β → Prop
  | nil (s : System α β) : Rounds s [] [] s
  | cons {s u t : System α β} {m : MethodId} {methods : List MethodId}
      {labels rest : List (Label α β)} (hround : s.Round m labels u)
      (hrest : Rounds u methods rest t) : Rounds s (m :: methods) (labels ++ rest) t

/-- Rounds are a run. -/
theorem System.Rounds.run {s t : System α β} {methods : List MethodId} {labels : List (Label α β)}
    (h : s.Rounds methods labels t) : s.run labels = some t := by
  induction h with
  | nil s => rfl
  | cons hround hrest ih => rw [run_append, hround.run, Option.bind_some, ih]

end TieredDispatch

import TieredDispatch.Proofs.Endings

/-!
# Errors taken for panics

**Theorem (`error_while_unwinding_told_twice`).** In synchronous mode a compile call that fails is
reported and counted once, as an error or as a panic, with one exception: an error on a thread that
is unwinding is taken for a panic when its request is given back, and so it is reported and counted
as a panic first and then as the error that it is.

A compile call that fails leaves its own call with the events that are to be reported about it
(`CompileJob.tells`). Each later step of the call reports the next of them or none, so what is in
the log and what is left make up the events of all failures at any time (`System.told_step`).
-/

namespace TieredDispatch

variable {α β : Type}

/-! ## Compile calls that failed -/

/-- How the compiler's call ended that failed like that. -/
def CompileFailure.outcome : CompileFailure → Outcome α
  | error reason => .error reason
  | panic payload => .panic payload

/-- A compile call that failed, and whether its thread was unwinding. -/
structure FailedCompile where
  request : Request
  cause : CompileFailure
  unwinding : Bool
deriving DecidableEq

namespace FailedCompile

/-- The end of the compile call. -/
def milestone (f : FailedCompile) : Milestone α :=
  .ended f.request f.cause.outcome

/-- The events that are reported about it, oldest first. -/
def events (f : FailedCompile) : List Event :=
  match f.cause with
  | .error reason =>
    if f.unwinding then [.compilerPanicked f.request, .compilationFailed f.request reason]
    else [.compilationFailed f.request reason]
  | .panic _ => [.compilerPanicked f.request]

/-- Whether an error is taken for a panic. -/
def isMistaken (f : FailedCompile) : Bool :=
  match f.cause with
  | .error _ => f.unwinding
  | .panic _ => false

theorem length_events (f : FailedCompile) : f.events.length = 1 + f.isMistaken.toNat := by
  obtain ⟨r, cause, unwinding⟩ := f
  cases cause with
  | error reason => cases unwinding <;> rfl
  | panic payload => rfl

/-- A failure has an event, and a second one if it is mistaken. -/
theorem length_flatMap_events (failed : List FailedCompile) :
    (failed.flatMap (·.events)).length = failed.length + failed.countP (·.isMistaken) := by
  induction failed with
  | nil => rfl
  | cons f failed ih =>
    rw [List.flatMap_cons, List.length_append, ih, length_events, List.length_cons,
      List.countP_cons]
    cases f.isMistaken <;> simp <;> omega

end FailedCompile

/-- The compile call that fails with a move of the caller with the given calls. -/
def CallerMove.failed? (move : CallerMove α β) (calls : List (Call α β)) : Option FailedCompile :=
  match move, calls with
  | endCompile outcome, c :: _ =>
    c.compiles?.bind fun r => outcome.failure?.map (FailedCompile.mk r · c.unwinding)
  | _, _ => none

namespace System

/-- The compile call of a caller that fails with a step. -/
def failed? (s : System α β) : Label α β → Option FailedCompile
  | .caller i move => move.failed? (s.callsOf i)
  | _ => none

/-- The compile calls of callers that fail in a run, oldest first. -/
def failedCompiles : System α β → List (Label α β) → List FailedCompile
  | _, [] => []
  | s, label :: labels =>
    match s.step label with
    | some t => (s.failed? label).toList ++ t.failedCompiles labels
    | none => []

end System

/-! ## What is still to be reported -/

/-- The events about the failure of the job's compile call that are still to be reported, oldest
first. -/
def CompileJob.tells (job : CompileJob α) (unwinding : Bool) : List Event :=
  match job.stage with
  | .failed cause | .released cause => (FailedCompile.mk job.request cause unwinding).events
  | .charged reason => [.compilationFailed job.request reason]
  | _ => []

/-- The events about the failure of the call's compile call that are still to be reported. -/
def Call.tells (c : Call α β) : List Event :=
  c.job?.elim [] (·.tells c.unwinding)

/-- All events about failures that are still to be reported. -/
def System.telling (s : System α β) : Multiset Event :=
  Multiset.ofList (s.callers.flatMap (·.flatMap Call.tells))

/-- The reports of failures in the log. -/
def Dispatcher.failureLog (d : Dispatcher α) : Multiset Event :=
  Multiset.ofList (d.log.filter (Meter.counts .failures))

/-- A step of a job reports the next event about its failure, or none. -/
theorem CompileJob.tells_advance (job : CompileJob α) (unwinding : Bool) (d : Dispatcher α) :
    (job.report? unwinding d).toList.filter (Meter.counts .failures) ++
      (job.advance unwinding d).1.tells unwinding = job.tells unwinding := by
  obtain ⟨r, stage⟩ := job
  cases stage with
  | recorded artifact =>
    by_cases htaken : (d.cache.place r.method ⟨r.tier, artifact⟩).1 <;>
      simp [report?, advance, tells, htaken, Meter.counts]
  | released cause =>
    cases cause with
    | error reason => cases unwinding <;> rfl
    | panic payload => rfl
  | _ => rfl

theorem Call.tells_advance (c : Call α β) (d : Dispatcher α) (hturn : c.turn = .dispatcher) :
    (c.reports d).filter (Meter.counts .failures) ++ (c.advance d).1.tells = c.tells := by
  obtain ⟨stage, hnext, hstep⟩ := c.exists_stageStep d hturn
  rw [hnext]
  obtain ⟨m, unwinding, before⟩ := c
  cases hstep with
  | send tier count | hold tier count =>
    have hsilent : ((⟨m, unwinding, .promoting tier count⟩ : Call α β).reports d).filter
        (Meter.counts .failures) = [] := by
      rw [← List.length_eq_zero_iff, ← List.countP_eq_length_filter]
      exact countP_reports_promoting rfl d .failures
    rw [hsilent]
    rfl
  | job => exact CompileJob.tells_advance _ unwinding d
  | _ => rfl

/-- What is in the log and what a call is left to report stay the same together. -/
theorem Call.told_advance (c : Call α β) (d : Dispatcher α) (hturn : c.turn = .dispatcher) :
    (c.advance d).2.failureLog + Multiset.ofList (c.advance d).1.tells =
      d.failureLog + Multiset.ofList c.tells := by
  rw [Dispatcher.failureLog, c.log_advance, List.filter_append, ← c.tells_advance d hturn,
    ← Multiset.coe_add, ← Multiset.coe_add, add_right_comm, add_comm, Dispatcher.failureLog]

/-- A job whose compile call has not ended has nothing to report. -/
theorem CompileJob.tells_begin {job : CompileJob α} (hturn : job.turn = .compiler)
    (unwinding : Bool) : job.tells unwinding = [] ∧ job.begin.tells unwinding = [] := by
  obtain ⟨r, stage⟩ := job
  cases stage with
  | holding | compiling => exact ⟨rfl, rfl⟩
  | _ => cases hturn

/-- A compile call that ends leaves its call with the events about its failure. -/
theorem CompileJob.tells_conclude {job : CompileJob α} (hbusy : job.isCompiling = true)
    (outcome : Outcome α) (unwinding : Bool) :
    (job.conclude outcome).tells unwinding =
      (outcome.failure?.map (FailedCompile.mk job.request · unwinding)).toList.flatMap
        (·.events) := by
  obtain ⟨r, stage⟩ := job
  cases stage with
  | compiling => cases outcome <;> simp [conclude, tells, Outcome.failure?]
  | _ => cases hbusy

theorem coe_flatMap_tells_cons (c : Call α β) (outer : List (Call α β)) :
    Multiset.ofList ((c :: outer).flatMap Call.tells) =
      Multiset.ofList c.tells + Multiset.ofList (outer.flatMap Call.tells) := by
  rw [List.flatMap_cons, Multiset.coe_add]

/-- What is in the log and what is left to report grow by the events about a compile call that
fails. -/
theorem StackStep.told {d d' : Dispatcher α} {move : CallerMove α β}
    {calls calls' : List (Call α β)} (hstep : StackStep d move calls calls' d') :
    d'.failureLog + Multiset.ofList (calls'.flatMap Call.tells) =
      d.failureLog + Multiset.ofList (calls.flatMap Call.tells) +
        Multiset.ofList ((move.failed? calls).toList.flatMap (·.events)) := by
  cases hstep with
  | invoke m unwinding => exact (add_zero _).symm
  | @advance c outer hturn =>
    rw [coe_flatMap_tells_cons, coe_flatMap_tells_cons, ← add_assoc, c.told_advance d hturn,
      add_assoc]
    exact (add_zero _).symm
  | @beginCompile c job outer hturn hidle =>
    obtain ⟨m, unwinding, stage⟩ := c
    obtain ⟨rfl, hjob⟩ := Call.stage_of_turn_compiler hturn
    obtain ⟨hbefore, hafter⟩ := job.tells_begin hjob unwinding
    rw [coe_flatMap_tells_cons, coe_flatMap_tells_cons]
    change _ + (Multiset.ofList (job.begin.tells unwinding) + _) =
      _ + (Multiset.ofList (job.tells unwinding) + _) + _
    rw [hbefore, hafter]
    exact (add_zero _).symm
  | @endCompile c job outcome outer hturn hbusy =>
    -- The one move that leaves something to report.
    obtain ⟨m, unwinding, stage⟩ := c
    obtain ⟨rfl, hjob⟩ := Call.stage_of_turn_compiler hturn
    have hbefore := (job.tells_begin hjob unwinding).1
    rw [coe_flatMap_tells_cons, coe_flatMap_tells_cons]
    change _ + (Multiset.ofList ((job.conclude outcome).tells unwinding) + _) =
      _ + (Multiset.ofList (job.tells unwinding) + _) + _
    rw [hbefore, job.tells_conclude hbusy, Multiset.coe_nil, zero_add, add_right_comm, add_assoc]
    rfl
  | @endRun c found outcome outer hturn =>
    obtain ⟨m, unwinding, stage⟩ := c
    obtain rfl := Call.stage_of_turn_engine hturn
    exact (add_zero _).symm
  | @leave c result outer hturn =>
    obtain ⟨m, unwinding, stage⟩ := c
    obtain rfl := Call.stage_of_turn_ended hturn
    exact (add_zero _).symm

/-- The compile call that fails with a move is the one that the milestone tells of. -/
theorem StackStep.map_milestone_failed? {d d' : Dispatcher α} {move : CallerMove α β}
    {calls calls' : List (Call α β)} (hstep : StackStep d move calls calls' d') :
    (move.failed? calls).toList.map (·.milestone) =
      (move.milestone? d calls).toList.filter (·.ending? = some .failures) := by
  cases hstep with
  | invoke m unwinding => rfl
  | @advance c outer hturn =>
    refine (List.filter_eq_nil_iff.mpr fun μ hμ => ?_).symm
    simp [c.ending?_milestone? d μ (Option.mem_toList.mp hμ)]
  | @beginCompile c job outer hturn hidle =>
    rw [CallerMove.milestone?, Call.compiles?_of_turn hturn]
    rfl
  | @endCompile c job outcome outer hturn hbusy =>
    rw [CallerMove.failed?, CallerMove.milestone?, Call.compiles?_of_turn hturn]
    cases outcome <;> rfl
  | endRun | leave => rfl

/-! ## Runs -/

namespace System

variable {s t : System α β} {label : Label α β} {labels : List (Label α β)}

/-- In synchronous mode every step is one of a caller, or one of the host that leaves the callers
and the log alone. -/
theorem step_cases_of_pool (hpool : s.dispatcher.pool = none) (hstep : s.step label = some t) :
    (∃ i move calls calls', label = .caller i move ∧ s.callers[i]? = some calls ∧
      t.callers = s.callers.set i calls' ∧
      StackStep s.dispatcher move calls calls' t.dispatcher) ∨
    (s.failed? label = none ∧ s.milestone? label = none ∧ t.callers = s.callers ∧
      t.dispatcher.log = s.dispatcher.log) := by
  cases systemStep_of_step hstep with
  | caller hcalls hmove => exact .inl ⟨_, _, _, _, rfl, hcalls, rfl, hmove⟩
  | worker hsome | lose _ hsome => simp [hpool] at hsome
  | direct | close => exact .inr ⟨rfl, rfl, rfl, rfl⟩

theorem callsOf_of_callers {i : Nat} {calls : List (Call α β)}
    (hcalls : s.callers[i]? = some calls) : s.callsOf i = calls := by
  rw [callsOf, hcalls, Option.getD_some]

theorem told_step (hpool : s.dispatcher.pool = none) (hstep : s.step label = some t) :
    t.dispatcher.failureLog + t.telling = s.dispatcher.failureLog + s.telling +
      Multiset.ofList ((s.failed? label).toList.flatMap (·.events)) := by
  rcases step_cases_of_pool hpool hstep with
    ⟨i, move, calls, calls', rfl, hcalls, hset, hmove⟩ | ⟨hnone, -, hcallers, hlog⟩
  · obtain ⟨frame, hold, hnew⟩ := flatMap_set (List.flatMap (Call.tells (α := α) (β := β))) hcalls
    rw [telling, telling, hset, hnew, hold, ← add_assoc, ← add_assoc, hmove.told, failed?,
      callsOf_of_callers hcalls, add_right_comm]
  · rw [telling, telling, hcallers, Dispatcher.failureLog, Dispatcher.failureLog, hlog, hnone]
    exact (add_zero _).symm

theorem map_milestone_failed? (hpool : s.dispatcher.pool = none) (hstep : s.step label = some t) :
    (s.failed? label).toList.map (·.milestone) =
      (s.milestone? label).toList.filter (·.ending? = some .failures) := by
  rcases step_cases_of_pool hpool hstep with
    ⟨i, move, calls, calls', rfl, hcalls, -, hmove⟩ | ⟨hnone, hmilestone, -, -⟩
  · rw [failed?, callsOf_of_callers hcalls, hmove.map_milestone_failed?, milestone?, hcalls]
    rfl
  · rw [hnone, hmilestone]
    rfl

/-- The failures of a run, what the log says of them, and how the history tells of them. -/
theorem told_run (hpool : s.dispatcher.pool = none) (hrun : s.run labels = some t) :
    (s.failedCompiles labels).map (·.milestone) =
      (s.history labels).filter (·.ending? = some .failures) ∧
    t.dispatcher.failureLog + t.telling = s.dispatcher.failureLog + s.telling +
      Multiset.ofList ((s.failedCompiles labels).flatMap (·.events)) := by
  induction labels generalizing s with
  | nil =>
    obtain rfl := Option.some.inj hrun
    exact ⟨rfl, (add_zero _).symm⟩
  | cons label labels ih =>
    obtain ⟨u, hstep, hrest⟩ := Option.bind_eq_some_iff.mp hrun
    have hpool' : u.dispatcher.pool = none := by
      have hsame := isSome_pool_step hstep
      rwa [hpool, Option.isSome_none, Option.isSome_eq_false_iff, Option.isNone_iff_eq_none]
        at hsame
    obtain ⟨hends, htold⟩ := ih hpool' hrest
    rw [failedCompiles, history, hstep]
    constructor
    · rw [List.map_append, List.filter_append, hends, map_milestone_failed? hpool hstep]
    · rw [htold, told_step hpool hstep, List.flatMap_append, ← Multiset.coe_add, add_assoc]

/-- No failure is mistaken on a thread that does not unwind. -/
theorem not_isMistaken_of_isCalm (hcalm : s.IsCalm) {f : FailedCompile}
    (hf : s.failed? label = some f) : ¬ f.isMistaken := by
  cases label with
  | caller i move =>
    cases move with
    | endCompile outcome =>
      cases hcalls : s.callsOf i with
      | nil =>
        rw [failed?, hcalls] at hf
        cases hf
      | cons c outer =>
        have hthread : c.unwinding = false := hcalm i c (hcalls ▸ List.mem_cons_self)
        rw [failed?, hcalls] at hf
        obtain ⟨r, -, hfailed⟩ := Option.bind_eq_some_iff.mp hf
        obtain ⟨cause, -, rfl⟩ := Option.map_eq_some_iff.mp hfailed
        cases cause <;> simp [FailedCompile.isMistaken, hthread]
    | _ => cases hf
  | _ => cases hf

theorem not_isMistaken_run (hcalm : s.IsCalm) (hlabels : ∀ label ∈ labels, label.isCalm) :
    ∀ f ∈ s.failedCompiles labels, ¬ f.isMistaken := by
  induction labels generalizing s with
  | nil => exact fun f hf => (nomatch hf)
  | cons label labels ih =>
    rw [List.forall_mem_cons] at hlabels
    intro f hf
    cases hstep : s.step label with
    | none =>
      rw [failedCompiles, hstep] at hf
      cases hf
    | some u =>
      rw [failedCompiles, hstep] at hf
      rcases List.mem_append.mp hf with hnow | hlater
      · exact not_isMistaken_of_isCalm hcalm (Option.mem_toList.mp hnow)
      · exact ih (isCalm_step hlabels.1 hstep hcalm) hlabels.2 f hlater

/-- When all calls have returned, nothing is left to report. -/
theorem telling_of_isQuiet (hquiet : s.isQuiet) : s.telling = 0 := by
  rw [isQuiet, Bool.and_eq_true, List.all_eq_true] at hquiet
  rw [telling, Multiset.coe_eq_zero, List.flatMap_eq_nil_iff]
  intro calls hcalls
  rw [List.flatMap_eq_nil_iff]
  intro c hc
  have hreturned := List.all_eq_true.mp (hquiet.1 calls hcalls) c hc
  obtain ⟨m, unwinding, stage⟩ := c
  cases stage with
  | returned result => rfl
  | _ => cases hreturned

theorem failureLog_start {config : TierConfig} {d : Dispatcher α}
    (hstart : Dispatcher.start config = .ok d) : d.failureLog = 0 := by
  rw [Dispatcher.failureLog, Multiset.coe_eq_zero, List.filter_eq_nil_iff]
  intro event hevent
  rw [Meter.counts_eq_false_of_request? (Dispatcher.request?_of_mem_log_start hstart event hevent)]
  exact Bool.false_ne_true

theorem telling_start (d : Dispatcher α) (callers : Nat) :
    (start d callers : System α β).telling = 0 := by
  simp [telling, start, List.flatMap_replicate]

/-- The meter of failures shows the reports of failures. -/
theorem Audited.failures_eq (haudited : s.Audited) :
    s.dispatcher.metrics.compilationFailures =
      UInt64.ofNat s.dispatcher.failureLog.card := by
  have hshown := haudited .failures rfl
  have hnone : s.jobs.countP (·.owes .failures) = 0 := by
    rw [Multiset.countP_eq_zero]
    intro job _
    obtain ⟨r, stage⟩ := job
    cases stage <;> exact Bool.false_ne_true
  rw [hnone, add_zero, List.countP_eq_length_filter] at hshown
  exact hshown

end System

/-! ## Main result -/

/-- **An error on an unwinding thread is told twice.** In synchronous mode the compile calls that
failed are those that the history tells of, and the log and what is left to report make up their
events: one for each failure, and one more for each error on a thread that is unwinding, which is
taken for a panic first. When nothing is left to report, the meter of failures shows both. Where no
call is made on a thread that is unwinding, every failure is reported and counted once. -/
theorem error_while_unwinding_told_twice {config : TierConfig} {d : Dispatcher α} {callers : Nat}
    {labels : List (Label α β)} {s : System α β} (hstart : Dispatcher.start config = .ok d)
    (hmode : config.mode = .synchronous) (hrun : (System.start d callers).run labels = some s) :
    let h := (System.start d callers).history labels
    let failed := (System.start d callers).failedCompiles labels
    failed.map (·.milestone) = h.filter (·.ending? = some .failures) ∧
    s.dispatcher.failureLog + s.telling = Multiset.ofList (failed.flatMap (·.events)) ∧
    (s.isQuiet → s.telling = 0) ∧
    (s.telling = 0 → s.dispatcher.metrics.compilationFailures =
      UInt64.ofNat (h.endings .failures + failed.countP (·.isMistaken))) ∧
    ((∀ label ∈ labels, label.isCalm) → failed.countP (·.isMistaken) = 0) := by
  intro h failed
  have hpool := System.pool_eq_none_start hstart hmode
  obtain ⟨hends, htold⟩ := System.told_run (s := System.start d callers) hpool hrun
  rw [System.telling_start, add_zero] at htold
  change _ = d.failureLog + _ at htold
  rw [System.failureLog_start hstart, zero_add] at htold
  refine ⟨hends, htold, System.telling_of_isQuiet, fun hnone => ?_, fun hcalm => ?_⟩
  · have hcount : failed.length = h.endings .failures := by
      rw [History.endings, List.countP_eq_length_filter, ← hends, List.length_map]
    rw [(System.audited_of_run hstart hrun).failures_eq, ← add_zero s.dispatcher.failureLog,
      ← hnone, htold, Multiset.coe_card, FailedCompile.length_flatMap_events, hcount]
  · rw [List.countP_eq_zero]
    exact System.not_isMistaken_run (System.isCalm_start d callers) hcalm

/-- A call on a thread that is unwinding, whose compiler reports an error, and then one whose
compiler panics. -/
def failingWhileUnwinding : List (Label Nat Nat) :=
  let advances (n : Nat) : List (Label Nat Nat) := List.replicate n (.caller 0 .advance)
  [.caller 0 (.invoke ⟨0⟩ true)] ++ advances 7 ++
    [.caller 0 .beginCompile, .caller 0 (.endCompile (.error "out of registers"))] ++
    advances 4 ++ [.caller 0 .leave, .caller 0 (.invoke ⟨0⟩ true)] ++ advances 6 ++
    [.caller 0 .beginCompile, .caller 0 (.endCompile (.panic .other))] ++ advances 3 ++
    [.caller 0 .leave]

theorem error_while_unwinding_told_twice_failingWhileUnwinding :
    let d : Dispatcher Nat := .ofConfig (.withThresholds 1 5)
    let failed := (System.start d 1).failedCompiles failingWhileUnwinding
    ∃ s, (System.start d 1).run failingWhileUnwinding = some s ∧
      failed = [⟨⟨⟨0⟩, .l1⟩, .error "out of registers", true⟩, ⟨⟨⟨0⟩, .l1⟩, .panic .other, true⟩] ∧
      s.dispatcher.failureLog = Multiset.ofList (failed.flatMap (·.events)) ∧
      s.dispatcher.metrics.compilationFailures = 3 := by
  intro d failed
  have hstart : Dispatcher.start (.withThresholds 1 5) = .ok d := rfl
  have hruns : ((System.start d 1).run failingWhileUnwinding).any (·.isQuiet) := by decide +kernel
  obtain ⟨s, hrun, hquiet⟩ := (Option.any_eq_true _ _).mp hruns
  obtain ⟨-, htold, hdone, hcount, -⟩ := error_while_unwinding_told_twice hstart rfl hrun
  have hnone := hdone hquiet
  rw [hnone, add_zero] at htold
  refine ⟨s, hrun, by decide +kernel, htold, (hcount hnone).trans ?_⟩
  decide +kernel

/-- Two compile calls fail, and three failures are counted. -/
theorem failingWhileUnwinding_counted_thrice :
    let d : Dispatcher Nat := .ofConfig (.withThresholds 1 5)
    let r : Request := ⟨⟨0⟩, .l1⟩
    ((System.start d 1).history failingWhileUnwinding).failures r = 2 ∧
    ∃ s, (System.start d 1).run failingWhileUnwinding = some s ∧ s.isQuiet ∧
      s.dispatcher.metrics.compilationFailures = 3 ∧
      s.dispatcher.events.filter (Meter.counts .failures) =
        [.compilerPanicked r, .compilationFailed r "out of registers", .compilerPanicked r] := by
  intro d r
  have hruns : ((System.start d 1).run failingWhileUnwinding).any (fun s =>
      s.isQuiet ∧ s.dispatcher.metrics.compilationFailures = 3 ∧
        s.dispatcher.events.filter (Meter.counts .failures) =
          [.compilerPanicked r, .compilationFailed r "out of registers", .compilerPanicked r]) := by
    decide +kernel
  obtain ⟨s, hrun, hread⟩ := (Option.any_eq_true _ _).mp hruns
  exact ⟨by decide +kernel, s, hrun, of_decide_eq_true hread⟩

end TieredDispatch

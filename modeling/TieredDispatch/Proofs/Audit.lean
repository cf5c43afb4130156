import TieredDispatch.Proofs.Jobs

/-!
# The log and the meters

What four of the meters count is also **reported**: denials, failures and superseded artifacts in
the very step that counts them, and compilations when the artifact has been offered to the cache.
So each of these meters shows what the log tells, and the compilations that are counted and not
reported yet (`System.audited_of_run`). This holds in every run, whatever the host does.
-/

namespace TieredDispatch

variable {α β : Type}

/-! ## What a meter has in the log -/

namespace Meter

/-- Whether what the meter counts is reported. -/
def isReported : Meter → Bool
  | compilations _ | failures | denials | superseded => true
  | interpretations | executions | queued => false

/-- Whether the event reports what the meter counts. -/
def counts : Meter → Event → Bool
  | compilations tier, .compiled r | compilations tier, .superseded r => r.tier = tier
  | failures, .compilationFailed _ _ | failures, .compilerPanicked _ => true
  | denials, .alreadyRequested _ _ | superseded, .superseded _ => true
  | _, _ => false

/-- What is counted is about a method and a tier. -/
theorem counts_eq_false_of_request? {event : Event} (h : event.request? = none) (k : Meter) :
    k.counts event = false := by
  cases event with
  | invertedThresholds | workerPanicked => cases k <;> rfl
  | _ => cases h

end Meter

/-- Whether the meter has counted the artifact of the job, and that is still to be reported. -/
def CompileJob.owes (k : Meter) (job : CompileJob α) : Bool :=
  match job.stage with
  | .counted _ | .recorded _ | .superseded => k = .compilations job.request.tier
  | _ => false

/-! ## What a step counts and reports -/

/-- What a step of a job counts, it reports or still owes. -/
theorem CompileJob.audit_advance (job : CompileJob α) (unwinding : Bool) (d : Dispatcher α)
    (k : Meter) :
    (job.meter?.any (· = k)).toNat + (job.owes k).toNat =
      (job.report? unwinding d).toList.countP k.counts +
        ((job.advance unwinding d).1.owes k).toNat := by
  obtain ⟨⟨m, tier⟩, stage⟩ := job
  cases stage with
  | holding | compiling | counted _ | failed _ | done _ => rfl
  | compiled artifact =>
    simp [meter?, owes, report?, advance, eq_comm (a := k)]
  | recorded artifact =>
    by_cases htaken : (d.cache.place m ⟨tier, artifact⟩).1
    · simp only [meter?, owes, report?, advance, htaken, if_true]
      cases k with
      | compilations other =>
        by_cases hother : tier = other <;> simp [Meter.counts, hother, eq_comm]
      | _ => rfl
    · simp [meter?, owes, report?, advance, htaken]
  | superseded =>
    simp only [meter?, owes, report?, advance]
    cases k with
    | compilations other => by_cases hother : tier = other <;> simp [Meter.counts, hother, eq_comm]
    | _ => rfl
  | released cause =>
    cases cause with
    | error reason => cases unwinding <;> cases k <;> rfl
    | panic payload => cases k <;> rfl
  | charged reason => cases k <;> rfl

/-- A job that begins or ends its compile call owes nothing. -/
theorem CompileJob.owes_compiler {job : CompileJob α} (h : job.turn = .compiler) (k : Meter) :
    job.owes k = false ∧ job.begin.owes k = false ∧
      ∀ outcome, (job.conclude outcome).owes k = false := by
  obtain ⟨r, stage⟩ := job
  cases stage with
  | holding => exact ⟨rfl, rfl, fun _ => rfl⟩
  | compiling => exact ⟨rfl, rfl, fun outcome => by cases outcome <;> rfl⟩
  | _ => cases h

/-- A call that hands a request on, or keeps it, has counted nothing. -/
theorem Call.countP_reports_promoting {c : Call α β} {tier : Tier} {count : UInt64}
    (hstage : c.stage = .promoting tier count) (d : Dispatcher α) (k : Meter) :
    (c.reports d).countP k.counts = 0 := by
  rw [List.countP_eq_zero]
  intro event hevent
  simp only [reports, hstage, List.mem_append, List.mem_ite_nil_right, List.mem_singleton] at hevent
  rcases hevent with ⟨-, rfl⟩ | rfl <;> cases k <;> simp [Meter.counts]

/-- A call without a job reports what it counts. -/
theorem Call.audit_advance {c : Call α β} (hnone : c.job? = none) (d : Dispatcher α) {k : Meter}
    (hk : k.isReported) :
    (c.meter?.any (· = k)).toNat = (c.reports d).countP k.counts := by
  obtain ⟨m, unwinding, stage⟩ := c
  cases stage with
  | denied tier count => cases k <;> rfl
  | queued => cases k <;> first | rfl | cases hk
  | entering found => cases found <;> cases k <;> first | rfl | cases hk
  | promoting tier count =>
    rw [countP_reports_promoting rfl]
    rfl
  | compiling job => cases hnone
  | _ => rfl

/-- What a step counts, it reports or still owes. -/
theorem JobStep.audit {d : Dispatcher α} {μ? : Option (Milestone α)}
    {job? next? : Option (CompileJob α)} {k? : Option Meter} {events : List Event}
    (h : JobStep d μ? job? k? events next?) {k : Meter} (hk : k.isReported) :
    (k?.any (· = k)).toNat + (job?.any (CompileJob.owes k)).toNat =
      events.countP k.counts + (next?.any (CompileJob.owes k)).toNat := by
  cases h with
  | still | take => rfl
  | call c hbefore hafter => rw [Call.audit_advance hbefore d hk]
  | keep c hstage =>
    rw [Call.countP_reports_promoting hstage]
    rfl
  | begin hturn hidle =>
    obtain ⟨hjob, hnext, -⟩ := CompileJob.owes_compiler hturn k
    rw [Option.any_some, Option.any_some, hjob, hnext]
    rfl
  | conclude outcome hturn hbusy =>
    obtain ⟨hjob, -, hnext⟩ := CompileJob.owes_compiler hturn k
    rw [Option.any_some, Option.any_some, hjob, hnext]
    rfl
  | @advance job unwinding hturn => exact job.audit_advance unwinding d k
  | @finish job failure events hturn hevents =>
    have hsilent : events.countP k.counts = 0 := by
      rw [List.countP_eq_zero]
      intro event hevent
      obtain ⟨payload, rfl⟩ := hevents event hevent
      cases k <;> simp [Meter.counts]
    obtain ⟨r, rfl⟩ := CompileJob.exists_done_of_turn hturn
    rw [hsilent]
    rfl

theorem Metrics.value_elim_bump (metrics : Metrics) (k? : Option Meter) (k : Meter) :
    (k?.elim metrics metrics.bump).value k =
      metrics.value k + UInt64.ofNat (k?.any (· = k)).toNat := by
  cases k? with
  | none => simp
  | some j =>
    rw [Option.elim_some, value_bump, Option.any_some]
    by_cases hj : j = k <;> simp [hj]

/-! ## Runs -/

/-- Each meter whose counts are reported shows what is in the log and what is still to be
reported. -/
def System.Audited (s : System α β) : Prop :=
  ∀ k, k.isReported = true → s.dispatcher.metrics.value k =
    UInt64.ofNat (s.dispatcher.log.countP k.counts + s.jobs.countP (·.owes k))

namespace System

variable {s t : System α β}

theorem audited_step {label : Label α β} (hstep : s.step label = some t) (h : s.Audited) :
    t.Audited := by
  intro k hk
  obtain ⟨job?, k?, events, next?, others, hjob, hbefore, hafter, hmetrics, hlog⟩ :=
    jobStep_of_step hstep
  have hbalance := hjob.audit hk
  rw [hmetrics, Metrics.value_elim_bump, h k hk, ← UInt64.ofNat_add, hlog, hbefore, hafter,
    countP_toList_add, countP_toList_add, List.countP_append]
  congr 1
  omega

theorem audited_start {config : TierConfig} {d : Dispatcher α}
    (hstart : Dispatcher.start config = .ok d) (callers : Nat) :
    (start d callers : System α β).Audited := by
  intro k hk
  have hnone : d.log.countP k.counts = 0 := by
    rw [List.countP_eq_zero]
    intro event hevent
    rw [Meter.counts_eq_false_of_request?
      (Dispatcher.request?_of_mem_log_start hstart event hevent)]
    exact Bool.false_ne_true
  have hmetrics : d.metrics = {} := by
    obtain ⟨log, rfl⟩ := Dispatcher.eq_of_start hstart
    rfl
  rw [jobs_of_start hstart]
  change d.metrics.value k = UInt64.ofNat (d.log.countP k.counts + 0)
  rw [hnone, hmetrics]
  exact Metrics.Shows.zero k

/-- **The meters show what the log tells.** In every run, each of the meters for compilations,
failures, denials and superseded artifacts shows how often its events are in the log, and what is
counted and still to be reported. -/
theorem audited_of_run {config : TierConfig} {d : Dispatcher α} {callers : Nat}
    {labels : List (Label α β)} (hstart : Dispatcher.start config = .ok d)
    (hrun : (start d callers).run labels = some s) : s.Audited :=
  run_induction audited_step hrun (audited_start hstart callers)

end System

end TieredDispatch

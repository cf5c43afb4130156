import TieredDispatch.Proofs.Exchange
import TieredDispatch.Proofs.Outline
import TieredDispatch.Proofs.Reports

/-!
# Compile jobs in progress

The **jobs** of a system are the compile jobs of its calls and of its workers. A step of the system
concerns one job at most. `JobStep` lists what can become of it, each with the milestone, the meter
that is moved on and the events that are reported; every step is one of these
(`System.jobStep_of_step`), so a law that relates jobs, metrics and log has one case for each.
-/

namespace TieredDispatch

variable {α β : Type}

/-- The compile job of a piece of work, if it has one. -/
def Work.job? : Work α β → Option (CompileJob α)
  | call c => c.job?
  | job j => some j
  | queued _ => none

/-- The compile jobs of some work. -/
def Work.jobs (w : Multiset (Work α β)) : Multiset (CompileJob α) :=
  w.filterMap job?

/-- All compile jobs in a system. -/
def System.jobs (s : System α β) : Multiset (CompileJob α) :=
  Work.jobs s.work

/-- Whether the job has an artifact that is on its way into the cache, or is still to be reported as
published or as superseded. -/
def CompileJob.isPublishing (job : CompileJob α) : Bool :=
  match job.stage with
  | .compiled _ | .counted _ | .recorded _ | .superseded => true
  | .holding | .compiling | .failed _ | .released _ | .charged _ | .done _ => false

theorem Work.jobs_add (v w : Multiset (Work α β)) : jobs (v + w) = jobs v + jobs w :=
  Multiset.filterMap_add job? v w

theorem Work.jobs_singleton (w : Work α β) : jobs {w} = Multiset.ofList w.job?.toList := by
  change Multiset.ofList ([w].filterMap job?) = _
  cases h : w.job? <;> simp [h]

/-- A request that is handed over has no job yet. -/
theorem Work.jobs_queued (r? : Option Request) :
    jobs (Multiset.ofList (r?.map (queued (α := α) (β := β))).toList) = 0 := by
  cases r? <;> rfl

theorem Work.jobs_map_queued (queue : List Request) :
    jobs (Multiset.ofList (queue.map (queued (α := α) (β := β)))) = 0 := by
  change Multiset.ofList ((queue.map queued).filterMap job?) = 0
  rw [List.filterMap_map]
  exact congrArg _ (List.filterMap_eq_nil_iff.mpr fun _ _ => rfl)

/-- A worker that is lost has no job any more. The others have theirs. -/
theorem Pool.jobs_lose {pool : Pool (CompileJob α)} {worker : Nat} {job : CompileJob α}
    (h : pool.jobOf? worker = some job) (payload : PanicPayload) :
    Work.jobs (pool.work : Multiset (Work α β)) =
      {job} + Work.jobs ((pool.lose worker payload).work : Multiset (Work α β)) := by
  obtain ⟨w, hw, hjob⟩ := Option.bind_eq_some_iff.mp h
  obtain ⟨frame, hold, hnew⟩ := flatMap_set (Worker.work (β := β)) hw
  have hwork : (w.work : List (Work α β)) = [.job job] := by simp [Worker.work, hjob]
  have hlost : ((pool.lose worker payload).work : Multiset (Work α β)) =
      Multiset.ofList ((pool.lose worker payload).queue.map .queued) + (0 + frame) :=
    congrArg _ (hnew (.lost payload))
  rw [hlost, work, hold, hwork, Work.jobs_add, Work.jobs_add, Work.jobs_add, Work.jobs_map_queued,
    Work.jobs_map_queued, zero_add, zero_add, zero_add]
  rfl

theorem System.jobs_of_start {config : TierConfig} {d : Dispatcher α}
    (h : Dispatcher.start config = .ok d) (callers : Nat) :
    (System.start d callers : System α β).jobs = 0 := by
  rw [jobs, work_of_start h]
  rfl

/-- What a step does to a job: the milestone, the job before, the meter that is moved on, the events
that are reported, newest first, and the job after. -/
inductive JobStep (d : Dispatcher α) : Option (Milestone α) → Option (CompileJob α) →
    Option Meter → List Event → Option (CompileJob α) → Prop
  /-- A call is made, run or left, or a worker leaves. -/
  | still (μ? : Option (Milestone α)) (hμ : ∀ μ ∈ μ?, μ.isCall) : JobStep d μ? none none [] none
  /-- A call goes on, and does not compile. -/
  | call {β : Type} (c : Call α β) (hbefore : c.job? = none)
      (hafter : (c.advance d).1.job? = none) :
      JobStep d (c.milestone? d) none c.meter? (c.reports d) none
  /-- A call compiles its request itself. -/
  | keep {β : Type} (c : Call α β) {tier : Tier} {count : UInt64}
      (hstage : c.stage = .promoting tier count) :
      JobStep d none none none (c.reports d) (some (.hold ⟨c.method, tier⟩))
  /-- A worker takes a request. -/
  | take (r : Request) : JobStep d none none none [] (some (.hold r))
  | begin {job : CompileJob α} (hturn : job.turn = .compiler) (hidle : job.isCompiling = false) :
      JobStep d (some (.started job.request)) (some job) none [] (some job.begin)
  | conclude {job : CompileJob α} (outcome : Outcome α) (hturn : job.turn = .compiler)
      (hbusy : job.isCompiling = true) :
      JobStep d (some (.ended job.request outcome)) (some job) none [] (some (job.conclude outcome))
  | advance {job : CompileJob α} (unwinding : Bool) (hturn : job.turn = .dispatcher) :
      JobStep d job.milestone? (some job) job.meter? (job.report? unwinding d).toList
        (some (job.advance unwinding d).1)
  /-- A job is done. On a worker, a panic ends in the log. -/
  | finish {job : CompileJob α} {failure : Option CompileFailure} (events : List Event)
      (hturn : job.turn = .ended failure)
      (hevents : ∀ event ∈ events, ∃ payload, event = .requestPanicked job.request payload) :
      JobStep d none (some job) none events none

/-- What a step of the dispatcher on a call does to a job. -/
theorem Call.jobStep_advance (c : Call α β) (d : Dispatcher α) (hturn : c.turn = .dispatcher) :
    JobStep d (c.milestone? d) c.job? c.meter? (c.reports d) (c.advance d).1.job? := by
  obtain ⟨stage, hnext, hstep⟩ := c.exists_stageStep d hturn
  obtain ⟨m, unwinding, before⟩ := c
  have hjob := congrArg job? hnext
  rw [hjob]
  cases hstep with
  | hold tier count => exact .keep ⟨m, unwinding, .promoting tier count⟩ rfl
  | job hdispatcher => exact .advance unwinding hdispatcher
  | succeed | fail | unwind => exact .finish [] rfl (by simp)
  | _ => exact .call _ rfl hjob

/-- What a move does to a job. -/
theorem Move.jobStep {μ? : Option (Milestone α)} {before after : Multiset (Work α β)}
    {d d' : Dispatcher α} (h : Move μ? before d after d') :
    ∃ job? k? events next?, JobStep d μ? job? k? events next? ∧
      Work.jobs before = Multiset.ofList job?.toList ∧
      Work.jobs after = Multiset.ofList next?.toList ∧
      d'.metrics = k?.elim d.metrics d.metrics.bump ∧ d'.log = events ++ d.log := by
  cases h with
  | invoke _ m unwinding =>
    exact ⟨none, none, [], none, .still _ (by simp [Milestone.isCall]), rfl, rfl, rfl, rfl⟩
  | @advance c _ hturn =>
    have hjobs : Work.jobs ({.call (c.advance d).1} +
        Multiset.ofList ((c.submits? d).map .queued).toList) =
        Multiset.ofList (c.advance d).1.job?.toList := by
      rw [Work.jobs_add, Work.jobs_singleton, Work.jobs_queued, add_zero]
      rfl
    rw [hjobs, Work.jobs_singleton, c.metrics_advance, c.log_advance]
    exact ⟨c.job?, c.meter?, c.reports d, (c.advance d).1.job?, c.jobStep_advance d hturn, rfl, rfl,
      rfl, rfl⟩
  | @beginCompile c job _ hturn hidle =>
    obtain ⟨m, unwinding, stage⟩ := c
    obtain ⟨rfl, hjob⟩ := Call.stage_of_turn_compiler hturn
    exact ⟨_, _, _, _, .begin hjob hidle, rfl, rfl, rfl, rfl⟩
  | @endCompile c job _ outcome hturn hbusy =>
    obtain ⟨m, unwinding, stage⟩ := c
    obtain ⟨rfl, hjob⟩ := Call.stage_of_turn_compiler hturn
    exact ⟨_, _, _, _, .conclude outcome hjob hbusy, rfl, rfl, rfl, rfl⟩
  | @endRun c found _ outcome hturn =>
    obtain ⟨m, unwinding, stage⟩ := c
    obtain rfl := Call.stage_of_turn_engine hturn
    exact ⟨none, none, [], none, .still none nofun, rfl, rfl, rfl, rfl⟩
  | @leave c result _ hturn =>
    obtain ⟨m, unwinding, stage⟩ := c
    obtain rfl := Call.stage_of_turn_ended hturn
    exact ⟨none, none, [], none, .still none nofun, rfl, rfl, rfl, rfl⟩
  | take _ r pool => exact ⟨_, _, _, _, .take r, rfl, rfl, rfl, rfl⟩
  | @beginJob job _ pool hturn hidle => exact ⟨_, _, _, _, .begin hturn hidle, rfl, rfl, rfl, rfl⟩
  | @endJob job _ pool outcome hturn hbusy =>
    exact ⟨_, _, _, _, .conclude outcome hturn hbusy, rfl, rfl, rfl, rfl⟩
  | @advanceJob job _ pool hturn =>
    exact ⟨_, _, _, _, .advance false hturn, rfl, rfl, job.metrics_advance false d,
      job.log_advance false d⟩
  | @finish job failure _ worker hturn =>
    unfold Dispatcher.finishJob
    split
    · exact ⟨_, none, _, none, .finish [_] hturn (by simp), rfl, rfl, rfl, rfl⟩
    · exact ⟨_, none, _, none, .finish [] hturn nofun, rfl, rfl, rfl, rfl⟩
  | repool _ pool => exact ⟨none, none, [], none, .still _ nofun, rfl, rfl, rfl, rfl⟩

/-- One step as the jobs see it: what becomes of one of them, with the others, the metrics and the
log. -/
structure System.JobsStep (s t : System α β) (μ? : Option (Milestone α))
    (job? : Option (CompileJob α)) (k? : Option Meter) (events : List Event)
    (next? : Option (CompileJob α)) (others : Multiset (CompileJob α)) : Prop where
  job : JobStep s.dispatcher μ? job? k? events next?
  before : s.jobs = Multiset.ofList job?.toList + others
  after : t.jobs = Multiset.ofList next?.toList + others
  metrics : t.dispatcher.metrics = k?.elim s.dispatcher.metrics s.dispatcher.metrics.bump
  log : t.dispatcher.log = events ++ s.dispatcher.log

/-- **A step concerns one job at most.** -/
theorem System.jobStep_of_step {s t : System α β} {label : Label α β}
    (hstep : s.step label = some t) :
    ∃ job? k? events next? others,
      s.JobsStep t (s.milestone? label) job? k? events next? others := by
  by_cases hown : label.isOwn
  · obtain ⟨before, after, frame, hbefore, hafter, hmove⟩ := step_work hown hstep
    obtain ⟨job?, k?, events, next?, hjob, hjobs, hjobs', hmetrics, hlog⟩ := hmove.jobStep
    refine ⟨job?, k?, events, next?, Work.jobs frame, hjob, ?_, ?_, hmetrics, hlog⟩
    · rw [jobs, hbefore, Work.jobs_add, hjobs]
    · rw [jobs, hafter, Work.jobs_add, hjobs']
  · cases systemStep_of_step hstep with
    | direct operation =>
      exact ⟨none, none, [], none, s.jobs, .still none nofun, (zero_add _).symm, (zero_add _).symm,
        rfl, rfl⟩
    | @lose i pool r payload hpool hjob =>
      let job : CompileJob α := ⟨r, .done (some (.panic .other))⟩
      refine ⟨some job, none, [.requestPanicked r .other], none, _, .finish _ rfl (by simp [job]),
        ?_, (zero_add _).symm, rfl, rfl⟩
      rw [jobs, jobs, work, work, Work.jobs_add, Work.jobs_add, Dispatcher.work_of_pool hpool,
        Pool.jobs_lose hjob payload, add_left_comm]
      rfl
    | _ => exact absurd rfl hown

/-- How many of the jobs are of a kind, with one of them singled out. -/
theorem countP_toList_add (kind : CompileJob α → Bool) (job? : Option (CompileJob α))
    (others : Multiset (CompileJob α)) :
    Multiset.countP (kind ·) (Multiset.ofList job?.toList + others) =
      (job?.any kind).toNat + others.countP (kind ·) := by
  rw [Multiset.countP_add]
  cases job? with
  | none => simp
  | some job => rw [Option.toList_some, Multiset.coe_singleton, countP_one, Option.any_some]

end TieredDispatch

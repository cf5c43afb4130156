import TieredDispatch.Proofs.Driving
import TieredDispatch.Proofs.Queueing
import TieredDispatch.Proofs.Reports
import TieredDispatch.Proofs.Returning
import TieredDispatch.Simulation.Threads

/-!
# A session on threads

A session carries out one call at a time, and its background compilations in between. A workload on
threads can do the same: a schedule lets one thread or one worker move until its call or its job
is done. So whatever a session comes to, a workload on threads can come to as well
(`ThreadedWorkload.Reaches`): the end of a call on a thread (`Reaches.drive`), the end of a job on a
worker (`Reaches.driveJob`), and a drained pool (`Reaches.drain`).

The log is kept out of this. A workload takes it away from the dispatcher now and then, and no step
depends on it (`Call.advance_withLog`, `CompileJob.advance_with`).
-/

namespace TieredDispatch

/-! ## The log is kept apart -/

section Log

variable {α β : Type}

/-- The dispatcher with another log. -/
def Dispatcher.withLog (d : Dispatcher α) (log : List Event) : Dispatcher α :=
  { d with log }

/-- The end of a job is told in the log, or nowhere. -/
theorem Dispatcher.finishJob_withLog (d : Dispatcher α) (worker : Nat) (r : Request)
    (failure : Option CompileFailure) (log : List Event) :
    (d.finishJob worker r failure).withLog log =
      ({ d with pool := d.pool.map (·.finish worker) } : Dispatcher α).withLog log := by
  rcases failure with _ | ⟨_ | _⟩ <;> rfl

/-- A job does not depend on the pool and on the log. -/
theorem CompileJob.advance_with (job : CompileJob α) (unwinding : Bool) (d : Dispatcher α)
    (pool : Option (Pool (CompileJob α))) (log : List Event) :
    job.advance unwinding { d with pool, log } =
      ((job.advance unwinding d).1,
        { (job.advance unwinding d).2 with
          pool, log := (job.report? unwinding d).toList ++ log }) := by
  obtain ⟨r, stage⟩ := job
  cases stage with
  | recorded artifact =>
    by_cases htaken : (d.cache.place r.method ⟨r.tier, artifact⟩).1
    · simp only [advance, report?, htaken, if_true]
      rfl
    · simp only [advance, report?, htaken]
      rfl
  | released cause =>
    cases cause with
    | error reason => cases unwinding <;> rfl
    | panic payload => rfl
  | _ => rfl

/-- A call does not depend on the log. -/
theorem Call.advance_withLog (c : Call α β) (d : Dispatcher α) (log : List Event) :
    c.advance (d.withLog log) =
      ((c.advance d).1, (c.advance d).2.withLog (c.reports d ++ log)) := by
  obtain ⟨m, unwinding, stage⟩ := c
  cases stage with
  | arriving =>
    by_cases hprobe : d.counter.probe m <;> simp [advance, Dispatcher.withLog, hprobe, reports]
  | inspecting count requested =>
    simp only [advance, Dispatcher.withLog, Dispatcher.policy, reports, List.nil_append]
    split <;> rfl
  | claiming tier count =>
    by_cases hgrants : (d.cache.requested m).grants tier <;>
      simp [advance, Dispatcher.withLog, CompilationCache.request_fst, hgrants, reports]
  | promoting tier count =>
    obtain ⟨config, counter, cache, metrics, pool, _⟩ := d
    cases pool with
    | none => rfl
    | some pool =>
      cases hsend : pool.send ⟨m, tier⟩ <;>
        simp [advance, reports, Dispatcher.report, Dispatcher.withLog, hsend]
  | compiling job =>
    cases hturn : job.turn with
    | ended failure =>
      obtain ⟨r, rfl⟩ := CompileJob.exists_done_of_turn hturn
      rcases failure with _ | ⟨_ | _⟩ <;> rfl
    | dispatcher | compiler =>
      have hpool := job.pool_advance unwinding d
      have hjob := job.advance_with unwinding d d.pool log
      simp only [advance, hturn, Dispatcher.withLog, hjob, reports, hpool]
  | _ => rfl

/-- No step of a call is taken by the workers. -/
theorem Call.workers_advance (c : Call α β) (d : Dispatcher α) :
    (c.advance d).2.pool.map (·.workers) = d.pool.map (·.workers) := by
  obtain ⟨metrics, log, h⟩ := c.advance_snd d
  rw [h]
  obtain ⟨m, unwinding, stage⟩ := c
  cases stage with
  | promoting tier count =>
    cases hpool : d.pool with
    | none => rfl
    | some pool =>
      simp only [poolAfter, Option.bind_some, Pool.send]
      split <;> rfl
  | _ => rfl

end Log

/-! ## Where the compiler is not at work -/

section Idle

variable {α β : Type} {job : CompileJob α}

theorem CompileJob.isCompiling_of_turn (h : job.turn ≠ .compiler) : job.isCompiling = false := by
  obtain ⟨r, stage⟩ := job
  cases stage with
  | compiling => exact absurd rfl h
  | _ => rfl

/-- Once the compiler has answered, it is not called again. -/
theorem CompileJob.turn_answered (hturn : job.turn = .compiler) (outcome : Outcome α) :
    (job.begin.conclude outcome).turn ≠ .compiler := by
  obtain ⟨r, stage⟩ := job
  cases stage with
  | holding | compiling => cases outcome <;> simp [begin, conclude, turn]
  | _ => cases hturn

theorem Call.compiling?_answered {c : Call α β} (hturn : c.turn = .compiler job)
    (outcome : Outcome α) : (c.beginCompile.concludeCompile outcome).compiling? = none := by
  obtain ⟨m, unwinding, stage⟩ := c
  obtain ⟨rfl, hjob⟩ := Call.stage_of_turn_compiler hturn
  obtain ⟨r, stage⟩ := job
  cases stage with
  | holding | compiling => cases outcome <;> rfl
  | _ => cases hjob

end Idle

/-! ## Jobs in a pool -/

namespace Pool

variable {J : Type} {pool : Pool J} {worker : Nat} {job : J}

theorem getElem?_of_jobOf? (hjob : pool.jobOf? worker = some job) :
    pool.workers[worker]? = some (.busy job) := by
  obtain ⟨w, hw, hbusy⟩ := Option.bind_eq_some_iff.mp hjob
  cases w with
  | busy held => rw [hw, Option.some.inj hbusy]
  | free | stopped | lost _ => cases hbusy

theorem setJob_of_jobOf? (hjob : pool.jobOf? worker = some job) :
    pool.setJob worker job = pool := by
  obtain ⟨hlt, hw⟩ := List.getElem?_eq_some_iff.mp (getElem?_of_jobOf? hjob)
  rw [setJob, ← hw, List.set_getElem_self]

theorem setJob_setJob (pool : Pool J) (worker : Nat) (job next : J) :
    (pool.setJob worker job).setJob worker next = pool.setJob worker next := by
  simp [setJob]

theorem jobOf?_of_findBusy? {p : J → Bool} (h : pool.findBusy? p = some (worker, job)) :
    pool.jobOf? worker = some job := by
  obtain ⟨k, -, h⟩ := Option.bind_eq_some_iff.mp h
  obtain ⟨held, hheld, h⟩ := Option.bind_eq_some_iff.mp h
  cases h
  exact hheld

/-- A worker that takes a request was free, and holds it then. -/
theorem eq_of_take {start : Request → J} {r : Request} {pool' : Pool J}
    (htake : pool.take worker start = some (r, pool')) :
    pool.jobOf? worker = none ∧
      pool'.workers = pool.workers.set worker (.busy (start r)) := by
  unfold take at htake
  split at htake
  · rename_i hworker _
    cases htake
    exact ⟨by simp [jobOf?, hworker, Worker.job?], rfl⟩
  · cases htake

end Pool

/-! ## What a workload comes to -/

/-- Whether a call is counted as failed. -/
def CallResult.isFailed {β : Type} : CallResult β → Bool
  | failed _ => true
  | output _ | panicked _ => false

namespace ThreadedWorkload

theorem run_append (w : ThreadedWorkload) (before after : List Mover) :
    w.run (before ++ after) = (w.run before).bind (·.run after) := by
  induction before generalizing w with
  | nil => rfl
  | cons mover before ih =>
    simp only [List.cons_append, run]
    cases w.step mover with
    | none => rfl
    | some w₁ => exact ih w₁

theorem run_singleton (w : ThreadedWorkload) (mover : Mover) : w.run [mover] = w.step mover := by
  rw [run]
  cases w.step mover <;> rfl

/-- A workload on threads at a moment when the compiler is not at work: a session, with what the
dispatcher reported, the calls in progress, the methods still to be invoked, and the calls that
failed so far. -/
def ofSession (options : Options) (s : SimSession) (log : List Event)
    (callers : List (List (Call SimArtifact UInt64))) (picks : List (List MethodId))
    (failedCalls : Nat) : ThreadedWorkload where
  options
  system := ⟨s.dispatcher.withLog log, callers⟩
  compiler := s.host
  picks
  failedCalls

/-- Some schedule leads a workload to a session, with these calls in progress, these methods still
to be invoked and so many failed calls, whatever was reported. -/
def Reaches (w : ThreadedWorkload) (s : SimSession)
    (callers : List (List (Call SimArtifact UInt64))) (picks : List (List MethodId))
    (failed : Nat) : Prop :=
  ∃ schedule log, w.run schedule = some (ofSession w.options s log callers picks failed)

variable {w : ThreadedWorkload} {s s' : SimSession}
  {callers callers' : List (List (Call SimArtifact UInt64))} {picks picks' : List (List MethodId)}
  {failed failed' : Nat}

theorem Reaches.run (h : w.Reaches s callers picks failed) (schedule : List Mover)
    (hrun : ∀ log, ∃ log', (ofSession w.options s log callers picks failed).run schedule =
      some (ofSession w.options s' log' callers' picks' failed')) :
    w.Reaches s' callers' picks' failed' := by
  obtain ⟨before, log, hbefore⟩ := h
  obtain ⟨log', hrun⟩ := hrun log
  exact ⟨before ++ schedule, log', by rw [run_append, hbefore, Option.bind_some, hrun]⟩

/-- What was reported does not matter. -/
theorem Reaches.congr (h : w.Reaches s callers picks failed)
    (hdispatcher : s'.dispatcher.withLog [] = s.dispatcher.withLog []) (hhost : s'.host = s.host) :
    w.Reaches s' callers picks failed := by
  obtain ⟨schedule, log, hrun⟩ := h
  refine ⟨schedule, log, hrun.trans ?_⟩
  have hlog := congrArg (·.withLog log) hdispatcher
  change s'.dispatcher.withLog log = s.dispatcher.withLog log at hlog
  rw [ofSession, ofSession, hlog, hhost]

/-! ## A call on a thread -/

section Thread

variable {i : Nat} {c : Call SimArtifact UInt64} (h : w.Reaches s callers picks failed)
  (hcalls : callers[i]? = some [c])

include h hcalls

theorem Reaches.advance (hturn : c.turn = .dispatcher) :
    w.Reaches ⟨(c.advance s.dispatcher).2, s.host⟩ (callers.set i [(c.advance s.dispatcher).1])
      picks failed := by
  refine h.run [.thread i] fun log => ⟨c.reports s.dispatcher ++ log, ?_⟩
  simp only [run_singleton, step, stepThread, ofSession, hcalls, Option.bind_eq_bind,
    Option.bind_some, hturn, go, System.step, CallerMove.apply, c.advance_withLog]

/-- The compiler is called and answers. -/
theorem Reaches.compile {job : CompileJob SimArtifact} (hturn : c.turn = .compiler job)
    (hidle : job.isCompiling = false) :
    w.Reaches ⟨s.dispatcher, (s.host.compile job.request).2⟩
      (callers.set i
        [c.beginCompile.concludeCompile (.ofExcept (s.host.compile job.request).1)])
      picks failed := by
  obtain ⟨hlt, hi⟩ := List.getElem?_eq_some_iff.mp hcalls
  obtain ⟨m, unwinding, stage⟩ := c
  obtain ⟨rfl, hjob⟩ := Call.stage_of_turn_compiler hturn
  obtain ⟨r, stage⟩ := job
  cases stage with
  | holding =>
    refine h.run [.thread i, .thread i] fun log => ⟨log, ?_⟩
    simp [ThreadedWorkload.run, step, stepThread, ofSession, hi, Call.turn, CompileJob.turn,
      CompileJob.isCompiling, ask, go, System.step, CallerMove.apply, Call.beginCompile,
      CompileJob.begin, hlt, answer?, hear, Call.concludeCompile]
  | compiling => cases hidle
  | _ => cases hjob

/-- The engine runs, and the call is left. -/
theorem Reaches.execute {found : Option (CompiledMethod SimArtifact)}
    (hturn : c.turn = .engine found) : w.Reaches s (callers.set i []) picks failed := by
  obtain ⟨hlt, hi⟩ := List.getElem?_eq_some_iff.mp hcalls
  obtain ⟨m, unwinding, stage⟩ := c
  obtain rfl := Call.stage_of_turn_engine hturn
  refine h.run [.thread i, .thread i] fun log => ⟨log, ?_⟩
  simp [ThreadedWorkload.run, step, stepThread, ofSession, hi, Call.turn, go, System.step,
    CallerMove.apply, Call.concludeRun, Call.runResult, hlt, note]

/-- A call that returned is left, and counted if it failed. -/
theorem Reaches.leave {result : CallResult UInt64} (hturn : c.turn = .ended result) :
    w.Reaches s (callers.set i []) picks (failed + result.isFailed.toNat) := by
  refine h.run [.thread i] fun log => ⟨log, ?_⟩
  cases result <;>
    simp [run_singleton, step, stepThread, ofSession, hcalls, hturn, go, System.step,
      CallerMove.apply, note, CallResult.isFailed]

end Thread

/-- A thread that has no call in progress makes the next one. -/
theorem Reaches.invoke {i : Nat} {m : MethodId} {rest : List MethodId}
    (h : w.Reaches s callers picks failed) (hcallers : callers[i]? = some [])
    (hpicks : picks[i]? = some (m :: rest)) :
    w.Reaches s (callers.set i [.arrive m false]) (picks.set i rest) failed := by
  refine h.run [.thread i] fun log => ⟨log, ?_⟩
  simp [run_singleton, step, stepThread, ofSession, hcallers, hpicks, go, System.step,
    CallerMove.apply, CallerMove.mayInvoke]

/-! ## The simulated host -/

section Host

variable {caller : Option (Caller SimulatedCompiler SimArtifact UInt64)} (engine : SimulatedEngine)

theorem neverCalls_simulatedCollaborators : (simulatedCollaborators engine).NeverCalls :=
  ⟨fun _ _ => rfl, fun _ _ => rfl, fun _ _ => rfl⟩

theorem perform_compile (s : SimSession) (r : Request) :
    Session.perform (simulatedCollaborators engine) caller s
        ((simulatedCollaborators engine).compile s.host r) =
      (.ofExcept (s.host.compile r).1, ⟨s.dispatcher, (s.host.compile r).2⟩) :=
  Session.perform_of_nested_nil ((neverCalls_simulatedCollaborators engine).compile _ _)

theorem perform_run (s : SimSession) (m : MethodId) (found : Option (CompiledMethod SimArtifact)) :
    Session.perform (simulatedCollaborators engine) caller s
        ((simulatedCollaborators engine).run s.host m found) =
      (.value (engine.run m found), s) := by
  rw [Session.perform_of_nested_nil ((neverCalls_simulatedCollaborators engine).run _ _ _)]
  cases found <;> rfl

end Host

/-! ## Whole calls -/

section Call

variable {engine : SimulatedEngine} {caller : Option (Caller SimulatedCompiler SimArtifact UInt64)}

/-- A call that a session carries to its end is carried to its end on a thread. -/
theorem Reaches.drive {i : Nat} {c : Call SimArtifact UInt64} {result : CallResult UInt64}
    (h : w.Reaches s callers picks failed) (hcalls : callers[i]? = some [c])
    (hidle : c.compiling? = none)
    (hdrive : Session.drive (simulatedCollaborators engine) caller s c = (result, s')) :
    w.Reaches s' (callers.set i []) picks (failed + result.isFailed.toNat) := by
  have hlt := (List.getElem?_eq_some_iff.mp hcalls).1
  induction hrank : c.rank using Nat.strong_induction_on generalizing s c callers with
  | _ rank ih =>
    subst hrank
    -- The same holds of the next state of the call, once the workload has come there.
    have hnext {s₁ : SimSession} {c₁ : Call SimArtifact UInt64}
        (h₁ : w.Reaches s₁ (callers.set i [c₁]) picks failed) (hlower : c₁.rank < c.rank)
        (hidle₁ : c₁.compiling? = none)
        (hdrive₁ : Session.drive (simulatedCollaborators engine) caller s₁ c₁ = (result, s')) :
        w.Reaches s' (callers.set i []) picks (failed + result.isFailed.toNat) := by
      have hend := ih _ hlower h₁ (List.getElem?_set_self hlt) hidle₁ hdrive₁
        (by rwa [List.length_set]) rfl
      rwa [List.set_set] at hend
    cases hturn : c.turn with
    | dispatcher =>
      rw [Session.drive_of_dispatcher hturn] at hdrive
      exact hnext (h.advance hcalls hturn) (c.rank_advance_lt s.dispatcher hturn)
        (Call.compiling?_advance s.dispatcher hturn) hdrive
    | compiler job =>
      rw [Session.drive_of_compiler hturn, perform_compile] at hdrive
      have hheld : job.isCompiling = false := by
        simpa [Call.compiling?, (Call.stage_of_turn_compiler hturn).1] using hidle
      exact hnext (h.compile hcalls hturn hheld) (c.rank_compile_lt job _ hturn)
        (Call.compiling?_answered hturn _) hdrive
    | engine found =>
      rw [Session.drive_of_engine hturn, perform_run] at hdrive
      obtain ⟨rfl, rfl⟩ := Prod.mk.inj hdrive
      exact h.execute hcalls hturn
    | ended result =>
      rw [Session.drive_of_ended hturn] at hdrive
      obtain ⟨rfl, rfl⟩ := Prod.mk.inj hdrive
      exact h.leave hcalls hturn

/-- No call is carried out by the workers. -/
theorem workers_drive {c : Call SimArtifact UInt64} {result : CallResult UInt64}
    (hdrive : Session.drive (simulatedCollaborators engine) caller s c = (result, s')) :
    s'.dispatcher.pool.map (·.workers) = s.dispatcher.pool.map (·.workers) := by
  induction hrank : c.rank using Nat.strong_induction_on generalizing s c with
  | _ rank ih =>
    subst hrank
    cases hturn : c.turn with
    | dispatcher =>
      rw [Session.drive_of_dispatcher hturn] at hdrive
      rw [ih _ (c.rank_advance_lt s.dispatcher hturn) hdrive rfl]
      exact c.workers_advance s.dispatcher
    | compiler job =>
      rw [Session.drive_of_compiler hturn, perform_compile] at hdrive
      exact ih _ (c.rank_compile_lt job _ hturn)
        (s := ⟨s.dispatcher, (s.host.compile job.request).2⟩) hdrive rfl
    | engine found =>
      rw [Session.drive_of_engine hturn, perform_run] at hdrive
      obtain ⟨-, rfl⟩ := Prod.mk.inj hdrive
      rfl
    | ended result =>
      rw [Session.drive_of_ended hturn] at hdrive
      obtain ⟨-, rfl⟩ := Prod.mk.inj hdrive
      rfl

end Call

/-! ## A job on a worker -/

section Worker

variable {k : Nat} {pool : Pool (CompileJob SimArtifact)} {held job : CompileJob SimArtifact}
  (h : w.Reaches { s with dispatcher.pool := some (pool.setJob k job) } callers picks failed)
  (hbusy : pool.jobOf? k = some held)

include h hbusy

theorem Reaches.advanceJob (hturn : job.turn = .dispatcher) :
    w.Reaches
      ⟨{ (job.advance false s.dispatcher).2 with
        pool := some (pool.setJob k (job.advance false s.dispatcher).1) }, s.host⟩
      callers picks failed := by
  have hjob := Pool.jobOf?_setJob hbusy job
  refine h.run [.worker k] fun log => ⟨(job.report? false s.dispatcher).toList ++ log, ?_⟩
  have hnext := job.advance_with false s.dispatcher (some (pool.setJob k job)) log
  simp only [run_singleton, step, stepWorker, ofSession, Dispatcher.withLog, Option.bind_eq_bind,
    Option.bind_some, hjob, hturn, go, System.step, WorkerMove.apply, WorkerMove.applyBusy, hnext,
    Option.map_some, Pool.setJob_setJob]

/-- The compiler is called and answers. -/
theorem Reaches.compileJob (hturn : job.turn = .compiler) (hidle : job.isCompiling = false) :
    w.Reaches
      ⟨{ s.dispatcher with
        pool := some (pool.setJob k
          (job.begin.conclude (.ofExcept (s.host.compile job.request).1))) },
        (s.host.compile job.request).2⟩
      callers picks failed := by
  obtain ⟨r, stage⟩ := job
  cases stage with
  | holding =>
    have hjob := Pool.jobOf?_setJob hbusy
    refine h.run [.worker k, .worker k] fun log => ⟨log, ?_⟩
    simp [ThreadedWorkload.run, step, stepWorker, ofSession, Dispatcher.withLog, hjob,
      CompileJob.turn, CompileJob.isCompiling, ask, go, System.step, WorkerMove.apply,
      WorkerMove.applyBusy, CompileJob.begin, answer?, hear, Pool.setJob_setJob]
  | compiling => cases hidle
  | _ => cases hturn

/-- The worker is free again. -/
theorem Reaches.finishJob {failure : Option CompileFailure} (hturn : job.turn = .ended failure) :
    w.Reaches { s with dispatcher.pool := some (pool.finish k) } callers picks failed := by
  have hjob := Pool.jobOf?_setJob hbusy job
  refine h.run [.worker k] fun log => ⟨(({ s.dispatcher with log } :
    Dispatcher SimArtifact).finishJob k job.request failure).log, ?_⟩
  simp only [run_singleton, step, stepWorker, ofSession, Dispatcher.withLog, Option.bind_eq_bind,
    Option.bind_some, hjob, hturn, go, System.step, WorkerMove.apply, WorkerMove.applyBusy]
  rcases failure with _ | ⟨_ | _⟩ <;>
    simp [Dispatcher.finishJob, Dispatcher.report, Pool.finish_setJob]

end Worker

/-! ## Whole jobs -/

section Job

variable {engine : SimulatedEngine} {caller : Option (Caller SimulatedCompiler SimArtifact UInt64)}
  {k : Nat} {pool : Pool (CompileJob SimArtifact)} {held job : CompileJob SimArtifact}

/-- A job that a session carries to its end is carried to its end on a worker. -/
theorem Reaches.driveJob {failure : Option CompileFailure}
    (h : w.Reaches { s with dispatcher.pool := some (pool.setJob k job) } callers picks failed)
    (hpool : s.dispatcher.pool = some pool) (hbusy : pool.jobOf? k = some held)
    (hidle : job.isCompiling = false)
    (hdrive : Session.driveJob (simulatedCollaborators engine) caller s job = (failure, s')) :
    w.Reaches { s' with dispatcher.pool := some (pool.finish k) } callers picks failed ∧
      s'.dispatcher.pool = some pool := by
  induction hrank : job.stage.rank using Nat.strong_induction_on generalizing s job with
  | _ rank ih =>
    subst hrank
    cases hturn : job.turn with
    | dispatcher =>
      rw [Session.driveJob_of_dispatcher hturn] at hdrive
      have hnever := job.turn_advance_ne_compiler false s.dispatcher (by simp [hturn])
      exact ih _ (job.rank_advance_lt false s.dispatcher hturn) (h.advanceJob hbusy hturn)
        ((job.pool_advance false s.dispatcher).trans hpool)
        (CompileJob.isCompiling_of_turn hnever) hdrive rfl
    | compiler =>
      rw [Session.driveJob_of_compiler hturn, perform_compile] at hdrive
      exact ih _ (job.rank_conclude_lt _ hturn)
        (s := ⟨s.dispatcher, (s.host.compile job.request).2⟩) (h.compileJob hbusy hturn hidle) hpool
        (CompileJob.isCompiling_of_turn (CompileJob.turn_answered hturn _)) hdrive rfl
    | ended failure =>
      rw [Session.driveJob_of_ended hturn] at hdrive
      obtain ⟨-, rfl⟩ := Prod.mk.inj hdrive
      exact ⟨h.finishJob hbusy hturn, hpool⟩

/-- A worker runs its compilation to the end. -/
theorem Reaches.finishWorker (h : w.Reaches s callers picks failed) (depth : Nat)
    (hpool : s.dispatcher.pool = some pool) (hbusy : pool.jobOf? k = some job)
    (hidle : job.isCompiling = false) :
    w.Reaches (Session.finishWorker (simulatedCollaborators engine) depth s k job) callers picks
        failed ∧
      (Session.finishWorker (simulatedCollaborators engine) depth s k job).dispatcher.pool =
        some (pool.finish k) := by
  have hown : { s with dispatcher.pool := some (pool.setJob k job) } = s := by
    rw [Pool.setJob_of_jobOf? hbusy, ← hpool]
  rcases hdrive : Session.driveJob (simulatedCollaborators engine)
    (some (Session.callWithin (simulatedCollaborators engine) depth)) s job with ⟨failure, s'⟩
  obtain ⟨hend, hpool'⟩ := Reaches.driveJob (hown.symm ▸ h) hpool hbusy hidle hdrive
  rw [Session.finishWorker, hdrive]
  constructor
  · refine hend.congr ?_ rfl
    rw [Dispatcher.finishJob_withLog, hpool', Option.map_some]
  · rw [Dispatcher.pool_finishJob, hpool', Option.map_some]

end Job

/-! ## A drained pool -/

section Drain

variable {pool : Pool (CompileJob SimArtifact)}

/-- The compiler is at work for no worker. -/
def Unasked (s : SimSession) : Prop :=
  ∀ workers ∈ s.dispatcher.pool.map (·.workers), ∀ job, .busy job ∈ workers →
    job.isCompiling = false

theorem unasked_iff (hpool : s.dispatcher.pool = some pool) :
    Unasked s ↔ ∀ job, .busy job ∈ pool.workers → job.isCompiling = false := by
  simp [Unasked, hpool]

theorem unasked_of_workers (hunasked : Unasked s)
    (hsame : s'.dispatcher.pool.map (·.workers) = s.dispatcher.pool.map (·.workers)) :
    Unasked s' := by
  rwa [Unasked, hsame]

/-- Workers take what is queued. -/
theorem Reaches.feedEach (h : w.Reaches s callers picks failed) (hunasked : Unasked s)
    (workers : List Nat) (hpool : s.dispatcher.pool = some pool) :
    w.Reaches { s with dispatcher.pool := some (Pool.feedEach .hold workers pool).2 } callers picks
        failed ∧
      Unasked { s with dispatcher.pool := some (Pool.feedEach .hold workers pool).2 } := by
  induction workers generalizing s pool with
  | nil =>
    rw [Pool.feedEach, ← hpool]
    exact ⟨h, hunasked⟩
  | cons k workers ih =>
    cases htake : pool.take k .hold with
    | none =>
      simp only [Pool.feedEach, htake]
      exact ih h hunasked hpool
    | some taken =>
      obtain ⟨r, pool'⟩ := taken
      obtain ⟨hfree, hworkers⟩ := Pool.eq_of_take htake
      have htaken : w.Reaches { s with dispatcher.pool := some pool' } callers picks failed := by
        refine h.run [.worker k] fun log => ⟨log, ?_⟩
        simp [run_singleton, step, stepWorker, ofSession, Dispatcher.withLog, hpool, hfree, go,
          System.step, WorkerMove.apply, htake]
      have hunasked' : Unasked { s with dispatcher.pool := some pool' } := by
        rw [unasked_iff hpool] at hunasked
        rw [unasked_iff rfl, hworkers]
        intro job hjob
        obtain hjob | hjob := List.mem_or_eq_of_mem_set hjob
        · exact hunasked job hjob
        · cases hjob
          rfl
      simp only [Pool.feedEach, htake]
      exact ih (s := { s with dispatcher.pool := some pool' }) htaken hunasked' rfl

theorem Reaches.feed (h : w.Reaches s callers picks failed) (hunasked : Unasked s) :
    w.Reaches s.feed.2 callers picks failed ∧ Unasked s.feed.2 := by
  cases hpool : s.dispatcher.pool with
  | none =>
    simp only [Session.feed, Dispatcher.feedWorkers, hpool]
    exact ⟨h, hunasked⟩
  | some pool =>
    simp only [Session.feed, Dispatcher.feedWorkers, hpool]
    exact h.feedEach hunasked _ hpool

/-- Everything that is queued or in flight is compiled. -/
theorem Reaches.drain (engine : SimulatedEngine) (h : w.Reaches s callers picks failed)
    (hunasked : Unasked s) (depth n : Nat) :
    w.Reaches (Session.drain (simulatedCollaborators engine) depth n s).2 callers picks failed ∧
      Unasked (Session.drain (simulatedCollaborators engine) depth n s).2 := by
  induction n generalizing s with
  | zero => exact ⟨h, hunasked⟩
  | succ n ih =>
    obtain ⟨hfed, hunasked⟩ := h.feed hunasked
    simp only [Session.drain]
    cases hnext : s.feed.2.dispatcher.pool.bind (·.findBusy? fun _ => true) with
    | none => exact ⟨hfed, hunasked⟩
    | some next =>
      obtain ⟨worker, job⟩ := next
      obtain ⟨pool, hpool, hfind⟩ := Option.bind_eq_some_iff.mp hnext
      have hbusy := Pool.jobOf?_of_findBusy? hfind
      rw [unasked_iff hpool] at hunasked
      have hidle := hunasked job (List.mem_of_getElem? (Pool.getElem?_of_jobOf? hbusy))
      obtain ⟨hfinished, hpool'⟩ := hfed.finishWorker depth hpool hbusy hidle
      refine ih hfinished ((unasked_iff hpool').mpr fun job' hjob' => ?_)
      obtain hjob' | hjob' := List.mem_or_eq_of_mem_set hjob'
      · exact hunasked job' hjob'
      · cases hjob'

end Drain

end ThreadedWorkload

end TieredDispatch

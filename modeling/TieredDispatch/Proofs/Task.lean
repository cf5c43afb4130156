import TieredDispatch.Proofs.Draining
import TieredDispatch.Proofs.Meter
import TieredDispatch.Proofs.Outline

/-!
# Tasks of the pool

A **task** is a request in the queue or in the hands of a worker, which from its job on is the same
thing: a request that no worker has taken is a job that nobody has begun. A step of a worker moves
one task to its next stage or takes a request out of the queue, which is no change to the tasks
(`System.taskStep_of_step`). `TaskStep` lists what becomes of a task, of the ledger and of the
metrics, for a compiler whose answer depends on the request alone.

The tasks do not say how many workers there are, nor in which order requests wait.
-/

namespace TieredDispatch

variable {α β : Type}

/-! ## Tasks -/

/-- The task that a piece of work is, if it belongs to the pool. -/
def Work.task? : Work α β → Option (CompileJob α)
  | call _ => none
  | job j => some j
  | queued r => some (.hold r)

/-- The tasks among some work. -/
def Work.tasks (w : Multiset (Work α β)) : Multiset (CompileJob α) :=
  w.filterMap task?

/-- The requests in the queue and those in the hands of the workers. -/
def Pool.tasks (pool : Pool (CompileJob α)) : Multiset (CompileJob α) :=
  Multiset.ofList (pool.queue.map .hold) + Multiset.ofList pool.jobs

/-- The tasks of the pool, if there is one. -/
def Dispatcher.tasks (d : Dispatcher α) : Multiset (CompileJob α) :=
  (d.pool.map Pool.tasks).getD 0

theorem Work.tasks_add (v w : Multiset (Work α β)) : tasks (v + w) = tasks v + tasks w :=
  Multiset.filterMap_add task? v w

theorem Work.tasks_of_task? {w : Work α β} {job : CompileJob α} (h : w.task? = some job) :
    tasks {w} = {job} := by
  change Multiset.ofList ([w].filterMap task?) = _
  simp [h]

/-- A task is where its job is. -/
theorem Work.position?_eq {w : Work α β} (hcall : ∀ c, w ≠ .call c) :
    w.position? = w.task?.bind (·.position?) := by
  cases w with
  | call c => exact absurd rfl (hcall c)
  | job _ | queued _ => rfl

theorem Pool.tasks_work (pool : Pool (CompileJob α)) :
    Work.tasks (pool.work : Multiset (Work α β)) = pool.tasks := by
  have hworker : ∀ worker : Worker (CompileJob α),
      (worker.work (β := β)).filterMap Work.task? = worker.job?.toList := by
    intro worker
    cases worker <;> rfl
  have hqueue : (pool.queue.map (Work.queued (α := α) (β := β))).filterMap Work.task? =
      pool.queue.map .hold := by
    rw [List.filterMap_map, ← List.filterMap_eq_map]
    rfl
  rw [work, Work.tasks_add, tasks, jobs]
  show Multiset.ofList (List.filterMap _ _) + Multiset.ofList (List.filterMap _ _) = _
  rw [hqueue, List.filterMap_flatMap]
  simp only [hworker]

theorem Dispatcher.tasks_work (d : Dispatcher α) :
    Work.tasks (d.work : Multiset (Work α β)) = d.tasks := by
  unfold work tasks
  cases d.pool with
  | none => rfl
  | some pool => exact pool.tasks_work

/-- The positions of the work in a pool are those of its tasks. -/
theorem Dispatcher.positions_work (d : Dispatcher α) :
    Work.positions (d.work : Multiset (Work α β)) = d.tasks.filterMap (·.position?) := by
  rw [← d.tasks_work (β := β), Work.tasks, Multiset.filterMap_filterMap]
  have hcall := d.call_notMem_work (β := β)
  generalize d.work = w at hcall ⊢
  induction w using Quotient.inductionOn with
  | h works =>
    refine congrArg Multiset.ofList (List.filterMap_congr ?_)
    intro w hw
    refine Work.position?_eq ?_
    rintro c rfl
    exact hcall c hw

/-- An idle pool has no tasks. -/
theorem Pool.tasks_of_isIdle {pool : Pool (CompileJob α)} (h : pool.isIdle) : pool.tasks = 0 := by
  rw [← pool.tasks_work (β := α), Pool.work_of_isIdle h]
  rfl

/-! ## What becomes of a task -/

/-- A step of a task: the task before, with the ledger and the metrics, and after; a task that is
done is left. The compiler's answer depends on the request alone. -/
inductive TaskStep (outcome : Request → Outcome α) : CompileJob α → Ledger α → Metrics →
    Multiset (CompileJob α) → Ledger α → Metrics → Prop
  | begun (r : Request) (l : Ledger α) (μ : Metrics) :
      TaskStep outcome ⟨r, .holding⟩ l μ {⟨r, .compiling⟩} l μ
  | succeeded {r : Request} {artifact : α} (h : outcome r = .value artifact) (l : Ledger α)
      (μ : Metrics) : TaskStep outcome ⟨r, .compiling⟩ l μ {⟨r, .compiled artifact⟩} l μ
  | failed {r : Request} (cause : CompileFailure) (h : (outcome r).value? = none) (l : Ledger α)
      (μ : Metrics) : TaskStep outcome ⟨r, .compiling⟩ l μ {⟨r, .failed cause⟩} l μ
  | counted (r : Request) (artifact : α) (l : Ledger α) (μ : Metrics) :
      TaskStep outcome ⟨r, .compiled artifact⟩ l μ {⟨r, .counted artifact⟩} l
        (μ.bump (.compilations r.tier))
  | recorded (r : Request) (artifact : α) (l : Ledger α) (μ : Metrics) :
      TaskStep outcome ⟨r, .counted artifact⟩ l μ {⟨r, .recorded artifact⟩} (l.mark r) μ
  | placed (r : Request) (artifact : α) {stage : CompileStage α} (l : Ledger α) (μ : Metrics)
      (h : stage = .done none ∨ stage = .superseded) :
      TaskStep outcome ⟨r, .recorded artifact⟩ l μ {⟨r, stage⟩} (l.place r artifact) μ
  | superseded (r : Request) (l : Ledger α) (μ : Metrics) :
      TaskStep outcome ⟨r, .superseded⟩ l μ {⟨r, .done none⟩} l (μ.bump .superseded)
  | released (r : Request) (cause : CompileFailure) (l : Ledger α) (μ : Metrics) :
      TaskStep outcome ⟨r, .failed cause⟩ l μ {⟨r, .released cause⟩} (l.unmark r) μ
  | charged (r : Request) (cause : CompileFailure) (l : Ledger α) (μ : Metrics) :
      TaskStep outcome ⟨r, .released cause⟩ l μ {⟨r, .done (some cause)⟩} l (μ.bump .failures)
  | chargedAgain (r : Request) (reason : String) (l : Ledger α) (μ : Metrics) :
      TaskStep outcome ⟨r, .charged reason⟩ l μ {⟨r, .done (some (.error reason))⟩} l
        (μ.bump .failures)
  | finished (r : Request) (failure : Option CompileFailure) (l : Ledger α) (μ : Metrics) :
      TaskStep outcome ⟨r, .done failure⟩ l μ 0 l μ

namespace CompileJob

variable {outcome : Request → Outcome α} (job : CompileJob α) (d : Dispatcher α)

theorem taskStep_begin (h : job.turn = .compiler) (hidle : job.isCompiling = false) :
    TaskStep outcome job d.ledger d.metrics {job.begin} d.ledger d.metrics := by
  obtain ⟨r, stage⟩ := job
  cases stage with
  | holding => exact .begun r _ _
  | compiling => cases hidle
  | _ => cases h

theorem taskStep_conclude (hbusy : job.isCompiling = true) :
    TaskStep outcome job d.ledger d.metrics {job.conclude (outcome job.request)}
      d.ledger d.metrics := by
  obtain ⟨r, stage⟩ := job
  cases stage with
  | compiling =>
    show TaskStep outcome _ _ _ {conclude _ (outcome r)} _ _
    cases houtcome : outcome r with
    | value artifact => exact .succeeded houtcome _ _
    | error reason => exact .failed _ (by rw [houtcome]; rfl) _ _
    | panic payload => exact .failed _ (by rw [houtcome]; rfl) _ _
  | _ => cases hbusy

theorem taskStep_advance (h : job.turn = .dispatcher) :
    TaskStep outcome job d.ledger d.metrics {(job.advance false d).1}
      (job.advance false d).2.ledger (job.advance false d).2.metrics := by
  rw [job.ledger_advance, job.metrics_advance]
  generalize d.ledger = l, d.metrics = μ
  obtain ⟨r, stage⟩ := job
  cases stage with
  | holding | compiling | done _ => cases h
  | compiled artifact => exact .counted r artifact l μ
  | counted artifact => exact .recorded r artifact l μ
  | recorded artifact =>
    simp only [advance]
    split
    · exact .placed r artifact l μ (.inl rfl)
    · exact .placed r artifact l μ (.inr rfl)
  | superseded => exact .superseded r l μ
  | failed cause => exact .released r cause l μ
  | released cause => cases cause <;> exact .charged r _ l μ
  | charged reason => exact .chargedAgain r reason l μ

theorem taskStep_finish {failure : Option CompileFailure} (h : job.turn = .ended failure) :
    TaskStep outcome job d.ledger d.metrics 0 d.ledger d.metrics := by
  obtain ⟨r, rfl⟩ := exists_done_of_turn h
  exact .finished r _ _ _

end CompileJob

theorem Dispatcher.metrics_finishJob (d : Dispatcher α) (worker : Nat) (r : Request)
    (failure : Option CompileFailure) : (d.finishJob worker r failure).metrics = d.metrics := by
  unfold finishJob
  split <;> rfl

/-! ## Steps of the workers -/

/-- Whether a step is one of a worker. -/
def Label.isWorkers : Label α β → Bool
  | worker _ _ => true
  | caller _ _ | direct _ | close | lose _ _ => false

/-- **What a step of a worker does.** It moves one task on, or nothing that matters changes. -/
theorem System.taskStep_of_step {outcome : Request → Outcome α} {s t : System α β}
    {label : Label α β} (hworkers : label.isWorkers)
    (hanswer : ∀ r o, s.milestone? label = some (.ended r o) → o = outcome r)
    (hstep : s.step label = some t) :
    (t.dispatcher.tasks = s.dispatcher.tasks ∧ t.dispatcher.ledger = s.dispatcher.ledger ∧
      t.dispatcher.metrics = s.dispatcher.metrics) ∨
    ∃ job next frame, s.dispatcher.tasks = {job} + frame ∧ t.dispatcher.tasks = next + frame ∧
      TaskStep outcome job s.dispatcher.ledger s.dispatcher.metrics next t.dispatcher.ledger
        t.dispatcher.metrics := by
  cases systemStep_of_step hstep with
  | caller | direct | close | lose => cases hworkers
  | @worker i move pool d' hpool hmove =>
    have hmilestone : s.milestone? (.worker i move) = (pool.jobOf? i).bind move.milestone? := by
      simp [milestone?, hpool]
    rw [hmilestone] at hanswer
    obtain ⟨before, after, frame, hbefore, hafter, hmove⟩ := hmove.work (β := β) hpool
    have htasks : s.dispatcher.tasks = Work.tasks before + Work.tasks frame := by
      rw [← s.dispatcher.tasks_work (β := β), hbefore, Work.tasks_add]
    have htasks' : d'.tasks = Work.tasks after + Work.tasks frame := by
      rw [← d'.tasks_work (β := β), hafter, Work.tasks_add]
    -- No call is in the pool, so no move is one of a call.
    have hcall : ∀ c, .call c ∉ before := fun c hc =>
      s.dispatcher.call_notMem_work c (hbefore ▸ Multiset.mem_add.mpr (.inl hc))
    have hcall' : ∀ c, .call c ∉ after := fun c hc =>
      d'.call_notMem_work c (hafter ▸ Multiset.mem_add.mpr (.inl hc))
    rw [htasks, htasks']
    generalize (pool.jobOf? i).bind move.milestone? = μ? at hmove hanswer
    cases hmove with
    | invoke => exact absurd (Multiset.mem_singleton_self _) (hcall' _)
    | advance | beginCompile | endCompile | endRun | leave =>
      exact absurd (Multiset.mem_singleton_self _) (hcall _)
    | take _ r pool => exact .inl ⟨rfl, rfl, rfl⟩
    | repool _ pool => exact .inl ⟨rfl, rfl, rfl⟩
    | @beginJob job _ pool hturn hidle =>
      rw [Work.tasks_of_task? rfl, Work.tasks_of_task? rfl]
      exact .inr ⟨job, _, _, rfl, rfl, job.taskStep_begin _ hturn hidle⟩
    | @endJob job _ pool o hturn hbusy =>
      obtain rfl : o = outcome job.request := hanswer _ _ rfl
      rw [Work.tasks_of_task? rfl, Work.tasks_of_task? rfl]
      exact .inr ⟨job, _, _, rfl, rfl, job.taskStep_conclude _ hbusy⟩
    | @advanceJob job _ pool hturn =>
      rw [Work.tasks_of_task? rfl, Work.tasks_of_task? rfl]
      exact .inr ⟨job, _, _, rfl, rfl, job.taskStep_advance _ hturn⟩
    | @finish job failure _ worker hturn =>
      rw [Work.tasks_of_task? rfl, Dispatcher.ledger_finishJob, Dispatcher.metrics_finishJob]
      exact .inr ⟨job, 0, _, rfl, rfl, job.taskStep_finish _ hturn⟩

end TieredDispatch

import Mathlib.Algebra.Order.Group.Multiset
import Mathlib.Data.Multiset.Filter
import TieredDispatch.Proofs.Steps

/-!
# Work in progress

The **work** of a system is everything that is under way: the calls of all callers, the jobs of the
busy workers and the requests in the queue, in no particular order. A step replaces at most one
piece of work and leaves the others alone (`step_work`), so a statement about a system follows from
what the steps do to single pieces. `Move` lists these, one constructor for each kind of step.
-/

namespace TieredDispatch

variable {α β : Type}

/-- Something under way. -/
inductive Work (α β : Type)
  | call (c : Call α β)
  | job (job : CompileJob α)
  | queued (r : Request)

namespace Worker

/-- The work of a worker. -/
def work (worker : Worker (CompileJob α)) : List (Work α β) :=
  (worker.job?.map .job).toList

@[simp] theorem work_free : (free : Worker (CompileJob α)).work = ([] : List (Work α β)) := rfl

@[simp] theorem work_busy (job : CompileJob α) :
    (busy job).work = ([.job job] : List (Work α β)) := rfl

@[simp] theorem work_stopped :
    (stopped : Worker (CompileJob α)).work = ([] : List (Work α β)) := rfl

end Worker

/-- The requests in the queue and the jobs of the workers. -/
def Pool.work (pool : Pool (CompileJob α)) : Multiset (Work α β) :=
  Multiset.ofList (pool.queue.map .queued) + Multiset.ofList (pool.workers.flatMap Worker.work)

/-- The work in the pool. -/
def Dispatcher.work (d : Dispatcher α) : Multiset (Work α β) :=
  (d.pool.map Pool.work).getD 0

/-- All work of a system. -/
def System.work (s : System α β) : Multiset (Work α β) :=
  Multiset.ofList (s.callers.flatMap (·.map .call)) + s.dispatcher.work

/-- There are no calls in the pool. -/
theorem Dispatcher.call_notMem_work (d : Dispatcher α) (c : Call α β) :
    .call c ∉ (d.work : Multiset (Work α β)) := by
  cases hpool : d.pool with
  | none => simp [work, hpool]
  | some pool => simp [work, hpool, Pool.work, Worker.work]

/-! ## One entry of a list among the others -/

/-- Replacing an entry of a list replaces its share of what the list adds up to. -/
theorem flatMap_set {γ δ : Type} (f : γ → List δ) {l : List γ} {i : Nat} {a : γ}
    (h : l[i]? = some a) :
    ∃ frame : Multiset δ, (↑(l.flatMap f) : Multiset δ) = ↑(f a) + frame ∧
      ∀ b, (↑((l.set i b).flatMap f) : Multiset δ) = ↑(f b) + frame := by
  induction l generalizing i with
  | nil => simp at h
  | cons x l ih =>
    cases i with
    | zero =>
      obtain rfl : x = a := by simpa using h
      exact ⟨↑(l.flatMap f), by simp [← Multiset.coe_add], fun b => by simp [← Multiset.coe_add]⟩
    | succ i =>
      obtain ⟨frame, hl, hset⟩ := ih (by simpa using h)
      refine ⟨↑(f x) + frame, ?_, fun b => ?_⟩
      · rw [List.flatMap_cons, ← Multiset.coe_add, hl, add_left_comm]
      · rw [List.set_cons_succ, List.flatMap_cons, ← Multiset.coe_add, hset, add_left_comm]

/-! ## What a step does to one piece of work -/

/-- The request that the next step of a call hands to the pool, if it does. -/
def Call.submits? (c : Call α β) (d : Dispatcher α) : Option Request :=
  match c.stage with
  | .promoting tier _ =>
    if (d.pool.bind (·.send ⟨c.method, tier⟩)).isSome then some ⟨c.method, tier⟩ else none
  | _ => none

theorem Call.submits?_of_send {m : MethodId} {unwinding : Bool} {tier : Tier} {count : UInt64}
    {d : Dispatcher α} {pool : Pool (CompileJob α)}
    (h : d.pool.bind (·.send ⟨m, tier⟩) = some pool) :
    (⟨m, unwinding, .promoting tier count⟩ : Call α β).submits? d = some ⟨m, tier⟩ := by
  simp [submits?, h]

theorem Call.submits?_of_hold {m : MethodId} {unwinding : Bool} {tier : Tier} {count : UInt64}
    {d : Dispatcher α} (h : d.pool.bind (·.send ⟨m, tier⟩) = none) :
    (⟨m, unwinding, .promoting tier count⟩ : Call α β).submits? d = none := by
  simp [submits?, h]

/-- The compiler moves next only in a call that compiles inline. -/
theorem Call.stage_of_turn_compiler {c : Call α β} {job : CompileJob α}
    (h : c.turn = .compiler job) : c.stage = .compiling job ∧ job.turn = .compiler := by
  unfold turn at h
  split at h
  · rename_i held hstage
    split at h
    · rename_i hjob
      cases h
      exact ⟨hstage, hjob⟩
    · cases h
  · cases h
  · cases h
  · cases h

/-- The engine moves next only in a call that runs. -/
theorem Call.stage_of_turn_engine {c : Call α β} {found : Option (CompiledMethod α)}
    (h : c.turn = .engine found) : c.stage = .running found := by
  unfold turn at h
  split at h
  · split at h <;> cases h
  · rename_i hstage
    cases h
    exact hstage
  · cases h
  · cases h

/-- Nobody moves next only in a call that has returned. -/
theorem Call.stage_of_turn_ended {c : Call α β} {result : CallResult β}
    (h : c.turn = .ended result) : c.stage = .returned result := by
  unfold turn at h
  split at h
  · split at h <;> cases h
  · cases h
  · rename_i hstage
    cases h
    exact hstage
  · cases h

theorem Call.compiles?_of_turn {c : Call α β} {job : CompileJob α} (h : c.turn = .compiler job) :
    c.compiles? = some job.request := by
  rw [compiles?, (stage_of_turn_compiler h).1]

/-- A step of a call, a job or a queued request: its milestone, the piece before and what is there
after it, each with the dispatcher. The pool is left open where the step is a worker's; its work
is counted with the pieces. -/
inductive Move : Option (Milestone α) → Multiset (Work α β) → Dispatcher α →
    Multiset (Work α β) → Dispatcher α → Prop
  | invoke (d : Dispatcher α) (m : MethodId) (unwinding : Bool) :
      Move (some (.invoked m)) 0 d {.call (.arrive m unwinding)} d
  | advance {c : Call α β} (d : Dispatcher α) (h : c.turn = .dispatcher) :
      Move (c.milestone? d) {.call c} d
        ({.call (c.advance d).1} + Multiset.ofList ((c.submits? d).map .queued).toList)
        (c.advance d).2
  | beginCompile {c : Call α β} {job : CompileJob α} (d : Dispatcher α)
      (h : c.turn = .compiler job) (hidle : job.isCompiling = false) :
      Move (some (.started job.request)) {.call c} d {.call c.beginCompile} d
  | endCompile {c : Call α β} {job : CompileJob α} (d : Dispatcher α) (outcome : Outcome α)
      (h : c.turn = .compiler job) (hbusy : job.isCompiling = true) :
      Move (some (.ended job.request outcome)) {.call c} d {.call (c.concludeCompile outcome)} d
  | endRun {c : Call α β} {found : Option (CompiledMethod α)} (d : Dispatcher α)
      (outcome : Outcome β) (h : c.turn = .engine found) :
      Move none {.call c} d {.call (c.concludeRun outcome)} d
  | leave {c : Call α β} {result : CallResult β} (d : Dispatcher α) (h : c.turn = .ended result) :
      Move none {.call c} d 0 d
  | take (d : Dispatcher α) (r : Request) (pool : Option (Pool (CompileJob α))) :
      Move none {.queued r} d {.job (.hold r)} { d with pool }
  | beginJob {job : CompileJob α} (d : Dispatcher α) (pool : Option (Pool (CompileJob α)))
      (h : job.turn = .compiler) (hidle : job.isCompiling = false) :
      Move (some (.started job.request)) {.job job} d {.job job.begin} { d with pool }
  | endJob {job : CompileJob α} (d : Dispatcher α) (pool : Option (Pool (CompileJob α)))
      (outcome : Outcome α) (h : job.turn = .compiler) (hbusy : job.isCompiling = true) :
      Move (some (.ended job.request outcome)) {.job job} d {.job (job.conclude outcome)}
        { d with pool }
  | advanceJob {job : CompileJob α} (d : Dispatcher α) (pool : Option (Pool (CompileJob α)))
      (h : job.turn = .dispatcher) :
      Move job.milestone? {.job job} d {.job (job.advance false d).1}
        { (job.advance false d).2 with pool }
  | finish {job : CompileJob α} {failure : Option CompileFailure} (d : Dispatcher α)
      (worker : Nat) (h : job.turn = .ended failure) :
      Move none {.job job} d 0 (d.finishJob worker job.request failure)
  | repool (d : Dispatcher α) (pool : Option (Pool (CompileJob α))) :
      Move none 0 d 0 { d with pool }

/-- A move exchanges one piece of some work, and the others stay. -/
inductive Moves (μ? : Option (Milestone α)) (w : Multiset (Work α β)) (d : Dispatcher α)
    (w' : Multiset (Work α β)) (d' : Dispatcher α) : Prop
  | intro (before after frame : Multiset (Work α β)) (hbefore : w = before + frame)
      (hafter : w' = after + frame) (hmove : Move μ? before d after d')

/-! ## The work in the pool after an operation -/

namespace Pool

variable {pool : Pool (CompileJob α)}

theorem work_send {pool' : Pool (CompileJob α)} {r : Request} (h : pool.send r = some pool') :
    (pool'.work : Multiset (Work α β)) = {.queued r} + pool.work := by
  unfold send at h
  split at h
  · obtain rfl := Option.some.inj h
    simp only [work, List.map_append, ← Multiset.coe_add]
    rw [add_right_comm, add_comm]
    rfl
  · cases h

/-- A free worker takes the oldest request. -/
theorem work_take {worker : Nat} {r : Request} {rest : List Request}
    (hfree : pool.workers[worker]? = some .free) (hqueue : pool.queue = r :: rest) :
    ∃ frame : Multiset (Work α β), pool.work = {.queued r} + frame ∧
      ({ pool with queue := rest, workers := pool.workers.set worker (.busy (.hold r)) } :
        Pool (CompileJob α)).work = {.job (.hold r)} + frame := by
  obtain ⟨frame, hold, hnew⟩ := flatMap_set (Worker.work (β := β)) hfree
  refine ⟨Multiset.ofList (rest.map .queued) + frame, ?_, ?_⟩
  · simp only [work, hold, hqueue, List.map_cons, ← Multiset.cons_coe]
    rw [← Multiset.singleton_add, add_assoc]
    simp
  · simp only [work, hnew, Worker.work_busy]
    rw [add_left_comm]
    rfl

/-- The job of a busy worker is work like any other, and may be replaced or end. -/
theorem work_of_jobOf? {worker : Nat} {job : CompileJob α} (h : pool.jobOf? worker = some job) :
    ∃ frame : Multiset (Work α β), pool.work = {.job job} + frame ∧
      (∀ job', (pool.setJob worker job').work = {.job job'} + frame) ∧
      (pool.finish worker).work = frame := by
  obtain ⟨w, hw, hjob⟩ := Option.bind_eq_some_iff.mp h
  obtain ⟨frame, hold, hnew⟩ := flatMap_set (Worker.work (β := β)) hw
  have hwork : (w.work : List (Work α β)) = [.job job] := by simp [Worker.work, hjob]
  refine ⟨Multiset.ofList (pool.queue.map .queued) + frame, ?_, fun job' => ?_, ?_⟩
  · simp only [work, hold, hwork]
    rw [add_left_comm]
    rfl
  · simp only [work, setJob, hnew, Worker.work_busy]
    rw [add_left_comm]
    rfl
  · simp [work, finish, hnew]

theorem work_stop {worker : Nat} (hfree : pool.workers[worker]? = some .free) :
    ({ pool with workers := pool.workers.set worker .stopped } : Pool (CompileJob α)).work =
      (pool.work : Multiset (Work α β)) := by
  obtain ⟨frame, hold, hnew⟩ := flatMap_set (Worker.work (β := β)) hfree
  simp [work, hold, hnew]

end Pool

theorem Dispatcher.work_of_pool {d : Dispatcher α} {pool : Pool (CompileJob α)}
    (h : d.pool = some pool) : (d.work : Multiset (Work α β)) = pool.work := by
  simp [work, h]

@[simp] theorem Dispatcher.work_set_pool (d : Dispatcher α) (pool : Option (Pool (CompileJob α))) :
    ({ d with pool } : Dispatcher α).work = ((pool.map Pool.work).getD 0 : Multiset (Work α β)) :=
  rfl

theorem Dispatcher.work_finishJob (d : Dispatcher α) (worker : Nat) (r : Request)
    (failure : Option CompileFailure) :
    ((d.finishJob worker r failure).work : Multiset (Work α β)) =
      ((d.pool.map (·.finish worker)).map Pool.work).getD 0 := by
  unfold finishJob
  split <;> rfl

/-- A call adds to the work in the pool what it submits. -/
theorem Call.work_advance (c : Call α β) (d : Dispatcher α) :
    ((c.advance d).2.work : Multiset (Work α β)) =
      Multiset.ofList ((c.submits? d).map .queued).toList + d.work := by
  obtain ⟨metrics, log, h⟩ := c.advance_snd d
  rw [h]
  obtain ⟨m, unwinding, stage⟩ := c
  cases stage with
  | promoting tier count =>
    cases hpool : d.pool with
    | none => simp [submits?, poolAfter, hpool, Dispatcher.work]
    | some pool =>
      cases hsend : pool.send ⟨m, tier⟩ with
      | none => simp [submits?, poolAfter, hpool, hsend, Dispatcher.work]
      | some pool' =>
        simp [submits?, poolAfter, hpool, hsend, Dispatcher.work, Pool.work_send hsend]
  | _ => simp [submits?, poolAfter, Dispatcher.work]

/-! ## What a step does to all work -/

theorem coe_map_call_cons (c : Call α β) (outer : List (Call α β)) (w : Multiset (Work α β)) :
    Multiset.ofList ((c :: outer).map .call) + w =
      {.call c} + (Multiset.ofList (outer.map .call) + w) := by
  rw [List.map_cons, ← Multiset.cons_coe, ← Multiset.singleton_add, add_assoc]

/-- A move of a caller replaces one piece of the work of its calls and of the pool. -/
theorem StackStep.work {d d' : Dispatcher α} {calls calls' : List (Call α β)}
    {move : CallerMove α β} (h : StackStep d move calls calls' d') :
    Moves (move.milestone? d calls) (Multiset.ofList (calls.map .call) + d.work) d
      (Multiset.ofList (calls'.map .call) + d'.work) d' := by
  cases h with
  | invoke m unwinding =>
    exact ⟨0, _, _, (zero_add _).symm, coe_map_call_cons _ _ _, .invoke d m unwinding⟩
  | @advance c outer hturn =>
    refine ⟨_, _, _, coe_map_call_cons _ _ _, ?_, .advance d hturn⟩
    rw [coe_map_call_cons, Call.work_advance, add_assoc, add_left_comm (Multiset.ofList _)]
  | beginCompile outer hturn hidle =>
    refine ⟨_, _, _, coe_map_call_cons _ _ _, coe_map_call_cons _ _ _, ?_⟩
    rw [CallerMove.milestone?, Call.compiles?_of_turn hturn]
    exact .beginCompile d hturn hidle
  | endCompile outcome outer hturn hbusy =>
    refine ⟨_, _, _, coe_map_call_cons _ _ _, coe_map_call_cons _ _ _, ?_⟩
    rw [CallerMove.milestone?, Call.compiles?_of_turn hturn]
    exact .endCompile d outcome hturn hbusy
  | endRun outcome outer hturn =>
    exact ⟨_, _, _, coe_map_call_cons _ _ _, coe_map_call_cons _ _ _, .endRun d outcome hturn⟩
  | leave outer hturn =>
    exact ⟨_, 0, _, coe_map_call_cons _ _ _, (zero_add _).symm, .leave d hturn⟩

/-- A move of a worker replaces one piece of the work in the pool. -/
theorem WorkerStep.work {d d' : Dispatcher α} {pool : Pool (CompileJob α)} {i : Nat}
    {move : WorkerMove α} (hpool : d.pool = some pool) (h : WorkerStep d pool i move d') :
    Moves (β := β) ((pool.jobOf? i).bind move.milestone?) d.work d d'.work d' := by
  rw [Dispatcher.work_of_pool hpool]
  cases h with
  | @take r rest hfree hqueue =>
    obtain ⟨frame, hold, hnew⟩ := Pool.work_take (β := β) hfree hqueue
    have hnone : (pool.jobOf? i).bind (WorkerMove.take (α := α)).milestone? = none := by
      cases pool.jobOf? i <;> rfl
    rw [hnone]
    exact ⟨_, _, frame, hold, hnew, .take d r _⟩
  | @beginCompile job hjob hturn hidle =>
    obtain ⟨frame, hold, hset, -⟩ := Pool.work_of_jobOf? (β := β) hjob
    rw [hjob]
    exact ⟨_, _, frame, hold, hset _, .beginJob d _ hturn hidle⟩
  | @endCompile job outcome hjob hturn hbusy =>
    obtain ⟨frame, hold, hset, -⟩ := Pool.work_of_jobOf? (β := β) hjob
    rw [hjob]
    exact ⟨_, _, frame, hold, hset _, .endJob d _ outcome hturn hbusy⟩
  | @advance job hjob hturn =>
    obtain ⟨frame, hold, hset, -⟩ := Pool.work_of_jobOf? (β := β) hjob
    rw [hjob]
    exact ⟨_, _, frame, hold, hset _, .advanceJob d _ hturn⟩
  | @finish job failure hjob hturn =>
    obtain ⟨frame, hold, -, hfinish⟩ := Pool.work_of_jobOf? (β := β) hjob
    rw [hjob]
    refine ⟨_, 0, frame, hold, ?_, .finish d i hturn⟩
    rw [zero_add, Dispatcher.work_finishJob, hpool]
    exact hfinish
  | stop hfree =>
    have hnone : (pool.jobOf? i).bind (WorkerMove.stop (α := α)).milestone? = none := by
      cases pool.jobOf? i <;> rfl
    rw [hnone]
    refine ⟨0, 0, pool.work, (zero_add _).symm, ?_, .repool d _⟩
    rw [zero_add]
    exact Pool.work_stop hfree

/-- **A step replaces at most one piece of work.** Every step that is the dispatcher's own is a
move: one piece is exchanged for what the move leaves in its place, and the others stay. -/
theorem System.step_work {s t : System α β} {label : Label α β} (hown : label.isOwn)
    (h : s.step label = some t) :
    Moves (s.milestone? label) s.work s.dispatcher t.work t.dispatcher := by
  cases systemStep_of_step h with
  | @caller i move calls calls' d' hcalls hmove =>
    obtain ⟨others, hold, hnew⟩ := flatMap_set (List.map (Work.call (α := α) (β := β))) hcalls
    obtain ⟨before, after, frame, hbefore, hafter, hmove⟩ := hmove.work
    refine ⟨before, after, frame + others, ?_, ?_, ?_⟩
    · rw [work, hold, add_right_comm, hbefore, add_assoc]
    · rw [work, hnew, add_right_comm, hafter, add_assoc]
    · simpa [milestone?, hcalls] using hmove
  | @worker i move pool d' hpool hmove =>
    obtain ⟨before, after, frame, hbefore, hafter, hmove⟩ := hmove.work (β := β) hpool
    refine ⟨before, after, frame + ↑(s.callers.flatMap (List.map Work.call)), ?_, ?_, ?_⟩
    · rw [work, hbefore, add_comm, add_assoc]
    · rw [work, hafter, add_comm, add_assoc]
    · simpa [milestone?, hpool] using hmove
  | direct | lose => cases hown
  | close =>
    refine ⟨0, 0, s.work, (zero_add _).symm, ?_, .repool s.dispatcher _⟩
    rw [zero_add, work, work, Dispatcher.work_set_pool, Dispatcher.work, Option.map_map]
    rfl

end TieredDispatch

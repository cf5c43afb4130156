import TieredDispatch.Proofs.Schedule

/-!
# Waiting for a worker

A request that was handed to the pool stays in the queue, behind those that were handed over before
it, until it is the oldest one and a free worker takes it (`System.waits_run`). Nothing keeps the
workers from that: a free worker can always take the oldest request and call the compiler for it
(`System.starts_of_isFree`), and a worker whose compile call has ended, however it did, needs only
moves of its own to be free again (`System.frees_run`).
-/

namespace TieredDispatch

variable {α β : Type}

/-! ## What a step does to the queue -/

/-- What a step does to the queue of a pool: nothing, unless a request is sent or a free worker
takes the oldest one. -/
inductive QueueStep (pool : Pool (CompileJob α)) : Label α β → Pool (CompileJob α) → Prop
  | same (label : Label α β) {pool' : Pool (CompileJob α)} (hqueue : pool'.queue = pool.queue) :
      QueueStep pool label pool'
  | send (label : Label α β) {pool' : Pool (CompileJob α)} (r : Request)
      (hqueue : pool'.queue = pool.queue ++ [r]) : QueueStep pool label pool'
  | take (worker : Nat) {r : Request} {rest : List Request}
      (hfree : pool.workers[worker]? = some .free) (hqueue : pool.queue = r :: rest) :
      QueueStep pool (.worker worker .take)
        { pool with queue := rest, workers := pool.workers.set worker (.busy (.hold r)) }

theorem Call.queueStep_advance (c : Call α β) {d : Dispatcher α} {pool : Pool (CompileJob α)}
    (hpool : d.pool = some pool) (label : Label α β) :
    ∃ pool', (c.advance d).2.pool = some pool' ∧ QueueStep pool label pool' := by
  obtain ⟨metrics, log, h⟩ := c.advance_snd d
  rw [h, hpool]
  obtain ⟨m, unwinding, stage⟩ := c
  cases stage with
  | promoting tier count =>
    cases hsend : pool.send ⟨m, tier⟩ with
    | none => exact ⟨pool, by simp [poolAfter, hsend], .same label rfl⟩
    | some pool' =>
      refine ⟨pool', by simp [poolAfter, hsend], ?_⟩
      unfold Pool.send at hsend
      split at hsend
      · obtain rfl := Option.some.inj hsend
        exact .send label ⟨m, tier⟩ rfl
      · cases hsend
  | _ => exact ⟨pool, rfl, .same label rfl⟩

theorem WorkerStep.queueStep {d d' : Dispatcher α} {pool : Pool (CompileJob α)} {i : Nat}
    {move : WorkerMove α} (hpool : d.pool = some pool) (h : WorkerStep d pool i move d') :
    ∃ pool', d'.pool = some pool' ∧ QueueStep (β := β) pool (.worker i move) pool' := by
  cases h with
  | take hfree hqueue => exact ⟨_, rfl, .take i hfree hqueue⟩
  | beginCompile | endCompile | advance | stop => exact ⟨_, rfl, .same _ rfl⟩
  | finish =>
    rw [Dispatcher.pool_finishJob, hpool]
    exact ⟨_, rfl, .same _ rfl⟩

/-- The request waits in the queue, and only the given ones, or the last of them, are ahead of
it. -/
def Pool.Awaits (pool : Pool (CompileJob α)) (ahead : List Request) (r : Request) : Prop :=
  ∃ left behind, left <:+ ahead ∧ pool.queue = left ++ r :: behind

namespace System

variable {s t : System α β} {label : Label α β} {labels : List (Label α β)}
  {pool : Pool (CompileJob α)}

theorem queueStep_of_step (hpool : s.dispatcher.pool = some pool) (hkeeps : label.keepsWorkers)
    (hstep : s.step label = some t) :
    ∃ pool', t.dispatcher.pool = some pool' ∧ QueueStep pool label pool' := by
  cases systemStep_of_step hstep with
  | caller hcalls hmove =>
    cases hmove with
    | advance => exact Call.queueStep_advance _ hpool _
    | _ => exact ⟨pool, hpool, .same _ rfl⟩
  | worker hpool' hmove =>
    obtain rfl := Option.some.inj (hpool.symm.trans hpool')
    exact hmove.queueStep hpool
  | direct => exact ⟨pool, hpool, .same _ rfl⟩
  | close => exact ⟨pool.close, by simp [hpool], .same _ rfl⟩
  | lose => cases hkeeps

/-! ## From the queue to a worker -/

/-- In the course of the run the request is the oldest one, and a free worker takes it. -/
def Takes (s : System α β) (labels : List (Label α β)) (r : Request) : Prop :=
  ∃ past worker future u v pool behind, labels = past ++ .worker worker .take :: future ∧
    s.run past = some u ∧ u.dispatcher.pool = some pool ∧
    pool.workers[worker]? = some .free ∧ pool.queue = r :: behind ∧
    u.step (.worker worker .take) = some v ∧
    v.dispatcher.pool.bind (·.jobOf? worker) = some (.hold r)

theorem Takes.cons {r : Request} (hstep : s.step label = some t) (h : t.Takes labels r) :
    s.Takes (label :: labels) r := by
  obtain ⟨past, worker, future, u, v, pool, behind, rfl, hpast, htaken⟩ := h
  refine ⟨label :: past, worker, future, u, v, pool, behind, rfl, ?_, htaken⟩
  rw [run_cons_of_step hstep, hpast]

/-- A request in the queue stays there as long as no worker is lost, and no other one gets ahead of
it, until it is the oldest and a free worker takes it. -/
theorem waits_run {ahead : List Request} {r : Request} (hpool : s.dispatcher.pool = some pool)
    (hwaits : pool.Awaits ahead r) (hkeep : ∀ label ∈ labels, label.keepsWorkers)
    (hrun : s.run labels = some t) :
    (∃ pool', t.dispatcher.pool = some pool' ∧ pool'.Awaits ahead r) ∨ s.Takes labels r := by
  induction labels generalizing s pool with
  | nil =>
    obtain rfl := Option.some.inj hrun
    exact .inl ⟨pool, hpool, hwaits⟩
  | cons label labels ih =>
    obtain ⟨next, hstep, hrest⟩ := Option.bind_eq_some_iff.mp hrun
    rw [List.forall_mem_cons] at hkeep
    obtain ⟨pool', hpool', hmoved⟩ := queueStep_of_step hpool hkeep.1 hstep
    obtain ⟨left, behind, hleft, hqueue⟩ := hwaits
    -- Where the request is still in the queue after the step, the rest of the run goes on from
    -- there.
    have hgoes : pool'.Awaits ahead r →
        (∃ poolt, t.dispatcher.pool = some poolt ∧ poolt.Awaits ahead r) ∨
          s.Takes (label :: labels) r :=
      fun hwaits' => (ih hpool' hwaits' hkeep.2 hrest).imp_right (.cons hstep)
    cases hmoved with
    | same _ hsame => exact hgoes ⟨left, behind, hleft, hsame.trans hqueue⟩
    | send _ q hsent =>
      refine hgoes ⟨left, behind ++ [q], hleft, ?_⟩
      rw [hsent, hqueue, List.append_assoc, List.cons_append]
    | @take worker q rest hfree hhead =>
      cases left with
      | nil =>
        obtain ⟨rfl, rfl⟩ := List.cons.inj (hqueue.symm.trans hhead)
        refine .inr ⟨[], worker, labels, s, next, pool, behind, rfl, rfl, hpool, hfree, hqueue,
          hstep, ?_⟩
        have hlt := (List.getElem?_eq_some_iff.mp hfree).1
        simp [hpool', Pool.jobOf?, hlt, Worker.job?]
      | cons oldest left =>
        obtain ⟨-, rfl⟩ := List.cons.inj (hhead.symm.trans hqueue)
        exact hgoes ⟨left, behind, (List.suffix_cons oldest left).trans hleft, rfl⟩

/-- A free worker can take the oldest request and call the compiler for it. -/
theorem starts_of_isFree {worker : Nat} {r : Request} {rest : List Request}
    (hpool : s.dispatcher.pool = some pool) (hfree : pool.workers[worker]? = some .free)
    (hqueue : pool.queue = r :: rest) :
    let labels : List (Label α β) := [.worker worker .take, .worker worker .beginCompile]
    ∃ t, s.run labels = some t ∧ s.history labels = [.started r] ∧ t.callers = s.callers ∧
      t.dispatcher.pool = some { pool with
        queue := rest, workers := pool.workers.set worker (.busy ⟨r, .compiling⟩) } := by
  intro labels
  have hlt := (List.getElem?_eq_some_iff.mp hfree).1
  have htake : pool.take worker .hold = some (r, { pool with
      queue := rest, workers := pool.workers.set worker (.busy (.hold r)) }) := by
    simp [Pool.take, hfree, hqueue]
  have hstep : s.step (.worker worker .take) = some { s with
      dispatcher.pool := some { pool with
        queue := rest, workers := pool.workers.set worker (.busy (.hold r)) } } := by
    simp [step, WorkerMove.apply, hpool, htake]
  refine ⟨{ s with dispatcher.pool := some { pool with
      queue := rest, workers := pool.workers.set worker (.busy ⟨r, .compiling⟩) } },
    ?_, ?_, rfl, rfl⟩
  · rw [run_cons_of_step hstep, run_singleton]
    simp [step, WorkerMove.apply, Pool.jobOf?, hlt, Worker.job?, WorkerMove.applyBusy,
      CompileJob.turn, CompileJob.hold, CompileJob.isCompiling, CompileJob.begin, Pool.setJob]
  · rw [history, hstep]
    simp [history, milestone?, hpool, Pool.jobOf?, hlt, Worker.job?, WorkerMove.milestone?,
      CompileJob.hold, step, WorkerMove.apply, WorkerMove.applyBusy, CompileJob.turn,
      CompileJob.isCompiling]

/-- A worker that holds a request can call the compiler for it. -/
theorem starts_of_hold {worker : Nat} {r : Request} (hpool : s.dispatcher.pool = some pool)
    (hjob : pool.jobOf? worker = some (.hold r)) :
    ∃ t, s.step (.worker worker .beginCompile) = some t ∧
      s.milestone? (.worker worker .beginCompile) = some (.started r) := by
  refine ⟨{ s with dispatcher.pool := some (pool.setJob worker ⟨r, .compiling⟩) }, ?_, ?_⟩
  · simp [step, WorkerMove.apply, hpool, hjob, WorkerMove.applyBusy, CompileJob.hold,
      CompileJob.turn, CompileJob.isCompiling, CompileJob.begin]
  · simp [milestone?, hpool, hjob, WorkerMove.milestone?, CompileJob.hold]

end System

/-! ## A worker comes free -/

namespace Pool

variable {pool : Pool (CompileJob α)} {worker : Nat} {job : CompileJob α}

theorem jobOf?_setJob (hjob : pool.jobOf? worker = some job) (next : CompileJob α) :
    (pool.setJob worker next).jobOf? worker = some next := by
  obtain ⟨w, hw, -⟩ := Option.bind_eq_some_iff.mp hjob
  simp [setJob, jobOf?, (List.getElem?_eq_some_iff.mp hw).1, Worker.job?]

theorem finish_setJob (pool : Pool (CompileJob α)) (worker : Nat) (job : CompileJob α) :
    (pool.setJob worker job).finish worker = pool.finish worker := by
  simp [finish, setJob]

end Pool

/-- Once the compile call of a job has ended, the compiler is not called for it again. -/
theorem CompileJob.turn_advance_ne_compiler (job : CompileJob α) (unwinding : Bool)
    (d : Dispatcher α) (h : job.turn ≠ .compiler) :
    (job.advance unwinding d).1.turn ≠ .compiler := by
  obtain ⟨r, stage⟩ := job
  cases stage with
  | holding | compiling => exact absurd rfl h
  | recorded artifact =>
    simp only [advance]
    split <;> simp [turn]
  | released cause =>
    cases cause with
    | error reason =>
      simp only [advance]
      split <;> simp [turn]
    | panic payload => simp [advance, turn]
  | _ => simp [advance, turn]

namespace System

variable {s : System α β} {pool : Pool (CompileJob α)} {worker : Nat} {job : CompileJob α}

theorem exists_step_advance (hpool : s.dispatcher.pool = some pool)
    (hjob : pool.jobOf? worker = some job) (hturn : job.turn = .dispatcher) :
    ∃ t, s.step (.worker worker .advance) = some t ∧ t.callers = s.callers ∧
      t.dispatcher.pool = some (pool.setJob worker (job.advance false s.dispatcher).1) := by
  refine ⟨{ s with dispatcher := { (job.advance false s.dispatcher).2 with
    pool := some (pool.setJob worker (job.advance false s.dispatcher).1) } }, ?_, rfl, rfl⟩
  simp [step, WorkerMove.apply, hpool, hjob, WorkerMove.applyBusy, hturn, CompileJob.pool_advance]

theorem exists_step_finish (hpool : s.dispatcher.pool = some pool)
    (hjob : pool.jobOf? worker = some job) {failure : Option CompileFailure}
    (hturn : job.turn = .ended failure) :
    ∃ t, s.step (.worker worker .finish) = some t ∧ t.callers = s.callers ∧
      t.dispatcher.pool = some (pool.finish worker) := by
  refine ⟨{ s with dispatcher := s.dispatcher.finishJob worker job.request failure }, ?_, rfl, ?_⟩
  · simp [step, WorkerMove.apply, hpool, hjob, WorkerMove.applyBusy, hturn]
  · rw [Dispatcher.pool_finishJob, hpool, Option.map_some]

/-- Once the compile call of a worker has ended, a few moves of the worker itself make it free. -/
theorem frees_run (hpool : s.dispatcher.pool = some pool) (hjob : pool.jobOf? worker = some job)
    (hturn : job.turn ≠ .compiler) :
    ∃ (moves : List (WorkerMove α)) (t : System α β), moves.length ≤ job.stage.rank + 1 ∧
      s.run (moves.map (.worker worker)) = some t ∧ t.callers = s.callers ∧
      t.dispatcher.pool = some (pool.finish worker) := by
  induction hrank : job.stage.rank using Nat.strong_induction_on generalizing s pool job with
  | _ n ih =>
    cases hnext : job.turn with
    | compiler => exact absurd hnext hturn
    | ended failure =>
      obtain ⟨t, hstep, hcallers, hfinish⟩ := exists_step_finish hpool hjob hnext
      exact ⟨[.finish], t, by simp, (run_singleton _ _).trans hstep, hcallers, hfinish⟩
    | dispatcher =>
      have hlt := job.rank_advance_lt false s.dispatcher hnext
      obtain ⟨u, hstep, hcallersu, hpoolu⟩ := exists_step_advance hpool hjob hnext
      obtain ⟨moves, t, hlength, hrun, hcallers, hfinish⟩ := ih _ (hrank ▸ hlt) hpoolu
        (Pool.jobOf?_setJob hjob _) (job.turn_advance_ne_compiler false s.dispatcher hturn) rfl
      refine ⟨.advance :: moves, t, ?_, ?_, hcallers.trans hcallersu, ?_⟩
      · rw [List.length_cons]
        omega
      · rw [List.map_cons, run_cons_of_step hstep, hrun]
      · rw [hfinish, Pool.finish_setJob]

/-- However a compile call on a worker ends, the worker is free again after a few moves of its
own. -/
theorem survives_run (hpool : s.dispatcher.pool = some pool) (hjob : pool.jobOf? worker = some job)
    (hbusy : job.isCompiling = true) (outcome : Outcome α) :
    ∃ (moves : List (WorkerMove α)) (t : System α β), moves.length ≤ 5 ∧
      s.run (.worker worker (.endCompile outcome) :: moves.map (.worker worker)) = some t ∧
      t.callers = s.callers ∧ t.dispatcher.pool = some (pool.finish worker) := by
  obtain ⟨r, stage⟩ := job
  obtain rfl : stage = .compiling := by
    cases stage with
    | compiling => rfl
    | _ => cases hbusy
  let ended : CompileJob α := CompileJob.conclude ⟨r, .compiling⟩ outcome
  have hturn : ended.turn ≠ .compiler := by cases outcome <;> exact nofun
  have hrank : ended.stage.rank < 5 := CompileJob.rank_conclude_lt ⟨r, .compiling⟩ outcome rfl
  have hstep : s.step (.worker worker (.endCompile outcome)) =
      some { s with dispatcher.pool := some (pool.setJob worker ended) } := by
    simp [step, WorkerMove.apply, hpool, hjob, WorkerMove.applyBusy, CompileJob.turn,
      CompileJob.isCompiling, ended]
  obtain ⟨moves, t, hlength, hrun, hcallers, hfinish⟩ :=
    frees_run (s := { s with dispatcher.pool := some (pool.setJob worker ended) }) rfl
      (Pool.jobOf?_setJob hjob ended) hturn
  refine ⟨moves, t, by omega, ?_, hcallers, ?_⟩
  · rw [run_cons_of_step hstep, hrun]
  · rw [hfinish, Pool.finish_setJob]

end System

/-! ## The workers stay -/

theorem PoolStep.size_eq {J : Type} {pool pool' : Pool J}
    (h : PoolStep (some pool) (some pool')) : pool'.size = pool.size := by
  cases h with
  | same => rfl
  | send hsend =>
    unfold Pool.send at hsend
    split at hsend
    · obtain rfl := Option.some.inj hsend
      rfl
    · cases hsend
  | work pool queue i halive => simp [Pool.size]
  | stop hstop =>
    unfold Pool.stop at hstop
    split at hstop
    · split at hstop
      · cases hstop
      · obtain rfl := Option.some.inj hstop
        simp [Pool.size]
    · cases hstop

/-- The pool has as many workers as it was started with. -/
theorem System.size_step {s t : System α β} {label : Label α β} {size : Nat}
    (hstep : s.step label = some t) (h : s.dispatcher.pool.map (·.size) = some size) :
    t.dispatcher.pool.map (·.size) = some size := by
  obtain ⟨pool, hpool, rfl⟩ := Option.map_eq_some_iff.mp h
  have hmoves : ∀ {pool'}, PoolStep s.dispatcher.pool (some pool') → pool'.size = pool.size :=
    fun hmoved => PoolStep.size_eq (hpool ▸ hmoved)
  obtain ⟨pool', hpool'⟩ := Option.isSome_iff_exists.mp
    ((isSome_pool_step hstep).trans (Option.isSome_of_mem hpool))
  rw [hpool', Option.map_some]
  cases systemStep_of_step hstep with
  | caller _ hmove => exact congrArg some (hmoves (hpool' ▸ hmove.poolStep))
  | worker hsome hmove => exact congrArg some (hmoves (hpool' ▸ hmove.poolStep hsome))
  | direct =>
    obtain rfl := Option.some.inj (hpool.symm.trans hpool')
    rfl
  | close =>
    rw [hpool] at hpool'
    obtain rfl := Option.some.inj hpool'
    rfl
  | lose payload hsome =>
    obtain rfl := Option.some.inj (hpool.symm.trans hsome)
    obtain rfl := Option.some.inj hpool'
    simp [Pool.lose, Pool.size]

end TieredDispatch

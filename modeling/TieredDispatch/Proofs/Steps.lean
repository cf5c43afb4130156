import TieredDispatch.Proofs.Milestone

/-!
# What a step can do

The steps of a system as relations, each with all that has to hold before it. A step of the
dispatcher brings a call from one stage to another (`StageStep`). A move of a caller adds a call,
removes one, or replaces the innermost one by what comes next (`StackStep`). A move of a worker
takes the oldest request, replaces the worker's job by what comes next, ends it, or stops the worker
(`WorkerStep`). A step of a system is one of these, or the host's own (`SystemStep`).

`Call.advance` brings a call nowhere else (`Call.exists_stageStep`), and `System.step` takes no
other step (`System.systemStep_of_step`). So what is to be shown of every step is shown case by case
from these relations, and no proof has to open the step functions again.
-/

namespace TieredDispatch

variable {α β : Type}

/-! ## Steps of the dispatcher on a call -/

/-- What a step of the dispatcher brings a call from one stage to. -/
inductive StageStep (d : Dispatcher α) (m : MethodId) (unwinding : Bool) :
    CallStage α β → CallStage α β → Prop
  | find (h : d.counter.probe m = true) : StageStep d m unwinding .arriving .seen
  | miss (h : d.counter.probe m = false) : StageStep d m unwinding .arriving .unseen
  | enter : StageStep d m unwinding .unseen .seen
  | count : StageStep d m unwinding .seen (.counted (d.counter.add m).1)
  | inspect (count : UInt64) :
      StageStep d m unwinding (.counted count) (.inspecting count (d.cache.requested? m))
  | want {count : UInt64} {requested : Option RequestSet} {tier : Tier}
      (h : let state := TierState.ofEntry requested (d.cache.tierOf m)
        (d.policy.decide count state.l1Requested state.l2Requested).tier = some tier) :
      StageStep d m unwinding (.inspecting count requested) (.claiming tier count)
  | rest {count : UInt64} {requested : Option RequestSet}
      (h : let state := TierState.ofEntry requested (d.cache.tierOf m)
        (d.policy.decide count state.l1Requested state.l2Requested).tier = none) :
      StageStep d m unwinding (.inspecting count requested) .selecting
  | grant (tier : Tier) (count : UInt64) (h : (d.cache.requested m).grants tier = true) :
      StageStep d m unwinding (.claiming tier count) (.promoting tier count)
  | deny (tier : Tier) (count : UInt64) (h : (d.cache.requested m).grants tier = false) :
      StageStep d m unwinding (.claiming tier count) (.denied tier count)
  | giveUp (tier : Tier) (count : UInt64) : StageStep d m unwinding (.denied tier count) .selecting
  | send (tier : Tier) (count : UInt64) {pool : Pool (CompileJob α)}
      (h : d.pool.bind (·.send ⟨m, tier⟩) = some pool) :
      StageStep d m unwinding (.promoting tier count) .queued
  /-- There is no pool, or it does not receive the request. -/
  | hold (tier : Tier) (count : UInt64) (h : d.pool.bind (·.send ⟨m, tier⟩) = none) :
      StageStep d m unwinding (.promoting tier count) (.compiling (.hold ⟨m, tier⟩))
  | leaveQueued : StageStep d m unwinding .queued .selecting
  | job {job : CompileJob α} (h : job.turn = .dispatcher) :
      StageStep d m unwinding (.compiling job) (.compiling (job.advance unwinding d).1)
  | succeed (r : Request) : StageStep d m unwinding (.compiling ⟨r, .done none⟩) .selecting
  | fail (r : Request) (reason : String) :
      StageStep d m unwinding (.compiling ⟨r, .done (some (.error reason))⟩)
        (.returned (.failed (.compilationFailed r.method r.tier reason)))
  | unwind (r : Request) (payload : PanicPayload) :
      StageStep d m unwinding (.compiling ⟨r, .done (some (.panic payload))⟩)
        (.returned (.panicked payload))
  | select : StageStep d m unwinding .selecting (.entering (d.cache.lookup m))
  | run (found : Option (CompiledMethod α)) :
      StageStep d m unwinding (.entering found) (.running found)

/-- **What a step of the dispatcher does to a call.** Only the stage of the call changes. -/
theorem Call.exists_stageStep (c : Call α β) (d : Dispatcher α) (h : c.turn = .dispatcher) :
    ∃ stage, (c.advance d).1 = { c with stage } ∧
      StageStep d c.method c.unwinding c.stage stage := by
  obtain ⟨m, unwinding, stage⟩ := c
  cases stage with
  | arriving =>
    cases hprobe : d.counter.probe m with
    | true => exact ⟨_, by simp [advance, hprobe], .find hprobe⟩
    | false => exact ⟨_, by simp [advance, hprobe], .miss hprobe⟩
  | unseen => exact ⟨_, rfl, .enter⟩
  | seen => exact ⟨_, rfl, .count⟩
  | counted count => exact ⟨_, rfl, .inspect count⟩
  | inspecting count requested =>
    simp only [advance]
    split
    · rename_i tier hwants
      exact ⟨_, rfl, .want hwants⟩
    · rename_i hrests
      exact ⟨_, rfl, .rest hrests⟩
  | claiming tier count =>
    cases hgrants : (d.cache.requested m).grants tier with
    | true =>
      exact ⟨_, by simp [advance, CompilationCache.request_fst, hgrants], .grant _ _ hgrants⟩
    | false =>
      exact ⟨_, by simp [advance, CompilationCache.request_fst, hgrants], .deny _ _ hgrants⟩
  | denied tier count => exact ⟨_, rfl, .giveUp tier count⟩
  | promoting tier count =>
    simp only [advance, Dispatcher.report]
    cases hpool : d.pool with
    | none => exact ⟨_, rfl, .hold tier count (by rw [hpool, Option.bind_none])⟩
    | some pool =>
      cases hsend : pool.send ⟨m, tier⟩ with
      | none =>
        refine ⟨_, ?_, .hold tier count (by rw [hpool, Option.bind_some, hsend])⟩
        simp only [hsend]
      | some pool' =>
        refine ⟨_, ?_, .send tier count (by rw [hpool, Option.bind_some, hsend])⟩
        simp only [hsend]
  | queued => exact ⟨_, rfl, .leaveQueued⟩
  | compiling job =>
    cases hjob : job.turn with
    | compiler => simp [turn, hjob] at h
    | ended failure =>
      obtain ⟨r, rfl⟩ := CompileJob.exists_done_of_turn hjob
      rcases failure with _ | ⟨reason | payload⟩
      · exact ⟨_, rfl, .succeed r⟩
      · exact ⟨_, rfl, .fail r reason⟩
      · exact ⟨_, rfl, .unwind r payload⟩
    | dispatcher =>
      refine ⟨_, ?_, .job hjob⟩
      simp only [advance, hjob]
  | selecting => exact ⟨_, rfl, .select⟩
  | entering found => exact ⟨_, rfl, .run found⟩
  | running _ | returned _ => cases h

/-! ## Moves of a caller -/

/-- What a move that is possible does to the calls of its caller and to the dispatcher. -/
inductive StackStep (d : Dispatcher α) :
    CallerMove α β → List (Call α β) → List (Call α β) → Dispatcher α → Prop
  | invoke (m : MethodId) (unwinding : Bool) {calls : List (Call α β)}
      (hmay : ∀ c ∈ calls.head?, c.isWithHost = true) :
      StackStep d (.invoke m unwinding) calls (.arrive m unwinding :: calls) d
  | advance {c : Call α β} (outer : List (Call α β)) (h : c.turn = .dispatcher) :
      StackStep d .advance (c :: outer) ((c.advance d).1 :: outer) (c.advance d).2
  | beginCompile {c : Call α β} {job : CompileJob α} (outer : List (Call α β))
      (h : c.turn = .compiler job) (hidle : job.isCompiling = false) :
      StackStep d .beginCompile (c :: outer) (c.beginCompile :: outer) d
  | endCompile {c : Call α β} {job : CompileJob α} (outcome : Outcome α) (outer : List (Call α β))
      (h : c.turn = .compiler job) (hbusy : job.isCompiling = true) :
      StackStep d (.endCompile outcome) (c :: outer) (c.concludeCompile outcome :: outer) d
  | endRun {c : Call α β} {found : Option (CompiledMethod α)} (outcome : Outcome β)
      (outer : List (Call α β)) (h : c.turn = .engine found) :
      StackStep d (.endRun outcome) (c :: outer) (c.concludeRun outcome :: outer) d
  | leave {c : Call α β} {result : CallResult β} (outer : List (Call α β))
      (h : c.turn = .ended result) : StackStep d .leave (c :: outer) outer d

theorem CallerMove.stackStep_of_apply {d d' : Dispatcher α} {calls calls' : List (Call α β)}
    {move : CallerMove α β} (h : move.apply d calls = some (calls', d')) :
    StackStep d move calls calls' d' := by
  cases calls with
  | nil =>
    cases move with
    | invoke m unwinding =>
      obtain ⟨rfl, rfl⟩ := Prod.mk.inj (Option.some.inj h)
      exact .invoke m unwinding (by simp)
    | _ => cases h
  | cons c outer =>
    cases move with
    | invoke m unwinding =>
      simp only [apply] at h
      split at h
      · rename_i hmay
        obtain ⟨rfl, rfl⟩ := Prod.mk.inj (Option.some.inj h)
        exact .invoke m unwinding (by simpa [mayInvoke] using hmay)
      · cases h
    | advance =>
      cases hturn : c.turn <;> simp only [apply, hturn, reduceCtorEq] at h
      obtain ⟨rfl, rfl⟩ := Prod.mk.inj (Option.some.inj h)
      exact .advance outer hturn
    | beginCompile =>
      cases hturn : c.turn <;> simp only [apply, hturn, reduceCtorEq] at h
      split at h
      · cases h
      · rename_i hidle
        obtain ⟨rfl, rfl⟩ := Prod.mk.inj (Option.some.inj h)
        exact .beginCompile outer hturn (by simpa using hidle)
    | endCompile outcome =>
      cases hturn : c.turn <;> simp only [apply, hturn, reduceCtorEq] at h
      split at h
      · rename_i hbusy
        obtain ⟨rfl, rfl⟩ := Prod.mk.inj (Option.some.inj h)
        exact .endCompile outcome outer hturn hbusy
      · cases h
    | endRun outcome =>
      cases hturn : c.turn <;> simp only [apply, hturn, reduceCtorEq] at h
      obtain ⟨rfl, rfl⟩ := Prod.mk.inj (Option.some.inj h)
      exact .endRun outcome outer hturn
    | leave =>
      cases hturn : c.turn <;> simp only [apply, hturn, reduceCtorEq] at h
      obtain ⟨rfl, rfl⟩ := Prod.mk.inj (Option.some.inj h)
      exact .leave outer hturn

/-! ## Moves of a worker -/

/-- What a move of a worker that is possible does to the dispatcher of the given pool. -/
inductive WorkerStep (d : Dispatcher α) (pool : Pool (CompileJob α)) (i : Nat) :
    WorkerMove α → Dispatcher α → Prop
  | take {r : Request} {rest : List Request} (hfree : pool.workers[i]? = some .free)
      (hqueue : pool.queue = r :: rest) :
      WorkerStep d pool i .take { d with
        pool := some { pool with queue := rest, workers := pool.workers.set i (.busy (.hold r)) } }
  | beginCompile {job : CompileJob α} (hjob : pool.jobOf? i = some job) (h : job.turn = .compiler)
      (hidle : job.isCompiling = false) :
      WorkerStep d pool i .beginCompile { d with pool := some (pool.setJob i job.begin) }
  | endCompile {job : CompileJob α} (outcome : Outcome α) (hjob : pool.jobOf? i = some job)
      (h : job.turn = .compiler) (hbusy : job.isCompiling = true) :
      WorkerStep d pool i (.endCompile outcome)
        { d with pool := some (pool.setJob i (job.conclude outcome)) }
  | advance {job : CompileJob α} (hjob : pool.jobOf? i = some job) (h : job.turn = .dispatcher) :
      WorkerStep d pool i .advance
        { (job.advance false d).2 with pool := some (pool.setJob i (job.advance false d).1) }
  | finish {job : CompileJob α} {failure : Option CompileFailure}
      (hjob : pool.jobOf? i = some job) (h : job.turn = .ended failure) :
      WorkerStep d pool i .finish (d.finishJob i job.request failure)
  | stop (hfree : pool.workers[i]? = some .free) (hqueue : pool.queue = [])
      (hclosed : pool.isOpen = false) :
      WorkerStep d pool i .stop
        { d with pool := some { pool with workers := pool.workers.set i .stopped } }

/-- A job leaves the pool alone. -/
theorem CompileJob.pool_advance (job : CompileJob α) (unwinding : Bool) (d : Dispatcher α) :
    (job.advance unwinding d).2.pool = d.pool := by
  obtain ⟨metrics, log, h⟩ := job.advance_snd unwinding d
  rw [h]

theorem Dispatcher.pool_finishJob (d : Dispatcher α) (worker : Nat) (r : Request)
    (failure : Option CompileFailure) :
    (d.finishJob worker r failure).pool = d.pool.map (·.finish worker) := by
  unfold finishJob
  split <;> rfl

theorem WorkerMove.workerStep_of_apply {d d' : Dispatcher α} {i : Nat} {move : WorkerMove α}
    (h : move.apply d i = some d') : ∃ pool, d.pool = some pool ∧ WorkerStep d pool i move d' := by
  obtain ⟨pool, hpool, hrest⟩ := Option.bind_eq_some_iff.mp h
  refine ⟨pool, hpool, ?_⟩
  cases move with
  | take =>
    obtain ⟨⟨r, pool'⟩, htake, hd⟩ := Option.bind_eq_some_iff.mp hrest
    obtain rfl := Option.some.inj hd
    unfold Pool.take at htake
    split at htake
    · rename_i hfree hqueue
      obtain ⟨rfl, rfl⟩ := Prod.mk.inj (Option.some.inj htake)
      exact .take hfree hqueue
    · cases htake
  | stop =>
    obtain ⟨pool', hstop, hd⟩ := Option.bind_eq_some_iff.mp hrest
    obtain rfl := Option.some.inj hd
    unfold Pool.stop at hstop
    split at hstop
    · rename_i hfree hqueue
      split at hstop
      · cases hstop
      · rename_i hclosed
        obtain rfl := Option.some.inj hstop
        exact .stop hfree hqueue (Bool.eq_false_iff.mpr hclosed)
    · cases hstop
  | beginCompile =>
    obtain ⟨job, hjob, hmove⟩ := Option.bind_eq_some_iff.mp hrest
    cases hturn : job.turn <;> simp only [applyBusy, hturn, reduceCtorEq] at hmove
    split at hmove
    · cases hmove
    · rename_i hidle
      obtain rfl := Option.some.inj hmove
      exact .beginCompile hjob hturn (Bool.eq_false_iff.mpr hidle)
  | endCompile outcome =>
    obtain ⟨job, hjob, hmove⟩ := Option.bind_eq_some_iff.mp hrest
    cases hturn : job.turn <;> simp only [applyBusy, hturn, reduceCtorEq] at hmove
    split at hmove
    · rename_i hbusy
      obtain rfl := Option.some.inj hmove
      exact .endCompile outcome hjob hturn hbusy
    · cases hmove
  | advance =>
    obtain ⟨job, hjob, hmove⟩ := Option.bind_eq_some_iff.mp hrest
    cases hturn : job.turn <;> simp only [applyBusy, hturn, reduceCtorEq] at hmove
    obtain rfl := Option.some.inj hmove
    rw [CompileJob.pool_advance, hpool]
    exact .advance hjob hturn
  | finish =>
    obtain ⟨job, hjob, hmove⟩ := Option.bind_eq_some_iff.mp hrest
    cases hturn : job.turn <;> simp only [applyBusy, hturn, reduceCtorEq] at hmove
    obtain rfl := Option.some.inj hmove
    exact .finish hjob hturn

/-! ## Steps of a system -/

/-- What a step that is possible does to a system. -/
inductive SystemStep (s : System α β) : Label α β → System α β → Prop
  | caller {i : Nat} {move : CallerMove α β} {calls calls' : List (Call α β)} {d' : Dispatcher α}
      (hcalls : s.callers[i]? = some calls) (h : StackStep s.dispatcher move calls calls' d') :
      SystemStep s (.caller i move) ⟨d', s.callers.set i calls'⟩
  | worker {i : Nat} {move : WorkerMove α} {pool : Pool (CompileJob α)} {d' : Dispatcher α}
      (hpool : s.dispatcher.pool = some pool) (h : WorkerStep s.dispatcher pool i move d') :
      SystemStep s (.worker i move) { s with dispatcher := d' }
  | direct (operation : CacheOperation α) :
      SystemStep s (.direct operation)
        { s with dispatcher := { s.dispatcher with cache := operation.apply s.dispatcher.cache } }
  | close :
      SystemStep s .close
        { s with dispatcher := { s.dispatcher with pool := s.dispatcher.pool.map (·.close) } }
  | lose {i : Nat} {pool : Pool (CompileJob α)} {r : Request} (payload : PanicPayload)
      (hpool : s.dispatcher.pool = some pool)
      (hjob : pool.jobOf? i = some ⟨r, .done (some (.panic .other))⟩) :
      SystemStep s (.lose i payload)
        { s with dispatcher := { s.dispatcher.report (.requestPanicked r .other) with
          pool := some (pool.lose i payload) } }

/-- **What a step can do.** A step of a system is a move of one of its callers or workers, or a step
of the host. -/
theorem System.systemStep_of_step {s t : System α β} {label : Label α β}
    (h : s.step label = some t) : SystemStep s label t := by
  cases label with
  | caller i move =>
    obtain ⟨calls, hcalls, hrest⟩ := Option.bind_eq_some_iff.mp h
    obtain ⟨⟨calls', d'⟩, happly, ht⟩ := Option.bind_eq_some_iff.mp hrest
    obtain rfl := Option.some.inj ht
    exact .caller hcalls (CallerMove.stackStep_of_apply happly)
  | worker i move =>
    obtain ⟨d', happly, ht⟩ := Option.bind_eq_some_iff.mp h
    obtain rfl := Option.some.inj ht
    obtain ⟨pool, hpool, hmove⟩ := WorkerMove.workerStep_of_apply happly
    exact .worker hpool hmove
  | direct operation =>
    obtain rfl := Option.some.inj h
    exact .direct operation
  | close =>
    obtain rfl := Option.some.inj h
    exact .close
  | lose i payload =>
    obtain ⟨d', hlose, ht⟩ := Option.bind_eq_some_iff.mp h
    obtain rfl := Option.some.inj ht
    obtain ⟨pool, hpool, hrest⟩ := Option.bind_eq_some_iff.mp hlose
    obtain ⟨job, hjob, hended⟩ := Option.bind_eq_some_iff.mp hrest
    split at hended
    · rename_i hturn
      obtain rfl := Option.some.inj hended
      obtain ⟨r, rfl⟩ := CompileJob.exists_done_of_turn hturn
      exact .lose payload hpool hjob
    · cases hended

end TieredDispatch

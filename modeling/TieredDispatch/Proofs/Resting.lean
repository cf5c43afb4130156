import TieredDispatch.Proofs.Nesting
import TieredDispatch.Proofs.Transcripts

/-!
# Coming to rest

**Theorem (`comes_to_rest`).** Without new calls everything comes to rest: the calls in progress end
and are left, and what is queued or in flight is completed. There is an end to it however the
callers and the workers move, and until then somebody can move, whatever the compiler and the engine
answer.

Every piece of work has some moves left (`Work.movesLeft`), and each move uses up one of them. Those
of a call are counted twice, which leaves room for what it hands to the pool.
-/

namespace TieredDispatch

variable {α β : Type}

/-! ## Ranks -/

namespace CompileJob

variable {job : CompileJob α}

theorem rank_begin_lt (h : job.turn = .compiler) (hidle : job.isCompiling = false) :
    job.begin.stage.rank < job.stage.rank := by
  obtain ⟨r, stage⟩ := job
  cases stage with
  | holding => simp [begin, CompileStage.rank]
  | compiling => cases hidle
  | _ => cases h

theorem rank_conclude_lt_of_isCompiling (outcome : Outcome α) (hbusy : job.isCompiling = true) :
    (job.conclude outcome).stage.rank < job.stage.rank := by
  rw [eq_of_isCompiling hbusy]
  cases outcome <;> simp [conclude, CompileStage.rank]

end CompileJob

namespace Call

variable {c : Call α β}

theorem rank_beginCompile_lt {job : CompileJob α} (h : c.turn = .compiler job)
    (hidle : job.isCompiling = false) : c.beginCompile.rank < c.rank := by
  obtain ⟨hstage, hturn⟩ := stage_of_turn_compiler h
  have hlt := job.rank_begin_lt hturn hidle
  simp only [beginCompile, hstage, rank]
  omega

theorem rank_concludeCompile_lt {job : CompileJob α} (outcome : Outcome α)
    (h : c.turn = .compiler job) (hbusy : job.isCompiling = true) :
    (c.concludeCompile outcome).rank < c.rank := by
  obtain ⟨hstage, -⟩ := stage_of_turn_compiler h
  have hlt := job.rank_conclude_lt_of_isCompiling outcome hbusy
  simp only [concludeCompile, hstage, rank]
  omega

theorem rank_concludeRun_lt {found : Option (CompiledMethod α)} (outcome : Outcome β)
    (h : c.turn = .engine found) : (c.concludeRun outcome).rank < c.rank := by
  simp [concludeRun, rank, stage_of_turn_engine h]

end Call

/-! ## Moves that are left -/

/-- The moves that are left for a piece of work, at most. -/
def Work.movesLeft : Work α β → Nat
  | call c => 2 * c.rank + 1
  | job j => j.stage.rank + 1
  | queued _ => 8

/-- The moves that are left for some work. -/
def Work.movesLeftOf (w : Multiset (Work α β)) : Nat :=
  (w.map movesLeft).sum

namespace Work

@[simp]
theorem movesLeftOf_zero : movesLeftOf (0 : Multiset (Work α β)) = 0 := rfl

@[simp]
theorem movesLeftOf_add (w w' : Multiset (Work α β)) :
    movesLeftOf (w + w') = movesLeftOf w + movesLeftOf w' := by
  rw [movesLeftOf, Multiset.map_add, Multiset.sum_add, movesLeftOf, movesLeftOf]

@[simp]
theorem movesLeftOf_singleton (piece : Work α β) : movesLeftOf {piece} = piece.movesLeft := by
  rw [movesLeftOf, Multiset.map_singleton, Multiset.sum_singleton]

theorem movesLeftOf_call (c : Call α β) : movesLeftOf {.call c} = 2 * c.rank + 1 :=
  movesLeftOf_singleton _

theorem movesLeftOf_job (j : CompileJob α) :
    movesLeftOf ({.job j} : Multiset (Work α β)) = j.stage.rank + 1 :=
  movesLeftOf_singleton _

end Work

/-- The moves that are left for all work of a system. -/
def System.movesLeft (s : System α β) : Nat :=
  Work.movesLeftOf s.work

/-- A step of the dispatcher on a call uses up more than what the call hands to the pool takes. -/
theorem Call.movesLeft_advance_lt {c : Call α β} (d : Dispatcher α) (h : c.turn = .dispatcher) :
    let handed : Multiset (Work α β) := Multiset.ofList ((c.submits? d).map .queued).toList
    2 * (c.advance d).1.rank + Work.movesLeftOf handed < 2 * c.rank := by
  intro handed
  have hlt := c.rank_advance_lt d h
  have hsilent : c.submits? d = none →
      2 * (c.advance d).1.rank + Work.movesLeftOf handed < 2 * c.rank := by
    intro hnone
    simp only [handed, hnone, Option.map_none, Option.toList_none, Multiset.coe_nil,
      Work.movesLeftOf_zero]
    omega
  obtain ⟨stage, hnext, hstep⟩ := c.exists_stageStep d h
  obtain ⟨m, unwinding, before⟩ := c
  cases hstep with
  | send _ _ hsent =>
    simp [handed, hnext, submits?_of_send hsent, Work.movesLeft, rank]
  | hold _ _ hnone => exact hsilent (submits?_of_hold hnone)
  | _ => exact hsilent rfl

/-- A call that comes closer to its end has fewer moves left. -/
theorem Work.movesLeftOf_call_lt {c c' : Call α β} (h : c'.rank < c.rank) (outer : List (Call α β))
    (w : Multiset (Work α β)) :
    movesLeftOf (Multiset.ofList ((c' :: outer).map .call) + w) <
      movesLeftOf (Multiset.ofList ((c :: outer).map .call) + w) := by
  rw [coe_map_call_cons, coe_map_call_cons]
  simp only [movesLeftOf_add, movesLeftOf_call]
  omega

theorem StackStep.movesLeft_lt {d d' : Dispatcher α} {calls calls' : List (Call α β)}
    {move : CallerMove α β} (h : StackStep d move calls calls' d')
    (hmove : ∀ m unwinding, move ≠ .invoke m unwinding) :
    Work.movesLeftOf (Multiset.ofList (calls'.map .call) + d'.work) <
      Work.movesLeftOf (Multiset.ofList (calls.map .call) + d.work) := by
  cases h with
  | invoke m unwinding => exact absurd rfl (hmove m unwinding)
  | advance outer hturn =>
    have hlt := Call.movesLeft_advance_lt d hturn
    rw [coe_map_call_cons, coe_map_call_cons, Call.work_advance]
    simp only [Work.movesLeftOf_add, Work.movesLeftOf_call]
    omega
  | beginCompile outer hturn hidle =>
    exact Work.movesLeftOf_call_lt (Call.rank_beginCompile_lt hturn hidle) outer _
  | endCompile outcome outer hturn hbusy =>
    exact Work.movesLeftOf_call_lt (Call.rank_concludeCompile_lt outcome hturn hbusy) outer _
  | endRun outcome outer hturn =>
    exact Work.movesLeftOf_call_lt (Call.rank_concludeRun_lt outcome hturn) outer _
  | leave outer hturn =>
    rw [coe_map_call_cons]
    simp only [Work.movesLeftOf_add, Work.movesLeftOf_call]
    omega

/-- A job that comes closer to its end has fewer moves left. -/
theorem Pool.movesLeftOf_setJob_lt {pool : Pool (CompileJob α)} {i : Nat}
    {job job' : CompileJob α} (hjob : pool.jobOf? i = some job)
    (h : job'.stage.rank < job.stage.rank) :
    Work.movesLeftOf ((pool.setJob i job').work : Multiset (Work α β)) <
      Work.movesLeftOf (pool.work : Multiset (Work α β)) := by
  obtain ⟨frame, hold, hset, -⟩ := work_of_jobOf? (β := β) hjob
  rw [hold, hset]
  simp only [Work.movesLeftOf_add, Work.movesLeftOf_job]
  omega

/-- A worker of an open pool only moves where there is something to do. -/
theorem WorkerStep.movesLeft_lt {d d' : Dispatcher α} {pool : Pool (CompileJob α)} {i : Nat}
    {move : WorkerMove α} (h : WorkerStep d pool i move d') (hpool : d.pool = some pool)
    (hopen : pool.isOpen = true) :
    Work.movesLeftOf (d'.work : Multiset (Work α β)) <
      Work.movesLeftOf (d.work : Multiset (Work α β)) := by
  rw [Dispatcher.work_of_pool hpool]
  cases h with
  | take hfree hqueue =>
    obtain ⟨frame, hold, hnew⟩ := Pool.work_take (β := β) hfree hqueue
    rw [Dispatcher.work_of_pool rfl, hold, hnew, Work.movesLeftOf_add, Work.movesLeftOf_add]
    simp [Work.movesLeft, CompileJob.hold, CompileStage.rank]
  | beginCompile hjob hturn hidle =>
    exact Pool.movesLeftOf_setJob_lt hjob (CompileJob.rank_begin_lt hturn hidle)
  | endCompile outcome hjob hturn hbusy =>
    exact Pool.movesLeftOf_setJob_lt hjob (CompileJob.rank_conclude_lt_of_isCompiling outcome hbusy)
  | @advance job hjob hturn =>
    exact Pool.movesLeftOf_setJob_lt hjob (job.rank_advance_lt false d hturn)
  | finish hjob hturn =>
    obtain ⟨frame, hold, -, hfinish⟩ := Pool.work_of_jobOf? (β := β) hjob
    rw [Dispatcher.work_finishJob, hpool, Option.map_some, Option.map_some, Option.getD_some,
      hfinish, hold, Work.movesLeftOf_add, Work.movesLeftOf_job]
    omega
  | stop hfree hqueue hclosed =>
    rw [hopen] at hclosed
    cases hclosed

/-- Where nothing is in an open pool, no worker moves. -/
theorem WorkerStep.work_ne_zero {d d' : Dispatcher α} {pool : Pool (CompileJob α)} {i : Nat}
    {move : WorkerMove α} (h : WorkerStep d pool i move d') (hpool : d.pool = some pool)
    (hopen : pool.isOpen = true) : (d.work : Multiset (Work α β)) ≠ 0 := by
  intro hnone
  have hlt := h.movesLeft_lt (β := β) hpool hopen
  rw [hnone] at hlt
  exact Nat.not_lt_zero _ hlt

/-! ## Somebody can move -/

/-- What happens is what a host with the given answers does. -/
def Occurrence.IsBy (answer : Request → Outcome α)
    (engine : MethodId → Option (CompiledMethod α) → Outcome β) : Occurrence α β → Prop
  | compiled r outcome => outcome = answer r
  | ran m found outcome => outcome = engine m found
  | returned _ _ => True

section Moves

variable (answer : Request → Outcome α) (engine : MethodId → Option (CompiledMethod α) → Outcome β)

/-- Whoever has a call next can make a move for it. -/
theorem Call.exists_apply (c : Call α β) (outer : List (Call α β)) (d : Dispatcher α) :
    ∃ move : CallerMove α β, (∀ m unwinding, move ≠ .invoke m unwinding) ∧
      (move.apply d (c :: outer)).isSome ∧
      ∀ occurrence ∈ move.occurrence? (c :: outer), occurrence.IsBy answer engine := by
  cases hturn : c.turn with
  | dispatcher =>
    refine ⟨.advance, by simp, by simp [CallerMove.apply, hturn], fun occurrence hmem => ?_⟩
    cases hmem
  | compiler job =>
    cases hbusy : job.isCompiling with
    | false =>
      refine ⟨.beginCompile, by simp, by simp [CallerMove.apply, hturn, hbusy],
        fun occurrence hmem => ?_⟩
      cases hmem
    | true =>
      refine ⟨.endCompile (answer job.request), by simp, by simp [CallerMove.apply, hturn, hbusy],
        fun occurrence hmem => ?_⟩
      simp only [CallerMove.occurrence?, compiles?_of_turn hturn, Option.map_some,
        Option.mem_some_iff] at hmem
      exact hmem ▸ rfl
  | engine found =>
    refine ⟨.endRun (engine c.method found), by simp, by simp [CallerMove.apply, hturn],
      fun occurrence hmem => ?_⟩
    simp only [CallerMove.occurrence?, stage_of_turn_engine hturn, Option.mem_some_iff] at hmem
    exact hmem ▸ rfl
  | ended result =>
    refine ⟨.leave, by simp, by simp [CallerMove.apply, hturn], fun occurrence hmem => ?_⟩
    simp only [CallerMove.occurrence?, stage_of_turn_ended hturn, Option.mem_some_iff] at hmem
    exact hmem ▸ trivial

/-- A worker that is busy can make a move. -/
theorem Dispatcher.exists_busyMove {d : Dispatcher α} {pool : Pool (CompileJob α)} {i : Nat}
    {job : CompileJob α} (hpool : d.pool = some pool) (hjob : pool.jobOf? i = some job) :
    ∃ move : WorkerMove α, (move.apply d i).isSome ∧
      ∀ occurrence ∈ (move.occurrence? job : Option (Occurrence α β)),
        occurrence.IsBy answer engine := by
  cases hturn : job.turn with
  | dispatcher =>
    refine ⟨.advance, by simp [WorkerMove.apply, WorkerMove.applyBusy, hpool, hjob, hturn],
      fun occurrence hmem => ?_⟩
    cases hmem
  | compiler =>
    cases hbusy : job.isCompiling with
    | false =>
      refine ⟨.beginCompile,
        by simp [WorkerMove.apply, WorkerMove.applyBusy, hpool, hjob, hturn, hbusy],
        fun occurrence hmem => ?_⟩
      cases hmem
    | true =>
      refine ⟨.endCompile (answer job.request),
        by simp [WorkerMove.apply, WorkerMove.applyBusy, hpool, hjob, hturn, hbusy],
        fun occurrence hmem => ?_⟩
      obtain rfl := Option.mem_some_iff.mp hmem
      rfl
  | ended failure =>
    refine ⟨.finish, by simp [WorkerMove.apply, WorkerMove.applyBusy, hpool, hjob, hturn],
      fun occurrence hmem => ?_⟩
    cases hmem

/-- Where there is something in an open pool, a worker can make a move: one that is busy, or else
one that is free and takes the oldest request. -/
theorem Dispatcher.exists_workerMove {d : Dispatcher α} {pool : Pool (CompileJob α)}
    (hpool : d.pool = some pool) (hopen : pool.isOpen = true) (hstaffed : pool.IsStaffed)
    (hwork : (pool.work : Multiset (Work α β)) ≠ 0) :
    ∃ (i : Nat) (move : WorkerMove α), (move.apply d i).isSome ∧
      ∀ occurrence ∈ (pool.jobOf? i).bind (move.occurrence? (β := β)),
        occurrence.IsBy answer engine := by
  by_cases hbusy : ∃ i job, pool.jobOf? i = some job
  · obtain ⟨i, job, hjob⟩ := hbusy
    obtain ⟨move, hsome, hby⟩ := d.exists_busyMove answer engine hpool hjob
    exact ⟨i, move, hsome, by rwa [hjob]⟩
  · have hfree : ∀ worker ∈ pool.workers, worker = .free := by
      intro worker hworker
      have halive := (hstaffed hopen).2 worker hworker
      obtain ⟨i, hi⟩ := List.mem_iff_getElem?.mp hworker
      cases worker with
      | free => rfl
      | busy job => exact absurd ⟨i, job, by simp [Pool.jobOf?, hi, Worker.job?]⟩ hbusy
      | stopped | lost => cases halive
    have hidle : pool.workers.flatMap (Worker.work (α := α) (β := β)) = [] :=
      List.flatMap_eq_nil_iff.mpr fun worker hworker => by rw [hfree worker hworker]; rfl
    obtain ⟨r, rest, hqueue⟩ : ∃ r rest, pool.queue = r :: rest := by
      refine List.exists_cons_of_ne_nil fun hnil => hwork ?_
      simp [Pool.work, hidle, hnil]
    obtain ⟨worker, workers, hworkers⟩ := List.exists_cons_of_ne_nil (hstaffed hopen).1
    obtain rfl := hfree worker (by simp [hworkers])
    refine ⟨0, .take, ?_, ?_⟩
    · simp [WorkerMove.apply, hpool, Pool.take, hworkers, hqueue]
    · simp [Pool.jobOf?, hworkers, Worker.job?]

end Moves

namespace System

variable {s t : System α β} {label : Label α β} {labels : List (Label α β)}

/-- Going on with what was begun uses up moves. -/
theorem movesLeft_step (hgoes : label.goesOn) (hstep : s.step label = some t)
    (hreceiving : s.IsReceiving) : t.movesLeft < s.movesLeft := by
  rw [movesLeft, movesLeft]
  cases systemStep_of_step hstep with
  | @caller i move calls calls' d' hcaller hmove =>
    obtain ⟨others, hold, hnew⟩ := flatMap_set (List.map (Work.call (α := α) (β := β))) hcaller
    have hlt := hmove.movesLeft_lt fun m unwinding heq => by
      subst heq
      cases hgoes
    simp only [Work.movesLeftOf_add] at hlt
    simp only [work, hold, hnew, Work.movesLeftOf_add]
    omega
  | worker hpool hmove =>
    have hlt := hmove.movesLeft_lt (β := β) hpool (hreceiving _ hpool).1
    simp only [work, Work.movesLeftOf_add]
    omega
  | direct | close | lose => cases hgoes

theorem isReceiving_of_goesOn (hgoes : label.goesOn) (hstep : s.step label = some t)
    (h : s.IsReceiving) : t.IsReceiving := by
  refine isReceiving_step ?_ ?_ hstep h
  · rintro rfl
    cases hgoes
  · cases label with
    | lose => cases hgoes
    | _ => rfl

theorem isReceiving_run (hgoes : ∀ label ∈ labels, label.goesOn) (hrun : s.run labels = some t)
    (h : s.IsReceiving) : t.IsReceiving ∧ t.movesLeft + labels.length ≤ s.movesLeft := by
  induction labels generalizing s with
  | nil =>
    obtain rfl := Option.some.inj hrun
    exact ⟨h, Nat.le_refl _⟩
  | cons label labels ih =>
    obtain ⟨u, hstep, hrest⟩ := Option.bind_eq_some_iff.mp hrun
    rw [List.forall_mem_cons] at hgoes
    obtain ⟨hnext, hle⟩ := ih hgoes.2 hrest (isReceiving_of_goesOn hgoes.1 hstep h)
    have hlt := movesLeft_step hgoes.1 hstep h
    rw [List.length_cons]
    exact ⟨hnext, by omega⟩

section Progress

variable (answer : Request → Outcome α) (engine : MethodId → Option (CompiledMethod α) → Outcome β)

/-- A caller with a call in progress can make a move for it. -/
theorem exists_callerStep {i : Nat} (h : s.callsOf i ≠ []) :
    ∃ move, (∀ m unwinding, move ≠ .invoke m unwinding) ∧ (s.step (.caller i move)).isSome ∧
      ∀ occurrence ∈ s.occurrence? (.caller i move), occurrence.IsBy answer engine := by
  obtain ⟨c, outer, hcalls⟩ := List.exists_cons_of_ne_nil h
  obtain ⟨move, hmove, happly, hby⟩ := c.exists_apply answer engine outer s.dispatcher
  obtain ⟨⟨calls, d⟩, happly⟩ := Option.isSome_iff_exists.mp happly
  refine ⟨move, hmove, ?_, by rwa [occurrence?, hcalls]⟩
  simp [step, callers_of_callsOf hcalls, happly]

/-- Where something is under way, somebody can go on with it. -/
theorem exists_step (hreceiving : s.IsReceiving) (hwork : s.work ≠ 0) :
    ∃ label t, label.goesOn ∧ s.step label = some t ∧
      ∀ occurrence ∈ s.occurrence? label, occurrence.IsBy answer engine := by
  by_cases hcalls : ∃ i, s.callsOf i ≠ []
  · obtain ⟨i, hcalls⟩ := hcalls
    obtain ⟨move, hmove, hsome, hby⟩ := exists_callerStep answer engine hcalls
    obtain ⟨t, hstep⟩ := Option.isSome_iff_exists.mp hsome
    refine ⟨.caller i move, t, ?_, hstep, hby⟩
    cases move with
    | invoke m unwinding => exact absurd rfl (hmove m unwinding)
    | _ => rfl
  · obtain ⟨piece, hpiece⟩ := Multiset.exists_mem_of_ne_zero hwork
    have hcall : ∀ c, piece ≠ .call c := by
      rintro c rfl
      obtain ⟨i, hc⟩ := call_mem_work.mp hpiece
      exact hcalls ⟨i, List.ne_nil_of_mem hc⟩
    obtain ⟨pool, hpool⟩ := Option.isSome_iff_exists.mp (isSome_pool_of_mem_work hpiece hcall)
    obtain ⟨hopen, hstaffed⟩ := hreceiving pool hpool
    have hleft : (pool.work : Multiset (Work α β)) ≠ 0 := by
      intro hzero
      have hmem := mem_dispatcher_work hpiece hcall
      rw [Dispatcher.work_of_pool hpool, hzero] at hmem
      exact Multiset.notMem_zero _ hmem
    obtain ⟨i, move, happly, hby⟩ :=
      Dispatcher.exists_workerMove answer engine hpool hopen hstaffed hleft
    obtain ⟨d, happly⟩ := Option.isSome_iff_exists.mp happly
    refine ⟨.worker i move, { s with dispatcher := d }, rfl, by simp [step, happly], ?_⟩
    rw [occurrence?, hpool]
    exact hby

/-- **Everything comes to rest.** Take any state whose pool, if there is one, receives what it is
handed, and let the callers and the workers go on with what was begun, in any order, without new
calls. There is an end to the moves, and as long as something is under way somebody can make one,
whatever the compiler and the engine answer. -/
theorem comes_to_rest (hreceiving : s.IsReceiving)
    (hgoes : ∀ label ∈ labels, label.goesOn) (hrun : s.run labels = some t) :
    t.movesLeft + labels.length ≤ s.movesLeft ∧
    (t.work ≠ 0 → ∃ label u, label.goesOn ∧ t.step label = some u ∧
      ∀ occurrence ∈ t.occurrence? label, occurrence.IsBy answer engine) := by
  obtain ⟨hnext, hle⟩ := isReceiving_run hgoes hrun hreceiving
  exact ⟨hle, exists_step answer engine hnext⟩

/-- So what was begun can be brought to its end. -/
theorem exists_rest (hreceiving : s.IsReceiving) :
    ∃ labels t, (∀ label ∈ labels, label.goesOn) ∧ s.run labels = some t ∧ t.work = 0 ∧
      ∀ occurrence ∈ s.transcript labels, occurrence.IsBy answer engine := by
  induction hleft : s.movesLeft using Nat.strong_induction_on generalizing s with
  | _ n ih =>
    by_cases hwork : s.work = 0
    · exact ⟨[], s, List.forall_mem_nil _, rfl, hwork, List.forall_mem_nil _⟩
    · obtain ⟨label, u, hgoes, hstep, hby⟩ := exists_step answer engine hreceiving hwork
      have hlt := movesLeft_step hgoes hstep hreceiving
      obtain ⟨labels, t, hrest, hrun, hover, hall⟩ :=
        ih _ (hleft ▸ hlt) (isReceiving_of_goesOn hgoes hstep hreceiving) rfl
      refine ⟨label :: labels, t, List.forall_mem_cons.mpr ⟨hgoes, hrest⟩, ?_, hover, ?_⟩
      · rw [run, hstep, Option.bind_some, hrun]
      · rw [transcript_cons_of_step hstep]
        intro occurrence hmem
        rcases List.mem_append.mp hmem with hfirst | hlater
        · exact hby occurrence (Option.mem_toList.mp hfirst)
        · exact hall occurrence hlater

end Progress

end System

end TieredDispatch

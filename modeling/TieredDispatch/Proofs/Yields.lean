import TieredDispatch.Proofs.Solo
import TieredDispatch.Proofs.Task
import TieredDispatch.Proofs.Transcripts

/-!
# What a call yields

A call of a method leaves three things behind: a ledger, what the meters of compilations show, and
its compile call, if it made one. They are told by the ledger at its beginning and by what the
compiler answers (`Yield.ofCall`).

A compilation comes to its yield stage by stage (`Compiling`), for a call that compiles inline and
for a worker alike; in the pool the request waits for a worker before, and the worker comes free
afterwards (`InPool`).
-/

namespace TieredDispatch

variable {α β : Type}

/-! ## Meters of compilations -/

/-- Whether the meter tells of compilations, and not of calls and requests. -/
def Meter.isOfCompilations : Meter → Bool
  | compilations _ | failures | superseded => true
  | interpretations | executions | denials | queued => false

/-- The meters of compilations show the same. -/
def Metrics.Agree (metrics metrics' : Metrics) : Prop :=
  ∀ k : Meter, k.isOfCompilations = true → metrics.value k = metrics'.value k

namespace Metrics.Agree

variable {metrics metrics' : Metrics} {k : Meter}

theorem trans {metrics'' : Metrics} (h : metrics.Agree metrics') (h' : metrics'.Agree metrics'') :
    metrics.Agree metrics'' :=
  fun j hj => (h j hj).trans (h' j hj)

theorem symm (h : metrics.Agree metrics') : metrics'.Agree metrics :=
  fun j hj => (h j hj).symm

theorem bump (h : metrics.Agree metrics') (k : Meter) :
    (metrics.bump k).Agree (metrics'.bump k) := by
  intro j hj
  rw [value_bump, value_bump, h j hj]

theorem bump_right (h : metrics.Agree metrics') (hk : k.isOfCompilations = false) :
    metrics.Agree (metrics'.bump k) := by
  intro j hj
  rw [value_bump, if_neg, h j hj]
  rintro rfl
  rw [hk] at hj
  cases hj

theorem foldl (h : metrics.Agree metrics') (ks : List Meter) :
    (ks.foldl Metrics.bump metrics).Agree (ks.foldl Metrics.bump metrics') := by
  induction ks generalizing metrics metrics' with
  | nil => exact h
  | cons k ks ih => exact ih (h.bump k)

end Metrics.Agree

theorem Meter.isOfCompilations_ofRun (found : Option (CompiledMethod α)) :
    (Meter.ofRun found).isOfCompilations = false := by
  cases found <;> rfl

/-! ## What a round yields -/

/-- What a round has come to: the ledger, the meters of compilations, and the compile calls that
ended. -/
structure Yield (α : Type) where
  ledger : Ledger α
  metrics : Metrics
  compilations : List (Request × Outcome α)

/-- The ledger when a call was granted the request that it asks for. -/
def Ledger.granted (l : Ledger α) (r : Request) : Ledger α :=
  (l.count r.method).mark r

/-- What a compilation yields that ends like that. -/
def Yield.ofCompilation (l : Ledger α) (metrics : Metrics) (r : Request) (outcome : Outcome α) :
    Yield α :=
  ⟨l.conclude r outcome, (l.bumps r outcome).foldl Metrics.bump metrics, [(r, outcome)]⟩

/-- What a call yields, with the compilation that it asks for. -/
def Yield.ofCall (l : Ledger α) (metrics : Metrics) (m : MethodId)
    (answer : Request → Outcome α) : Yield α :=
  match l.demand? m with
  | none => ⟨l.count m, metrics, []⟩
  | some tier => .ofCompilation (l.granted ⟨m, tier⟩) metrics ⟨m, tier⟩ (answer ⟨m, tier⟩)

theorem Yield.ofCall_of_demand? {l : Ledger α} {m : MethodId} {tier : Tier}
    (hdemand : l.demand? m = some tier) (metrics : Metrics) (answer : Request → Outcome α) :
    ofCall l metrics m answer =
      .ofCompilation (l.granted ⟨m, tier⟩) metrics ⟨m, tier⟩ (answer ⟨m, tier⟩) := by
  rw [ofCall, hdemand]

/-- An artifact that is not refused is published when its compilation is done. -/
theorem Ledger.active_conclude {l : Ledger α} {r : Request} (hfresh : l.refuses r = false)
    (artifact : α) :
    (l.conclude r (.value artifact)).active r.method = some ⟨r.tier, artifact⟩ := by
  rw [conclude, active_place, if_neg (by rw [← refuses]; exact Bool.eq_false_iff.mp hfresh)]
  exact Function.update_self ..

/-- The dispatcher stands where a round has come to. -/
structure Dispatcher.Yields (d : Dispatcher α) (y : Yield α) : Prop where
  ledger : d.ledger = y.ledger
  metrics : y.metrics.Agree d.metrics

/-! ## The compilation -/

/-- Where the compilation of a request stands that ends with the given outcome, and what it has come
to. -/
inductive Compiling (l : Ledger α) (metrics : Metrics) (r : Request) (outcome : Outcome α) :
    CompileStage α → Yield α → Prop
  | holding : Compiling l metrics r outcome .holding ⟨l, metrics, []⟩
  | compiling : Compiling l metrics r outcome .compiling ⟨l, metrics, []⟩
  | compiled {artifact : α} (h : outcome = .value artifact) :
      Compiling l metrics r outcome (.compiled artifact) ⟨l, metrics, [(r, outcome)]⟩
  | counted {artifact : α} (h : outcome = .value artifact) :
      Compiling l metrics r outcome (.counted artifact)
        ⟨l, metrics.bump (.compilations r.tier), [(r, outcome)]⟩
  | recorded {artifact : α} (h : outcome = .value artifact) :
      Compiling l metrics r outcome (.recorded artifact)
        ⟨l.mark r, metrics.bump (.compilations r.tier), [(r, outcome)]⟩
  | failed {cause : CompileFailure} (h : outcome.failure? = some cause) :
      Compiling l metrics r outcome (.failed cause) ⟨l, metrics, [(r, outcome)]⟩
  | released {cause : CompileFailure} (h : outcome.failure? = some cause) :
      Compiling l metrics r outcome (.released cause) ⟨l.unmark r, metrics, [(r, outcome)]⟩
  | done {failure : Option CompileFailure} (h : outcome.failure? = failure) :
      Compiling l metrics r outcome (.done failure) (.ofCompilation l metrics r outcome)

namespace Compiling

variable {l : Ledger α} {metrics : Metrics} {r : Request} {outcome : Outcome α}
  {stage : CompileStage α} {y : Yield α} {d : Dispatcher α}

/-- A step of the dispatcher, if no artifact of a higher tier is there. -/
theorem advance (h : Compiling l metrics r outcome stage y) (hfresh : l.refuses r = false)
    (hturn : (⟨r, stage⟩ : CompileJob α).turn = .dispatcher) (hd : d.Yields y) :
    ∃ stage' y', (CompileJob.advance ⟨r, stage⟩ false d).1 = ⟨r, stage'⟩ ∧
      Compiling l metrics r outcome stage' y' ∧ y'.compilations = y.compilations ∧
      (CompileJob.advance ⟨r, stage⟩ false d).2.Yields y' := by
  have hledger := CompileJob.ledger_advance ⟨r, stage⟩ false d
  have hmetrics := CompileJob.metrics_advance ⟨r, stage⟩ false d
  rw [hd.ledger] at hledger
  cases h with
  | holding | compiling | done => cases hturn
  | compiled hvalue =>
    exact ⟨_, _, rfl, .counted hvalue, rfl, hledger, hmetrics ▸ hd.metrics.bump _⟩
  | counted hvalue => exact ⟨_, _, rfl, .recorded hvalue, rfl, hledger, hmetrics ▸ hd.metrics⟩
  | @recorded artifact hvalue =>
    have htaken : (d.cache.place r.method ⟨r.tier, artifact⟩).1 = true := by
      rw [CompilationCache.place_fst]
      have hrefuses : d.ledger.refuses r = false := by
        rw [hd.ledger]
        exact hfresh
      exact congrArg (!·) hrefuses
    refine ⟨.done none, .ofCompilation l metrics r outcome, ?_, .done (by rw [hvalue]; rfl), rfl,
      ?_, ?_⟩
    · simp only [CompileJob.advance, htaken, if_true]
    · rw [hledger, hvalue]
      rfl
    · rw [hmetrics, hvalue, Yield.ofCompilation, Ledger.bumps, hfresh]
      exact hd.metrics
  | failed hcause => exact ⟨_, _, rfl, .released hcause, rfl, hledger, hmetrics ▸ hd.metrics⟩
  | @released cause hcause =>
    refine ⟨.done (some cause), .ofCompilation l metrics r outcome, ?_, .done hcause, rfl, ?_, ?_⟩
    · cases cause <;> rfl
    · rw [hledger]
      cases outcome with
      | value artifact => cases hcause
      | error | panic => rfl
    · rw [hmetrics]
      cases outcome with
      | value artifact => cases hcause
      | error | panic => exact hd.metrics.bump .failures

/-- The compiler's call ends. -/
theorem conclude (h : Compiling l metrics r outcome stage y)
    (hbusy : (⟨r, stage⟩ : CompileJob α).isCompiling = true) :
    ∃ stage' y', (⟨r, stage⟩ : CompileJob α).conclude outcome = ⟨r, stage'⟩ ∧
      Compiling l metrics r outcome stage' y' ∧ y.compilations = [] ∧
      y'.compilations = [(r, outcome)] ∧ y'.ledger = y.ledger ∧ y'.metrics = y.metrics := by
  cases h with
  | compiling =>
    cases outcome with
    | value artifact => exact ⟨_, _, rfl, .compiled rfl, rfl, rfl, rfl, rfl⟩
    | error | panic => exact ⟨_, _, rfl, .failed rfl, rfl, rfl, rfl, rfl⟩
  | _ => cases hbusy

/-- The compiler is called. -/
theorem begin (h : Compiling l metrics r outcome stage y)
    (hturn : (⟨r, stage⟩ : CompileJob α).turn = .compiler)
    (hidle : (⟨r, stage⟩ : CompileJob α).isCompiling = false) :
    (⟨r, stage⟩ : CompileJob α).begin = ⟨r, .compiling⟩ ∧
      Compiling l metrics r outcome .compiling y := by
  cases h with
  | holding => exact ⟨rfl, .compiling⟩
  | compiling => cases hidle
  | _ => cases hturn

/-- A compilation is done with what it yields. -/
theorem eq_of_done {failure : Option CompileFailure}
    (h : Compiling l metrics r outcome (.done failure) y) :
    outcome.failure? = failure ∧ y = .ofCompilation l metrics r outcome := by
  cases h with
  | done hfailure => exact ⟨hfailure, rfl⟩

/-- What is published was so before the compilation, or is its artifact. -/
theorem active (h : Compiling l metrics r outcome stage y) (hfresh : l.refuses r = false) :
    y.ledger.active r.method = l.active r.method ∨
      ∃ artifact, outcome = .value artifact ∧
        y.ledger.active r.method = some ⟨r.tier, artifact⟩ := by
  cases h with
  | done =>
    cases outcome with
    | value artifact => exact .inr ⟨artifact, rfl, Ledger.active_conclude hfresh artifact⟩
    | error | panic => exact .inl rfl
  | _ => exact .inl rfl

end Compiling

/-- A request in the pool, and what its compilation has come to. -/
inductive InPool (l : Ledger α) (metrics : Metrics) (r : Request) (outcome : Outcome α) :
    Multiset (Work α β) → Yield α → Prop
  | queued : InPool l metrics r outcome {.queued r} ⟨l, metrics, []⟩
  | busy {stage : CompileStage α} {y : Yield α} (h : Compiling l metrics r outcome stage y) :
      InPool l metrics r outcome {.job ⟨r, stage⟩} y
  /-- The worker is free again. -/
  | finished : InPool l metrics r outcome 0 (.ofCompilation l metrics r outcome)

section Workers

variable {l : Ledger α} {metrics : Metrics} {r : Request} {outcome : Outcome α} {y : Yield α}
  {d d' : Dispatcher α} {pool : Pool (CompileJob α)} {worker : Nat} {move : WorkerMove α}

theorem InPool.active {work : Multiset (Work α β)} (h : InPool l metrics r outcome work y)
    (hfresh : l.refuses r = false) :
    y.ledger.active r.method = l.active r.method ∨
      ∃ artifact, outcome = .value artifact ∧
        y.ledger.active r.method = some ⟨r.tier, artifact⟩ := by
  cases h with
  | queued => exact .inl rfl
  | busy hcompiling => exact hcompiling.active hfresh
  | finished => exact (Compiling.done rfl).active hfresh

theorem InPool.of_eq {w w' : Multiset (Work α β)} (heq : w' = w)
    (h : InPool l metrics r outcome w y) : InPool l metrics r outcome w' y :=
  heq ▸ h

/-- What is in the pool is the request, in the queue or with a worker. -/
theorem InPool.of_eq_add {w frame : Multiset (Work α β)} {piece : Work α β}
    (h : InPool l metrics r outcome w y) (hpiece : w = {piece} + frame) :
    frame = 0 ∧ ((piece = .queued r ∧ y = ⟨l, metrics, []⟩) ∨
      ∃ stage, piece = .job ⟨r, stage⟩ ∧ Compiling l metrics r outcome stage y) := by
  rw [Multiset.singleton_add] at hpiece
  cases h with
  | queued =>
    obtain ⟨rfl, hframe⟩ := (Multiset.singleton_eq_cons_iff frame).mp hpiece
    exact ⟨hframe, .inl ⟨rfl, rfl⟩⟩
  | busy hjob =>
    obtain ⟨rfl, hframe⟩ := (Multiset.singleton_eq_cons_iff frame).mp hpiece
    exact ⟨hframe, .inr ⟨_, rfl, hjob⟩⟩
  | finished => exact absurd hpiece.symm Multiset.cons_ne_zero

/-- The job of a worker is the compilation of the request. -/
theorem InPool.of_jobOf? (h : InPool l metrics r outcome (pool.work : Multiset (Work α β)) y)
    {job : CompileJob α} (hjob : pool.jobOf? worker = some job) :
    ∃ stage, job = ⟨r, stage⟩ ∧ Compiling l metrics r outcome stage y ∧
      (∀ stage', ((pool.setJob worker ⟨r, stage'⟩).work : Multiset (Work α β)) =
        {.job ⟨r, stage'⟩}) ∧
      ((pool.finish worker).work : Multiset (Work α β)) = 0 := by
  obtain ⟨frame, hwork, hset, hfinish⟩ := Pool.work_of_jobOf? (β := β) hjob
  obtain ⟨rfl, ⟨hqueued, -⟩ | ⟨stage, hsame, hcompiling⟩⟩ := h.of_eq_add hwork
  · cases hqueued
  · obtain rfl := Work.job.inj hsame
    exact ⟨stage, rfl, hcompiling, fun stage' => (hset _).trans (add_zero _), hfinish⟩

/-- A move of a worker brings the request in the pool on its way. -/
theorem InPool.step (h : InPool l metrics r outcome (d.work : Multiset (Work α β)) y)
    (hfresh : l.refuses r = false) (hpool : d.pool = some pool) (hopen : pool.isOpen = true)
    (hstep : WorkerStep d pool worker move d') (hd : d.Yields y)
    (hanswer : ∀ q given, (pool.jobOf? worker).bind move.occurrence? =
      some (.compiled q given : Occurrence α β) → y.compilations = [] → q = r → given = outcome) :
    let events : Transcript α β := ((pool.jobOf? worker).bind move.occurrence?).toList
    ∃ y', InPool l metrics r outcome (d'.work : Multiset (Work α β)) y' ∧ d'.Yields y' ∧
      y'.compilations = y.compilations ++ events.compilations ∧ events.calls = [] := by
  intro events
  rw [Dispatcher.work_of_pool hpool] at h
  -- Nothing happens but at the end of the compiler's call.
  have hsilent : ∀ {y' : Yield α}, events = [] → y'.compilations = y.compilations →
      y'.compilations = y.compilations ++ events.compilations ∧ events.calls = [] := by
    intro y' hnone hsame
    simp [hnone, hsame]
  cases hstep with
  | @take q rest hfree hqueue =>
    obtain ⟨frame, hwork, hnew⟩ := Pool.work_take (β := β) hfree hqueue
    obtain ⟨rfl, ⟨hsame, rfl⟩ | ⟨stage, hsame, -⟩⟩ := h.of_eq_add hwork
    · obtain rfl := Work.queued.inj hsame
      rw [add_zero] at hnew
      refine ⟨_, .of_eq hnew (.busy .holding), ⟨hd.ledger, hd.metrics⟩, hsilent ?_ rfl⟩
      simp only [events]
      cases pool.jobOf? worker <;> rfl
    · cases hsame
  | beginCompile hjob hturn hidle =>
    obtain ⟨stage, rfl, hcompiling, hset, -⟩ := h.of_jobOf? hjob
    obtain ⟨hbegun, hcompiling'⟩ := hcompiling.begin hturn hidle
    rw [hbegun]
    exact ⟨y, .of_eq (hset _) (.busy hcompiling'), ⟨hd.ledger, hd.metrics⟩,
      hsilent (by simp only [events, hjob]; rfl) rfl⟩
  | @endCompile _ given hjob hturn hbusy =>
    obtain ⟨stage, rfl, hcompiling, hset, -⟩ := h.of_jobOf? hjob
    obtain ⟨stage', y', hconcluded, hcompiling', hnone, hone, hledger, hmetrics⟩ :=
      hcompiling.conclude hbusy
    obtain rfl := hanswer r given (by rw [hjob]; rfl) hnone rfl
    have hevents : events = [.compiled r given] := by simp only [events, hjob]; rfl
    rw [hconcluded]
    refine ⟨y', .of_eq (hset _) (.busy hcompiling'), ⟨hledger ▸ hd.ledger, hmetrics ▸ hd.metrics⟩,
      ?_, by rw [hevents]; rfl⟩
    rw [hevents, hnone, hone]
    rfl
  | advance hjob hturn =>
    obtain ⟨stage, rfl, hcompiling, hset, -⟩ := h.of_jobOf? hjob
    obtain ⟨stage', y', hnext, hcompiling', hsame, hd'⟩ := hcompiling.advance hfresh hturn hd
    rw [hnext]
    exact ⟨y', .of_eq (hset _) (.busy hcompiling'), ⟨hd'.ledger, hd'.metrics⟩,
      hsilent (by simp only [events, hjob]; rfl) hsame⟩
  | @finish _ failure hjob hturn =>
    obtain ⟨stage, rfl, hcompiling, -, hfinish⟩ := h.of_jobOf? hjob
    obtain ⟨q, hdone⟩ := CompileJob.exists_done_of_turn hturn
    obtain ⟨rfl, rfl⟩ := CompileJob.mk.inj hdone
    obtain ⟨-, rfl⟩ := hcompiling.eq_of_done
    refine ⟨_, .of_eq ?_ .finished, ⟨?_, ?_⟩, hsilent (by simp only [events, hjob]; rfl) rfl⟩
    · rw [Dispatcher.work_finishJob, hpool]
      exact hfinish
    · rw [d.ledger_finishJob, hd.ledger]
    · rw [Dispatcher.metrics_finishJob]
      exact hd.metrics
  | stop _ _ hclosed =>
    rw [hopen] at hclosed
    cases hclosed

end Workers

end TieredDispatch

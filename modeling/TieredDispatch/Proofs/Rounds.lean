import TieredDispatch.Proofs.Resting
import TieredDispatch.Proofs.Yields

/-!
# Rounds

What is left at the end of a round does not depend on the order in which the caller and the workers
moved (`System.Round.result`). The ledger, the meters of compilations and the compile calls are what
the call yields, whether there is a pool or not. Only for the call itself the pool makes a
difference (`Answered`): without one it fails with its compilation or runs the new artifact, and
with one it runs what was published before, or the new artifact if that was there in time.

In a round there is the call, and there is the request on its way to being completed, by the call
itself or in the pool. `Underway` keeps track of both, and each is in a stage of its own (`Opening`
and `Closing`, `Compiling` and `InPool`).
-/

namespace TieredDispatch

variable {α β : Type}

/-! ## The call -/

/-- Where a call stands that has not come to its compilation yet, and the ledger. -/
inductive Opening (l : Ledger α) (m : MethodId) : CallStage α β → Ledger α → Prop
  | arriving : Opening l m .arriving l
  | unseen : Opening l m .unseen l
  | seen : Opening l m .seen l
  | counted : Opening l m (.counted (saturatingAdd (l.counts m) 1)) (l.count m)
  | inspecting {requested : Option RequestSet} (h : requested.getD {} = l.requested m) :
      Opening l m (.inspecting (saturatingAdd (l.counts m) 1) requested) (l.count m)
  | claiming {tier : Tier} (count : UInt64) (h : l.demand? m = some tier) :
      Opening l m (.claiming tier count) (l.count m)
  | promoting {tier : Tier} (count : UInt64) (h : l.demand? m = some tier) :
      Opening l m (.promoting tier count) (l.granted ⟨m, tier⟩)

/-- The calls of a caller from the moment on at which its only call has nothing more to do with
compilations, and what has happened since. -/
inductive Closing (m : MethodId) (mayFind : Option (CompiledMethod α) → Prop) :
    List (Call α β) → Transcript α β → Prop
  | queued : Closing m mayFind [⟨m, false, .queued⟩] []
  | selecting : Closing m mayFind [⟨m, false, .selecting⟩] []
  | entering {found : Option (CompiledMethod α)} (h : mayFind found) :
      Closing m mayFind [⟨m, false, .entering found⟩] []
  | running {found : Option (CompiledMethod α)} (h : mayFind found) :
      Closing m mayFind [⟨m, false, .running found⟩] []
  | returned {found : Option (CompiledMethod α)} (outcome : Outcome β) (h : mayFind found) :
      Closing m mayFind [⟨m, false, .returned (Call.runResult m found outcome)⟩]
        [.ran m found outcome]
  | left {found : Option (CompiledMethod α)} (outcome : Outcome β) (h : mayFind found) :
      Closing m mayFind []
        [.ran m found outcome, .returned m (Call.runResult m found outcome)]

section Callers

variable {m : MethodId} {mayFind : Option (CompiledMethod α) → Prop}
  {calls calls' : List (Call α β)} {events : Transcript α β} {l l' : Ledger α}
  {metrics : Metrics} {y : Yield α}
  {d d' : Dispatcher α} {move : CallerMove α β}

/-- A move of the caller of a call that has nothing more to do with compilations. -/
theorem Closing.step (h : Closing m mayFind calls events) (hstep : StackStep d move calls calls' d')
    (hmove : ∀ m unwinding, move ≠ .invoke m unwinding) (hd : d.Yields y)
    (hfind : mayFind (y.ledger.active m)) :
    let more : Transcript α β := (move.occurrence? calls).toList
    Closing m mayFind calls' (events ++ more) ∧ more.compilations = [] ∧ d'.Yields y ∧
      d'.pool = d.pool := by
  cases hstep with
  | invoke m unwinding => exact absurd rfl (hmove m unwinding)
  | advance _ hturn =>
    cases h with
    | queued =>
      refine ⟨.selecting, rfl, ⟨hd.ledger, ?_⟩, rfl⟩
      rw [Call.metrics_advance]
      exact hd.metrics.bump_right (k := .queued) rfl
    | selecting =>
      refine ⟨.entering ?_, rfl, hd, rfl⟩
      rw [← hd.ledger] at hfind
      exact hfind
    | @entering found hfound =>
      refine ⟨.running hfound, rfl, ⟨hd.ledger, ?_⟩, rfl⟩
      rw [Call.metrics_advance]
      exact hd.metrics.bump_right (Meter.isOfCompilations_ofRun found)
    | running | returned => cases hturn
  | beginCompile _ hturn | endCompile _ _ hturn => cases h <;> cases hturn
  | endRun outcome _ hturn =>
    cases h with
    | running hfound => exact ⟨.returned outcome hfound, rfl, hd, rfl⟩
    | _ => cases hturn
  | leave _ hturn =>
    cases h with
    | returned outcome hfound => exact ⟨.left outcome hfound, rfl, hd, rfl⟩
    | _ => cases hturn

/-- A caller that is done has run something, and returned. -/
theorem Closing.of_nil (h : Closing m mayFind ([] : List (Call α β)) events) :
    ∃ found outcome, mayFind found ∧
      events = [.ran m found outcome, .returned m (Call.runResult m found outcome)] := by
  cases h with
  | left outcome hfound => exact ⟨_, outcome, hfound, rfl⟩

end Callers

/-! ## A round -/

/-- Where a round stands: the calls of its caller, what is in the pool, what the round has come to,
and what has happened of the call. -/
inductive Underway (pooled : Bool) (l : Ledger α) (metrics : Metrics) (m : MethodId)
    (answer : Request → Outcome α) :
    List (Call α β) → Multiset (Work α β) → Yield α → Transcript α β → Prop
  | opening {stage : CallStage α β} {l' : Ledger α} (h : Opening l m stage l') :
      Underway pooled l metrics m answer [⟨m, false, stage⟩] 0 ⟨l', metrics, []⟩ []
  /-- The call asks for nothing. -/
  | settled {calls : List (Call α β)} {events : Transcript α β} (hdemand : l.demand? m = none)
      (h : Closing m (· = l.active m) calls events) :
      Underway pooled l metrics m answer calls 0 ⟨l.count m, metrics, []⟩ events
  /-- The call compiles inline. -/
  | compiling {tier : Tier} {stage : CompileStage α} {y : Yield α} (hpool : pooled = false)
      (hdemand : l.demand? m = some tier)
      (h : Compiling (l.granted ⟨m, tier⟩) metrics ⟨m, tier⟩ (answer ⟨m, tier⟩) stage y) :
      Underway pooled l metrics m answer [⟨m, false, .compiling ⟨⟨m, tier⟩, stage⟩⟩] 0 y []
  | failed {tier : Tier} {cause : CompileFailure} (hpool : pooled = false)
      (hdemand : l.demand? m = some tier) (hcause : (answer ⟨m, tier⟩).failure? = some cause) :
      Underway pooled l metrics m answer [⟨m, false, .returned (cause.result ⟨m, tier⟩)⟩] 0
        (.ofCall l metrics m answer) []
  | left {tier : Tier} {cause : CompileFailure} (hpool : pooled = false)
      (hdemand : l.demand? m = some tier) (hcause : (answer ⟨m, tier⟩).failure? = some cause) :
      Underway pooled l metrics m answer [] 0 (.ofCall l metrics m answer)
        [.returned m (cause.result ⟨m, tier⟩)]
  | compiled {tier : Tier} {artifact : α} {calls : List (Call α β)} {events : Transcript α β}
      (hpool : pooled = false) (hdemand : l.demand? m = some tier)
      (hvalue : answer ⟨m, tier⟩ = .value artifact)
      (h : Closing m (· = some ⟨tier, artifact⟩) calls events) :
      Underway pooled l metrics m answer calls 0 (.ofCall l metrics m answer) events
  /-- The pool has the request. -/
  | handed {tier : Tier} {calls : List (Call α β)} {work : Multiset (Work α β)} {y : Yield α}
      {events : Transcript α β} (hpool : pooled = true) (hdemand : l.demand? m = some tier)
      (h : Closing m (fun found => found = l.active m ∨ ∃ artifact,
        answer ⟨m, tier⟩ = .value artifact ∧ found = some ⟨tier, artifact⟩) calls events)
      (hwork : InPool (l.granted ⟨m, tier⟩) metrics ⟨m, tier⟩ (answer ⟨m, tier⟩) work y) :
      Underway pooled l metrics m answer calls work y events

section Steps

variable {pooled : Bool} {l l' : Ledger α} {metrics : Metrics} {m : MethodId}
  {answer : Request → Outcome α} {d : Dispatcher α}

/-- The next step of a call that has not come to its compilation yet. -/
theorem Opening.advance {stage : CallStage α β} (h : Opening l m stage l')
    (hd : d.Yields ⟨l', metrics, []⟩) (hpool : d.pool.isSome = pooled)
    (hsend : pooled = true → ∀ r, (d.pool.bind (·.send r)).isSome = true)
    (hwork : (d.work : Multiset (Work α β)) = 0) :
    let next := (⟨m, false, stage⟩ : Call α β).advance d
    ∃ y, Underway pooled l metrics m answer [next.1] next.2.work y [] ∧ next.2.Yields y ∧
      y.compilations = [] := by
  intro next
  have hturn : (⟨m, false, stage⟩ : Call α β).turn = .dispatcher := by cases h <;> rfl
  obtain ⟨stage', hnext, hstep⟩ := Call.exists_stageStep ⟨m, false, stage⟩ d hturn
  have hledger := Call.ledger_advance (⟨m, false, stage⟩ : Call α β) d
  have hworks := Call.work_advance (⟨m, false, stage⟩ : Call α β) d
  rw [hwork, add_zero] at hworks
  rw [hd.ledger] at hledger
  have hyields : ∀ {l'' : Ledger α}, next.2.ledger = l'' → next.2.Yields ⟨l'', metrics, []⟩ := by
    intro l'' heq
    have hmetrics : next.2.metrics = d.metrics := by
      rw [Call.metrics_advance]
      cases h <;> rfl
    exact ⟨heq, hmetrics ▸ hd.metrics⟩
  have hpolicy : d.policy = l'.policy := congrArg Ledger.policy hd.ledger
  simp only [next, hnext, hworks]
  cases h with
  | arriving =>
    refine ⟨_, ?_, hyields hledger, rfl⟩
    cases hstep with
    | find => exact .opening .seen
    | miss => exact .opening .unseen
  | unseen =>
    refine ⟨_, ?_, hyields hledger, rfl⟩
    cases hstep with
    | enter => exact .opening .seen
  | seen =>
    have hcount : (d.counter.add m).1 = saturatingAdd (l.counts m) 1 := by
      have hstored := congrArg (Ledger.counts · m) hd.ledger
      exact congrArg (saturatingAdd · 1) hstored
    refine ⟨⟨l.count m, metrics, []⟩, ?_, hyields hledger, rfl⟩
    cases hstep with
    | count =>
      rw [hcount]
      exact .opening .counted
  | counted =>
    refine ⟨_, ?_, hyields hledger, rfl⟩
    cases hstep with
    | inspect =>
      refine .opening (.inspecting ?_)
      rw [CompilationCache.requested?_getD]
      exact congrArg (Ledger.requested · m) hd.ledger
  | inspecting hread =>
    refine ⟨_, ?_, hyields hledger, rfl⟩
    cases hstep with
    | want hwants =>
      simp only [TierState.l1Requested_ofEntry, TierState.l2Requested_ofEntry, hread, hpolicy]
        at hwants
      exact .opening (.claiming _ hwants)
    | rest hrests =>
      simp only [TierState.l1Requested_ofEntry, TierState.l2Requested_ofEntry, hread, hpolicy]
        at hrests
      exact .settled hrests .selecting
  | @claiming tier count hdemand =>
    have hgrants : (d.cache.requested m).grants tier = true := by
      change (d.ledger.requested m).grants tier = true
      rw [hd.ledger]
      exact TierPolicy.grants_of_decide hdemand
    simp only [Call.milestone?, hgrants, if_true] at hledger
    refine ⟨⟨l.granted ⟨m, tier⟩, metrics, []⟩, ?_, hyields hledger, rfl⟩
    cases hstep with
    | grant => exact .opening (.promoting count hdemand)
    | deny _ _ hdenies =>
      rw [hgrants] at hdenies
      cases hdenies
  | @promoting tier count hdemand =>
    refine ⟨_, ?_, hyields hledger, rfl⟩
    cases hstep with
    | send _ _ hsent =>
      have hpooled : pooled = true := by
        rw [← hpool]
        obtain ⟨pool, hsome, -⟩ := Option.bind_eq_some_iff.mp hsent
        exact Option.isSome_of_mem hsome
      rw [Call.submits?_of_send hsent]
      exact .handed hpooled hdemand .queued .queued
    | hold _ _ hnone =>
      have hinline : pooled = false := by
        rw [Bool.eq_false_iff]
        intro hpooled
        have hsome := hsend hpooled ⟨m, tier⟩
        rw [hnone] at hsome
        cases hsome
      rw [Call.submits?_of_hold hnone]
      exact .compiling hinline hdemand .holding

theorem Dispatcher.work_eq_of_pool_eq {d d' : Dispatcher α} (h : d'.pool = d.pool) :
    (d'.work : Multiset (Work α β)) = d.work := by
  rw [Dispatcher.work, h, Dispatcher.work]

/-- A move of a caller that compiles inline. -/
theorem Compiling.callerStep {tier : Tier} {stage : CompileStage α} {y : Yield α}
    {d' : Dispatcher α} {move : CallerMove α β} {calls' : List (Call α β)}
    (h : Compiling (l.granted ⟨m, tier⟩) metrics ⟨m, tier⟩ (answer ⟨m, tier⟩) stage y)
    (hinline : pooled = false) (hdemand : l.demand? m = some tier)
    (hfresh : (l.granted ⟨m, tier⟩).refuses ⟨m, tier⟩ = false)
    (hstep : StackStep d move [⟨m, false, .compiling ⟨⟨m, tier⟩, stage⟩⟩] calls' d')
    (hmove : ∀ m unwinding, move ≠ .invoke m unwinding) (hd : d.Yields y)
    (hwork : (d.work : Multiset (Work α β)) = 0)
    (hanswer : ∀ r given, move.occurrence? [⟨m, false, .compiling ⟨⟨m, tier⟩, stage⟩⟩] =
      some (.compiled r given) → y.compilations = [] → given = answer r) :
    let more : Transcript α β :=
      (move.occurrence? [⟨m, false, .compiling ⟨⟨m, tier⟩, stage⟩⟩]).toList
    ∃ y', Underway pooled l metrics m answer calls' (d'.work : Multiset (Work α β)) y' more.calls ∧
      d'.Yields y' ∧ y'.compilations = y.compilations ++ more.compilations := by
  intro more
  -- Nothing happens but at the end of the compiler's call.
  have hsilent : ∀ {y' : Yield α},
      move.occurrence? [⟨m, false, .compiling ⟨⟨m, tier⟩, stage⟩⟩] = none →
      y'.compilations = y.compilations → y'.compilations = y.compilations ++ more.compilations := by
    intro y' hnone hsame
    simp [more, hnone, hsame]
  cases hstep with
  | invoke k unwinding => exact absurd rfl (hmove k unwinding)
  | advance _ hturn =>
    cases hjob : (⟨⟨m, tier⟩, stage⟩ : CompileJob α).turn with
    | compiler => simp [Call.turn, hjob] at hturn
    | dispatcher =>
      obtain ⟨stage', y', hnext, hcompiling, hsame, hd'⟩ := h.advance hfresh hjob hd
      have hadvance : (⟨m, false, .compiling ⟨⟨m, tier⟩, stage⟩⟩ : Call α β).advance d =
          (⟨m, false, .compiling ⟨⟨m, tier⟩, stage'⟩⟩,
            (CompileJob.advance ⟨⟨m, tier⟩, stage⟩ false d).2) := by
        simp only [Call.advance, hjob, hnext]
      rw [hadvance]
      refine ⟨y', ?_, hd', hsilent rfl hsame⟩
      rw [Dispatcher.work_eq_of_pool_eq (CompileJob.pool_advance _ false d), hwork]
      exact .compiling hinline hdemand hcompiling
    | ended failure =>
      obtain ⟨q, hdone⟩ := CompileJob.exists_done_of_turn hjob
      obtain ⟨rfl, rfl⟩ := CompileJob.mk.inj hdone
      obtain ⟨hfailure, rfl⟩ := h.eq_of_done
      refine ⟨_, ?_, hd, hsilent rfl rfl⟩
      rw [← Yield.ofCall_of_demand? hdemand]
      refine hwork.symm ▸ ?_
      rcases failure with _ | ⟨reason | payload⟩
      · obtain ⟨artifact, hvalue⟩ := Outcome.value_of_failure?_eq_none hfailure
        exact .compiled hinline hdemand hvalue .selecting
      · exact .failed hinline hdemand hfailure
      · exact .failed hinline hdemand hfailure
  | beginCompile _ hturn hidle =>
    obtain ⟨hstage, hjob⟩ := Call.stage_of_turn_compiler hturn
    obtain rfl := CallStage.compiling.inj hstage
    obtain ⟨hbegun, hcompiling⟩ := h.begin hjob hidle
    refine ⟨y, ?_, hd, hsilent rfl rfl⟩
    simp only [Call.beginCompile, hbegun]
    exact hwork.symm ▸ .compiling hinline hdemand hcompiling
  | endCompile given _ hturn hbusy =>
    obtain ⟨hstage, hjob⟩ := Call.stage_of_turn_compiler hturn
    obtain rfl := CallStage.compiling.inj hstage
    obtain ⟨stage', y', hconcluded, hcompiling, hnone, hone, hledger, hmetrics⟩ := h.conclude hbusy
    obtain rfl := hanswer ⟨m, tier⟩ given rfl hnone
    refine ⟨y', ?_, ⟨hledger ▸ hd.ledger, hmetrics ▸ hd.metrics⟩, ?_⟩
    · simp only [Call.concludeCompile, hconcluded]
      exact hwork.symm ▸ .compiling hinline hdemand hcompiling
    · rw [hnone, hone]
      rfl
  | endRun _ _ hturn => cases Call.stage_of_turn_engine hturn
  | leave _ hturn => cases Call.stage_of_turn_ended hturn

/-- No compilation that a call may ask for comes after an artifact of a higher tier. -/
def Ledger.IsFresh (l : Ledger α) : Prop :=
  ∀ m tier, l.demand? m = some tier → (l.granted ⟨m, tier⟩).refuses ⟨m, tier⟩ = false

section Moves

variable {calls calls' : List (Call α β)} {y : Yield α} {events : Transcript α β}
  {d' : Dispatcher α}

variable
  (h : Underway pooled l metrics m answer calls (d.work : Multiset (Work α β)) y events)
  (hfresh : l.IsFresh) (hd : d.Yields y)

include h hfresh hd

/-- A move of the caller. -/
theorem Underway.callerStep {move : CallerMove α β} (hstep : StackStep d move calls calls' d')
    (hmove : ∀ m unwinding, move ≠ .invoke m unwinding) (hpool : d.pool.isSome = pooled)
    (hsend : pooled = true → ∀ r, (d.pool.bind (·.send r)).isSome = true)
    (hanswer : ∀ r given, move.occurrence? calls = some (.compiled r given) →
      y.compilations = [] → given = answer r) :
    let more : Transcript α β := (move.occurrence? calls).toList
    ∃ y', Underway pooled l metrics m answer calls' (d'.work : Multiset (Work α β)) y'
        (events ++ more.calls) ∧
      d'.Yields y' ∧ y'.compilations = y.compilations ++ more.compilations := by
  intro more
  -- What becomes of a call that has nothing more to do with compilations.
  have hcloses : ∀ {mayFind}, Closing m mayFind calls events → mayFind (y.ledger.active m) →
      Closing m mayFind calls' (events ++ more.calls) ∧ d'.Yields y ∧
        (d'.work : Multiset (Work α β)) = d.work ∧
        y.compilations = y.compilations ++ more.compilations := by
    intro mayFind hclosing hfind
    obtain ⟨hnext, hnone, hyields, hsame⟩ := hclosing.step hstep hmove hd hfind
    rw [Transcript.calls_eq_self hnone, hnone, List.append_nil]
    exact ⟨hnext, hyields, Dispatcher.work_eq_of_pool_eq hsame, rfl⟩
  generalize hwork : (d.work : Multiset (Work α β)) = work at h hcloses
  cases h with
  | opening hopening =>
    cases hstep with
    | invoke k unwinding => exact absurd rfl (hmove k unwinding)
    | advance =>
      obtain ⟨y', hnext, hyields, hnone⟩ := hopening.advance hd hpool hsend hwork
      exact ⟨y', hnext, hyields, hnone⟩
    | beginCompile _ hturn | endCompile _ _ hturn | endRun _ _ hturn | leave _ hturn =>
      cases hopening <;> cases hturn
  | settled hdemand hclosing =>
    obtain ⟨hnext, hyields, hsame, hnone⟩ := hcloses hclosing rfl
    exact ⟨_, hsame.symm ▸ .settled hdemand hnext, hyields, hnone⟩
  | compiling hinline hdemand hcompiling =>
    exact hcompiling.callerStep hinline hdemand (hfresh _ _ hdemand) hstep hmove hd hwork hanswer
  | failed hinline hdemand hcause =>
    cases hstep with
    | invoke k unwinding => exact absurd rfl (hmove k unwinding)
    | advance _ hturn | beginCompile _ hturn | endCompile _ _ hturn | endRun _ _ hturn =>
      cases hturn
    | leave =>
      refine ⟨_, hwork.symm ▸ .left hinline hdemand hcause, hd, ?_⟩
      exact (List.append_nil _).symm
  | left =>
    cases hstep with
    | invoke k unwinding => exact absurd rfl (hmove k unwinding)
  | @compiled tier artifact _ _ hinline hdemand hvalue hclosing =>
    have hactive : (Yield.ofCall l metrics m answer).ledger.active m = some ⟨tier, artifact⟩ := by
      rw [Yield.ofCall_of_demand? hdemand, hvalue]
      exact Ledger.active_conclude (r := ⟨m, tier⟩) (hfresh _ _ hdemand) artifact
    obtain ⟨hnext, hyields, hsame, hnone⟩ := hcloses hclosing hactive
    exact ⟨_, hsame.symm ▸ .compiled hinline hdemand hvalue hnext, hyields, hnone⟩
  | handed hpooled hdemand hclosing hinPool =>
    obtain ⟨hnext, hyields, hsame, hnone⟩ := hcloses hclosing (hinPool.active (hfresh _ _ hdemand))
    exact ⟨_, hsame.symm ▸ .handed hpooled hdemand hnext hinPool, hyields, hnone⟩

/-- A move of a worker. -/
theorem Underway.workerStep {pool : Pool (CompileJob α)} {worker : Nat} {move : WorkerMove α}
    (hsome : d.pool = some pool) (hopen : pool.isOpen = true)
    (hstep : WorkerStep d pool worker move d')
    (hanswer : ∀ r given, (pool.jobOf? worker).bind move.occurrence? =
      some (.compiled r given : Occurrence α β) → y.compilations = [] → given = answer r) :
    let more : Transcript α β := ((pool.jobOf? worker).bind move.occurrence?).toList
    ∃ y', Underway pooled l metrics m answer calls (d'.work : Multiset (Work α β)) y'
        (events ++ more.calls) ∧
      d'.Yields y' ∧ y'.compilations = y.compilations ++ more.compilations := by
  intro more
  have hbusy := hstep.work_ne_zero (β := β) hsome hopen
  generalize hwork : (d.work : Multiset (Work α β)) = work at h hbusy
  cases h with
  | handed hpooled hdemand hclosing hinPool =>
    subst hwork
    obtain ⟨y', hnext, hyields, hsame, hnone⟩ := hinPool.step (hfresh _ _ hdemand) hsome hopen hstep
      hd fun q given hevent hclear hq => hq ▸ hanswer q given hevent hclear
    refine ⟨y', ?_, hyields, hsame⟩
    rw [hnone, List.append_nil]
    exact .handed hpooled hdemand hclosing hnext
  | _ => exact absurd rfl hbusy

end Moves

end Steps

/-! ## From rest to rest -/

/-- A round under way, with what has happened in it. -/
structure System.InRound (pooled : Bool) (l : Ledger α) (metrics : Metrics) (m : MethodId)
    (answer : Request → Outcome α) (i : Nat) (events : Transcript α β) (s : System α β) : Prop where
  underway : ∃ y,
    Underway pooled l metrics m answer (s.callsOf i) s.dispatcher.work y events.calls ∧
      s.dispatcher.Yields y ∧ y.compilations = events.compilations
  others : ∀ j, j ≠ i → s.callsOf j = []
  pooled : s.dispatcher.pool.isSome = pooled
  receiving : s.IsReceiving

namespace System

variable {s t : System α β} {label : Label α β}

variable {pooled : Bool} {l : Ledger α} {metrics : Metrics} {m : MethodId}
  {answer : Request → Outcome α} {i : Nat} {events : Transcript α β}

/-- A step that goes on with a round. -/
theorem InRound.step (h : s.InRound pooled l metrics m answer i events) (hfresh : l.IsFresh)
    (hgoes : label.goesOn) (hstep : s.step label = some t)
    (hanswer : ∀ r given, s.occurrence? label = some (.compiled r given) →
      events.compilations = [] → given = answer r) :
    t.InRound pooled l metrics m answer i (events ++ (s.occurrence? label).toList) := by
  obtain ⟨y, hunderway, hyields, hsame⟩ := h.underway
  rw [← hsame] at hanswer
  refine ⟨?_, fun j hj => ?_, (isSome_pool_step hstep).trans h.pooled,
    isReceiving_of_goesOn hgoes hstep h.receiving⟩
  · rw [Transcript.calls_append, Transcript.compilations_append, ← hsame]
    obtain ⟨move, rfl, hmove⟩ | ⟨hother, hcalls⟩ := step_of_caller i hstep
    · refine hunderway.callerStep hfresh hyields hmove ?_ h.pooled
        (fun hpooled r => h.receiving.isSome_send (h.pooled.trans hpooled) r) hanswer
      rintro k unwinding rfl
      cases hgoes
    · rw [hcalls]
      cases systemStep_of_step hstep with
      | @worker k move pool d' hpool hmove =>
        obtain ⟨hopen, -⟩ := h.receiving pool hpool
        have hevent : s.occurrence? (.worker k move) = (pool.jobOf? k).bind move.occurrence? := by
          rw [occurrence?, hpool]
          rfl
        rw [hevent] at hanswer ⊢
        exact hunderway.workerStep hfresh hyields hpool hopen hmove hanswer
      | @caller j move calls calls' d' hcaller hmove =>
        have hnone : calls = [] := by
          have hnone := h.others j (by simpa [Label.isOf] using hother)
          rwa [callsOf, hcaller, Option.getD_some] at hnone
        subst hnone
        cases hmove with
        | invoke => cases hgoes
      | direct | close | lose => cases hgoes
  · obtain ⟨move, rfl, hmove⟩ | ⟨-, hcalls⟩ := step_of_caller j hstep
    · exfalso
      rw [h.others j hj] at hmove
      generalize t.callsOf j = calls', t.dispatcher = d' at hmove
      cases hmove with
      | invoke => cases hgoes
    · exact hcalls.trans (h.others j hj)

/-- Steps that go on with a round. -/
theorem InRound.run {labels : List (Label α β)} (h : s.InRound pooled l metrics m answer i events)
    (hfresh : l.IsFresh) (hgoes : ∀ label ∈ labels, label.goesOn) (hrun : s.run labels = some t)
    (hanswer : ∀ r given,
      [(r, given)] <+: events.compilations ++ (s.transcript labels).compilations →
        given = answer r) :
    t.InRound pooled l metrics m answer i (events ++ s.transcript labels) := by
  induction labels generalizing s events with
  | nil =>
    obtain rfl := Option.some.inj hrun
    rwa [transcript, List.append_nil]
  | cons label labels ih =>
    obtain ⟨u, hstep, hrest⟩ := Option.bind_eq_some_iff.mp hrun
    rw [List.forall_mem_cons] at hgoes
    rw [transcript_cons_of_step hstep] at hanswer ⊢
    have hnext := h.step hfresh hgoes.1 hstep fun r given hevent hnone => ?_
    · rw [← List.append_assoc]
      refine ih hnext hgoes.2 hrest ?_
      rwa [Transcript.compilations_append, List.append_assoc, ← Transcript.compilations_append]
    · refine hanswer r given ?_
      rw [hnone, hevent]
      exact ⟨_, rfl⟩

end System

/-! ## What a round leaves -/

/-- What a call does and returns, with a pool or without one, if the compiler answers like that. -/
inductive Answered (pooled : Bool) (l : Ledger α) (m : MethodId) (answer : Request → Outcome α) :
    Transcript α β → Prop
  /-- It asks for nothing, and runs what is published. -/
  | settled (hdemand : l.demand? m = none) (outcome : Outcome β) :
      Answered pooled l m answer
        [.ran m (l.active m) outcome, .returned m (Call.runResult m (l.active m) outcome)]
  /-- Its compilation fails. -/
  | failed {tier : Tier} {cause : CompileFailure} (hpool : pooled = false)
      (hdemand : l.demand? m = some tier) (hcause : (answer ⟨m, tier⟩).failure? = some cause) :
      Answered pooled l m answer [.returned m (cause.result ⟨m, tier⟩)]
  /-- It runs the new artifact. -/
  | compiled {tier : Tier} {artifact : α} (hpool : pooled = false)
      (hdemand : l.demand? m = some tier) (hvalue : answer ⟨m, tier⟩ = .value artifact)
      (outcome : Outcome β) :
      Answered pooled l m answer
        [.ran m (some ⟨tier, artifact⟩) outcome,
          .returned m (Call.runResult m (some ⟨tier, artifact⟩) outcome)]
  /-- It hands its request over, and runs what was published before, or the artifact that came of
  the request. -/
  | handed {tier : Tier} {found : Option (CompiledMethod α)} (hpool : pooled = true)
      (hdemand : l.demand? m = some tier)
      (hfound : found = l.active m ∨
        ∃ artifact, answer ⟨m, tier⟩ = .value artifact ∧ found = some ⟨tier, artifact⟩)
      (outcome : Outcome β) :
      Answered pooled l m answer
        [.ran m found outcome, .returned m (Call.runResult m found outcome)]

/-- A round in which nothing is under way any more has come to its end. -/
theorem Underway.of_rest {pooled : Bool} {l : Ledger α} {metrics : Metrics} {m : MethodId}
    {answer : Request → Outcome α} {y : Yield α} {events : Transcript α β}
    (h : Underway pooled l metrics m answer ([] : List (Call α β)) 0 y events) :
    y = .ofCall l metrics m answer ∧ Answered pooled l m answer events := by
  generalize hwork : (0 : Multiset (Work α β)) = work at h
  cases h with
  | settled hdemand hclosing =>
    obtain ⟨found, outcome, rfl, rfl⟩ := hclosing.of_nil
    refine ⟨?_, .settled hdemand outcome⟩
    rw [Yield.ofCall, hdemand]
  | left hinline hdemand hcause => exact ⟨rfl, .failed hinline hdemand hcause⟩
  | compiled hinline hdemand hvalue hclosing =>
    obtain ⟨found, outcome, rfl, rfl⟩ := hclosing.of_nil
    exact ⟨rfl, .compiled hinline hdemand hvalue outcome⟩
  | handed hpooled hdemand hclosing hinPool =>
    obtain ⟨found, outcome, hfound, rfl⟩ := hclosing.of_nil
    refine ⟨?_, .handed hpooled hdemand hfound outcome⟩
    rw [Yield.ofCall_of_demand? hdemand]
    cases hinPool with
    | finished => rfl
    | queued | busy => exact absurd hwork.symm (Multiset.singleton_ne_zero _)

namespace System

/-- Nothing is under way, and whatever is handed to the pool, if there is one, is received. -/
structure IsAtRest (pooled : Bool) (s : System α β) : Prop where
  rests : s.work = 0
  pooled : s.dispatcher.pool.isSome = pooled
  receiving : s.IsReceiving

variable {s t : System α β} {pooled : Bool} {m : MethodId} {labels : List (Label α β)}

/-- Where nothing is under way there are no calls, and there is nothing in the pool. -/
theorem of_work_eq_zero (h : s.work = 0) :
    (∀ i, s.callsOf i = []) ∧ (s.dispatcher.work : Multiset (Work α β)) = 0 := by
  refine ⟨fun i => List.eq_nil_iff_forall_not_mem.mpr fun c hc => ?_, ?_⟩
  · have hmem := call_mem_work.mpr ⟨i, hc⟩
    rw [h] at hmem
    exact Multiset.notMem_zero _ hmem
  · have hle : (s.dispatcher.work : Multiset (Work α β)) ≤ s.work := Multiset.le_add_left _ _
    rw [h] at hle
    exact Multiset.le_zero.mp hle

/-- The call that a round begins with. -/
theorem IsAtRest.invoke {i : Nat} (h : s.IsAtRest pooled) (answer : Request → Outcome α)
    (hstep : s.step (.caller i (.invoke m false)) = some t) :
    t.InRound pooled s.dispatcher.ledger s.dispatcher.metrics m answer i [] := by
  obtain ⟨hcalls, hwork⟩ := of_work_eq_zero h.rests
  have hothers : ∀ j, j ≠ i → t.callsOf j = [] := by
    intro j hj
    obtain ⟨move, hlabel, -⟩ | ⟨-, hsame⟩ := step_of_caller j hstep
    · exact absurd (Label.caller.inj hlabel).1.symm hj
    · exact hsame.trans (hcalls j)
  obtain ⟨move, hlabel, hmove⟩ | ⟨hother, -⟩ := step_of_caller i hstep
  · obtain rfl := (Label.caller.inj hlabel).2
    rw [hcalls i] at hmove
    generalize hd : t.dispatcher = d', hnew : t.callsOf i = calls' at hmove
    cases hmove with
    | invoke =>
      refine ⟨⟨⟨s.dispatcher.ledger, s.dispatcher.metrics, []⟩, ?_, ?_, rfl⟩, hothers, ?_, ?_⟩
      · rw [hnew, hd, hwork]
        exact .opening .arriving
      · rw [hd]
        exact ⟨rfl, fun _ _ => rfl⟩
      · rw [hd]
        exact h.pooled
      · rw [IsReceiving, hd]
        exact h.receiving
  · simp [Label.isOf] at hother

/-- Any caller can make a round, whatever the compiler and the engine answer. -/
theorem IsAtRest.exists_round (h : s.IsAtRest pooled) {i : Nat} (hi : i < s.callers.length)
    (m : MethodId) (answer : Request → Outcome α)
    (engine : MethodId → Option (CompiledMethod α) → Outcome β) :
    ∃ labels t, s.Round m labels t ∧
      ∀ occurrence ∈ s.transcript labels, occurrence.IsBy answer engine := by
  have hcaller : s.callers[i]? = some [] := by
    have hnone := (of_work_eq_zero h.rests).1 i
    rw [callsOf, List.getElem?_eq_getElem hi, Option.getD_some] at hnone
    rw [List.getElem?_eq_getElem hi, hnone]
  have hstep : s.step (.caller i (.invoke m false)) =
      some { s with callers := s.callers.set i [.arrive m false] } := by
    simp [step, hcaller, CallerMove.apply, CallerMove.mayInvoke]
  obtain ⟨labels, t, hgoes, hrun, hrests, hby⟩ :=
    exists_rest (s := { s with callers := s.callers.set i [.arrive m false] }) answer engine
      h.receiving
  refine ⟨.caller i (.invoke m false) :: labels, t, ⟨⟨i, labels, rfl, hgoes⟩, ?_, hrests⟩, ?_⟩
  · rw [run, hstep, Option.bind_some, hrun]
  · rw [transcript_cons_of_step hstep]
    exact hby

/-- **What a round leaves.** It is told by what there was before the round, and by what the compiler
answers; in which order the caller and the workers moved makes no difference. -/
theorem Round.result (hround : s.Round m labels t) (answer : Request → Outcome α)
    (hrests : s.IsAtRest pooled) (hfresh : s.dispatcher.ledger.IsFresh)
    (hanswer : ∀ r given, [(r, given)] <+: (s.transcript labels).compilations →
      given = answer r) :
    let y : Yield α := .ofCall s.dispatcher.ledger s.dispatcher.metrics m answer
    t.IsAtRest pooled ∧ t.dispatcher.Yields y ∧
      (s.transcript labels).compilations = y.compilations ∧
      Answered pooled s.dispatcher.ledger m answer (s.transcript labels).calls := by
  obtain ⟨i, rest, rfl, hgoes⟩ := hround.begins
  obtain ⟨u, hstep, hrest⟩ := Option.bind_eq_some_iff.mp hround.run
  have htranscript : s.transcript (.caller i (.invoke m false) :: rest) = u.transcript rest :=
    transcript_cons_of_step hstep rest
  rw [htranscript] at hanswer ⊢
  have hover := (hrests.invoke answer hstep).run hfresh hgoes hrest hanswer
  obtain ⟨y, hunderway, hyields, hsame⟩ := hover.underway
  obtain ⟨hcalls, hwork⟩ := of_work_eq_zero hround.rests
  rw [hcalls, hwork] at hunderway
  obtain ⟨rfl, hanswered⟩ := hunderway.of_rest
  exact ⟨⟨hround.rests, hover.pooled, hover.receiving⟩, hyields, hsame.symm, hanswered⟩

end System

end TieredDispatch

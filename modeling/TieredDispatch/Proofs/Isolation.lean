import TieredDispatch.Proofs.Audit
import TieredDispatch.Proofs.Nesting
import TieredDispatch.Proofs.Queueing

/-!
# Callers of a background dispatcher

**Theorem (`background_callers_isolated`).** In background mode callers never meet the compiler:
no call compiles inline, whatever the compiler does on the workers, and so a call ends with what the
engine gives it, having run what was published when it looked its method up. The workers survive
every outcome, and a request that was handed over waits for a free one and nothing else. All of this
is for payloads that can be dropped: one whose destructor panics takes its worker along, and with
the last worker gone a caller compiles inline (`caller_compiles_for_lost_worker`).

As long as the host holds the dispatcher the pool is open and its workers are there (`IsManned`),
so every request is received and no call falls back to compiling (`System.Isolated`). What is left
for a call to do is listed by `Served`: it decides, looks its method up, and is with the engine
until that gives it its result. `System.Fate` follows a single call from there.
-/

namespace TieredDispatch

variable {α β : Type}

/-! ## Calls that do not compile -/

/-- Whether the call is still to look its method up, and does not compile. -/
def Call.awaitsLookup (c : Call α β) : Bool :=
  match c.stage with
  | .arriving | .unseen | .seen | .counted _ | .inspecting _ _ | .claiming _ _ | .denied _ _
  | .promoting _ _ | .queued | .selecting => true
  | .compiling _ | .entering _ | .running _ | .returned _ => false

/-- What a caller does, and what becomes of its calls, when none of them compiles. -/
inductive Served (d : Dispatcher α) :
    CallerMove α β → List (Call α β) → List (Call α β) → Prop
  | invoke (m : MethodId) (unwinding : Bool) {calls : List (Call α β)}
      (hmay : ∀ c ∈ calls.head?, c.isWithHost = true) :
      Served d (.invoke m unwinding) calls (.arrive m unwinding :: calls)
  | decide {m : MethodId} {unwinding : Bool} {stage stage' : CallStage α β}
      (outer : List (Call α β)) (hbefore : (⟨m, unwinding, stage⟩ : Call α β).awaitsLookup)
      (hafter : (⟨m, unwinding, stage'⟩ : Call α β).awaitsLookup) :
      Served d .advance (⟨m, unwinding, stage⟩ :: outer) (⟨m, unwinding, stage'⟩ :: outer)
  | select (m : MethodId) (unwinding : Bool) (outer : List (Call α β)) :
      Served d .advance (⟨m, unwinding, .selecting⟩ :: outer)
        (⟨m, unwinding, .entering (d.cache.lookup m)⟩ :: outer)
  | enter (m : MethodId) (unwinding : Bool) (found : Option (CompiledMethod α))
      (outer : List (Call α β)) :
      Served d .advance (⟨m, unwinding, .entering found⟩ :: outer)
        (⟨m, unwinding, .running found⟩ :: outer)
  | endRun (m : MethodId) (unwinding : Bool) (found : Option (CompiledMethod α))
      (outcome : Outcome β) (outer : List (Call α β)) :
      Served d (.endRun outcome) (⟨m, unwinding, .running found⟩ :: outer)
        (⟨m, unwinding, .returned (Call.runResult m found outcome)⟩ :: outer)
  | leave (m : MethodId) (unwinding : Bool) (result : CallResult β) (outer : List (Call α β)) :
      Served d .leave (⟨m, unwinding, .returned result⟩ :: outer) outer

/-- A call whose request is received does not come to compile. -/
theorem Call.served_advance (c : Call α β) (d : Dispatcher α) (outer : List (Call α β))
    (hturn : c.turn = .dispatcher) (hfree : c.job? = none)
    (hreceived : c.isPromoting → (c.submits? d).isSome) :
    Served d .advance (c :: outer) ((c.advance d).1 :: outer) := by
  obtain ⟨stage, hnext, hstep⟩ := c.exists_stageStep d hturn
  rw [hnext]
  obtain ⟨m, unwinding, before⟩ := c
  cases hstep with
  | hold tier count hnone =>
    have hsome := hreceived rfl
    rw [submits?_of_hold hnone] at hsome
    cases hsome
  | job | succeed | fail | unwind => cases hfree
  | select => exact .select m unwinding outer
  | run found => exact .enter m unwinding found outer
  | _ => exact .decide outer rfl rfl

theorem StackStep.served {d d' : Dispatcher α} {move : CallerMove α β}
    {calls calls' : List (Call α β)} (hstep : StackStep d move calls calls' d')
    (hfree : ∀ c ∈ calls, c.job? = none)
    (hreceived : ∀ c ∈ calls, c.isPromoting → (c.submits? d).isSome) :
    Served d move calls calls' := by
  cases hstep with
  | invoke m unwinding hmay => exact .invoke m unwinding hmay
  | @advance c outer hturn =>
    exact c.served_advance d outer hturn (hfree c List.mem_cons_self)
      (hreceived c List.mem_cons_self)
  | beginCompile _ hturn | endCompile _ _ hturn =>
    have hnone := hfree _ List.mem_cons_self
    rw [Call.job?, (Call.stage_of_turn_compiler hturn).1] at hnone
    cases hnone
  | @endRun c found outcome outer hturn =>
    obtain ⟨m, unwinding, stage⟩ := c
    obtain rfl := Call.stage_of_turn_engine hturn
    exact .endRun m unwinding found outcome outer
  | @leave c result _ hturn =>
    obtain ⟨m, unwinding, stage⟩ := c
    obtain rfl := Call.stage_of_turn_ended hturn
    exact .leave m unwinding result calls'

/-- The call does not compile, and if it has returned, with what the engine gave it. -/
structure Call.IsServed (c : Call α β) : Prop where
  free : c.job? = none
  answer : ∀ result, c.stage = .returned result →
    ∃ (found : Option (CompiledMethod α)) (outcome : Outcome β),
      result = runResult c.method found outcome

/-- A call that is still to look its method up has nothing to do with the host. -/
theorem Call.of_awaitsLookup {c : Call α β} (h : c.awaitsLookup) :
    c.IsServed ∧ c.found? = none ∧ c.isWithHost = false := by
  obtain ⟨m, unwinding, stage⟩ := c
  cases stage with
  | compiling _ | entering _ | running _ | returned _ => cases h
  | _ => exact ⟨⟨rfl, nofun⟩, rfl, rfl⟩

theorem Served.kept {d : Dispatcher α} {move : CallerMove α β} {calls calls' : List (Call α β)}
    (h : Served d move calls calls') (hcalls : ∀ c ∈ calls, c.IsServed) :
    ∀ c ∈ calls', c.IsServed := by
  cases h with
  | invoke m unwinding hmay => exact List.forall_mem_cons.mpr ⟨⟨rfl, nofun⟩, hcalls⟩
  | decide outer hbefore hafter =>
    rw [List.forall_mem_cons] at hcalls ⊢
    exact ⟨(Call.of_awaitsLookup hafter).1, hcalls.2⟩
  | select | enter =>
    rw [List.forall_mem_cons] at hcalls ⊢
    exact ⟨⟨rfl, nofun⟩, hcalls.2⟩
  | endRun m unwinding found outcome outer =>
    rw [List.forall_mem_cons] at hcalls ⊢
    refine ⟨⟨rfl, ?_⟩, hcalls.2⟩
    rintro _ ⟨⟩
    exact ⟨found, outcome, rfl⟩
  | leave => exact (List.forall_mem_cons.mp hcalls).2

/-! ## Systems in which no call compiles -/

/-- The pool receives what is handed over, and no call compiles or was told that it has to. -/
structure System.Isolated (s : System α β) : Prop where
  pooled : s.dispatcher.pool.isSome = true
  manned : s.IsManned
  served : ∀ i, ∀ c ∈ s.callsOf i, c.IsServed
  available : ∀ r, .poolUnavailable r ∉ s.dispatcher.log

/-- A job has nothing to say about the pool. -/
theorem CompileJob.report?_ne_poolUnavailable (job : CompileJob α) (unwinding : Bool)
    (d : Dispatcher α) (r : Request) : job.report? unwinding d ≠ some (.poolUnavailable r) := by
  intro h
  cases isEnd_of_report? h

/-- A call whose request is received does not report the pool as unavailable. -/
theorem Call.poolUnavailable_notMem_reports {c : Call α β} {d : Dispatcher α}
    (hreceived : c.isPromoting → (c.submits? d).isSome) (r : Request) :
    .poolUnavailable r ∉ c.reports d := by
  obtain ⟨m, unwinding, stage⟩ := c
  cases stage with
  | promoting tier count =>
    rw [reports_of_received fun _ => hreceived rfl]
    simp
  | compiling job =>
    simpa [reports] using job.report?_ne_poolUnavailable unwinding d r
  | denied tier count => simp [reports]
  | _ => exact List.not_mem_nil

theorem Move.poolUnavailable_notMem {μ? : Option (Milestone α)} {before after : Multiset (Work α β)}
    {d d' : Dispatcher α} (h : Move μ? before d after d')
    (hreceived : ∀ c, .call c ∈ before → c.isPromoting → (c.submits? d).isSome) {r : Request}
    (hr : .poolUnavailable r ∉ d.log) : .poolUnavailable r ∉ d'.log := by
  rcases h.log_eq with hlog | ⟨c, rfl, -, hlog⟩ | ⟨job, -, -, hlog⟩ | ⟨job, payload, -, -, hlog⟩
  · rwa [hlog]
  · rw [hlog, List.mem_append, not_or]
    exact ⟨Call.poolUnavailable_notMem_reports (hreceived c (Multiset.mem_singleton_self _)) r, hr⟩
  · rw [hlog, List.mem_append, not_or, Option.mem_toList]
    exact ⟨job.report?_ne_poolUnavailable false d r, hr⟩
  · rw [hlog, List.mem_cons, not_or]
    exact ⟨nofun, hr⟩

namespace System

variable {s t : System α β} {label : Label α β} {labels : List (Label α β)} {i : Nat}

/-- Every request that a call hands over is received. -/
theorem Isolated.received (h : s.Isolated) {c : Call α β} (hc : c ∈ s.callsOf i)
    (hpromoting : c.isPromoting) : (c.submits? s.dispatcher).isSome := by
  obtain ⟨tier, count, hstage⟩ := Call.stage_of_isPromoting hpromoting
  exact isSome_submits? h.manned h.pooled hc hstage

/-- A move of a caller that does not compile. -/
theorem Isolated.served_step (h : s.Isolated) {move : CallerMove α β}
    (hstep : StackStep s.dispatcher move (s.callsOf i) (t.callsOf i) t.dispatcher) :
    Served s.dispatcher move (s.callsOf i) (t.callsOf i) :=
  hstep.served (fun c hc => (h.served i c hc).free) fun _ hc => h.received hc

theorem isolated_step (hspares : s.spares label) (hstep : s.step label = some t)
    (h : s.Isolated) : t.Isolated where
  pooled := (isSome_pool_step hstep).trans h.pooled
  manned := isManned_step hstep hspares h.manned
  served i := by
    obtain ⟨move, -, hmove⟩ | ⟨-, hsame⟩ := step_of_caller i hstep
    · exact (h.served_step hmove).kept (h.served i)
    · rw [hsame]
      exact h.served i
  available r := by
    by_cases hown : label.isOwn
    · obtain ⟨before, after, frame, hbefore, -, hmove⟩ := step_work hown hstep
      refine hmove.poolUnavailable_notMem (fun c hc hpromoting => ?_) (h.available r)
      obtain ⟨i, hi⟩ := call_mem_work.mp (hbefore ▸ Multiset.mem_add.mpr (.inl hc))
      exact h.received hi hpromoting
    · cases systemStep_of_step hstep with
      | direct => exact h.available r
      | lose => exact List.not_mem_cons_of_ne_of_not_mem nofun (h.available r)
      | _ => exact absurd rfl hown

theorem isolated_run (hobeys : s.obeys spares labels) (hrun : s.run labels = some t)
    (h : s.Isolated) : t.Isolated :=
  obeys_induction (P := fun _ u => u.Isolated) (fun _ hrule hstep => isolated_step hrule hstep)
    (h := []) hobeys hrun h

theorem isolated_start {config : TierConfig} {d : Dispatcher α}
    (hstart : Dispatcher.start config = .ok d) (hmode : config.mode = .background)
    (callers : Nat) : (start d callers : System α β).Isolated where
  pooled := (isSome_pool_start hstart).mpr hmode
  manned := isManned_start hstart callers
  served i := by
    rw [callsOf_start]
    exact List.forall_mem_nil _
  available r hr := by cases Dispatcher.request?_of_mem_log_start hstart _ hr

end System

/-! ## What becomes of a call -/

/-- A call that has looked its method up keeps what it found as long as the engine is at work, and
then gets its result. -/
theorem Served.of_found {d : Dispatcher α} {move : CallerMove α β} {m : MethodId} {unwinding : Bool}
    {inner outer calls' : List (Call α β)} {stage : CallStage α β}
    {found : Option (CompiledMethod α)}
    (h : Served d move (inner ++ ⟨m, unwinding, stage⟩ :: outer) calls')
    (hfound : (⟨m, unwinding, stage⟩ : Call α β).found? = some found) :
    (∃ inner stage, calls' = inner ++ ⟨m, unwinding, stage⟩ :: outer ∧
      (⟨m, unwinding, stage⟩ : Call α β).found? = some found) ∨
    ∃ outcome, move = .endRun outcome ∧ inner = [] ∧ stage = .running found ∧
      calls' = ⟨m, unwinding, .returned (Call.runResult m found outcome)⟩ :: outer := by
  cases inner with
  | cons c inner =>
    left
    cases h with
    | invoke k unwinding' hmay => exact ⟨_ :: c :: inner, stage, rfl, hfound⟩
    | decide | select | enter | endRun => exact ⟨_ :: inner, stage, rfl, hfound⟩
    | leave => exact ⟨inner, stage, rfl, hfound⟩
  | nil =>
    cases h with
    | invoke k unwinding' hmay => exact .inl ⟨[_], stage, rfl, hfound⟩
    | decide outer hbefore hafter =>
      rw [(Call.of_awaitsLookup hbefore).2.1] at hfound
      cases hfound
    | select => cases hfound
    | enter m unwinding found' outer =>
      obtain rfl := Option.some.inj hfound
      exact .inl ⟨[], _, rfl, rfl⟩
    | endRun m unwinding found' outcome outer =>
      obtain rfl := Option.some.inj hfound
      exact .inr ⟨outcome, rfl, rfl, rfl, rfl⟩
    | leave => cases hfound

/-- A call that is still to look its method up gets nearer to that, or does it. -/
theorem Served.of_awaits {d : Dispatcher α} {move : CallerMove α β} {m : MethodId}
    {unwinding : Bool} {outer calls' : List (Call α β)} {stage : CallStage α β}
    (h : Served d move (⟨m, unwinding, stage⟩ :: outer) calls')
    (hawaits : (⟨m, unwinding, stage⟩ : Call α β).awaitsLookup) :
    move = .advance ∧ ((∃ stage', calls' = ⟨m, unwinding, stage'⟩ :: outer ∧
        (⟨m, unwinding, stage'⟩ : Call α β).awaitsLookup) ∨
      stage = .selecting ∧ calls' = ⟨m, unwinding, .entering (d.cache.lookup m)⟩ :: outer) := by
  cases h with
  | invoke k unwinding' hmay =>
    have hwith := hmay _ rfl
    rw [(Call.of_awaitsLookup hawaits).2.2] at hwith
    cases hwith
  | decide outer hbefore hafter => exact ⟨rfl, .inl ⟨_, rfl, hafter⟩⟩
  | select => exact ⟨rfl, .inr ⟨rfl, rfl⟩⟩
  | enter | endRun | leave => cases hawaits

/-- What becomes, in a run, of a call that was made on top of some others. -/
inductive System.Fate (s : System α β) (i : Nat) (m : MethodId) (unwinding : Bool)
    (outer : List (Call α β)) (labels : List (Label α β)) (t : System α β) : Prop
  /-- It is still to look its method up. -/
  | awaits {stage : CallStage α β} (hcalls : t.callsOf i = ⟨m, unwinding, stage⟩ :: outer)
      (hawaits : (⟨m, unwinding, stage⟩ : Call α β).awaitsLookup)
  /-- It has found what was published when it looked its method up, and the engine is not done. -/
  | finds {before after : List (Label α β)} {u : System α β} {inner : List (Call α β)}
      {stage : CallStage α β} (hsplit : labels = before ++ .caller i .advance :: after)
      (hbefore : s.run before = some u)
      (hlookup : u.callsOf i = ⟨m, unwinding, .selecting⟩ :: outer)
      (hcalls : t.callsOf i = inner ++ ⟨m, unwinding, stage⟩ :: outer)
      (hfound : (⟨m, unwinding, stage⟩ : Call α β).found? =
        some (u.dispatcher.cache.lookup m))
  /-- It has come to the engine with that, and returned with what the engine gave it. -/
  | returns {before during after : List (Label α β)} {u v w : System α β} {outcome : Outcome β}
      (hsplit : labels =
        before ++ .caller i .advance :: (during ++ .caller i (.endRun outcome) :: after))
      (hbefore : s.run before = some u)
      (hlookup : u.callsOf i = ⟨m, unwinding, .selecting⟩ :: outer)
      (hduring : u.run (.caller i .advance :: during) = some v)
      (hrunning : v.callsOf i =
        ⟨m, unwinding, .running (u.dispatcher.cache.lookup m)⟩ :: outer)
      (hstep : v.step (.caller i (.endRun outcome)) = some w)
      (hreturned : w.callsOf i =
        ⟨m, unwinding,
          .returned (Call.runResult m (u.dispatcher.cache.lookup m) outcome)⟩ :: outer)

namespace System

variable {s t next : System α β} {label : Label α β} {labels : List (Label α β)} {i : Nat}
  {m : MethodId} {unwinding : Bool} {inner outer : List (Call α β)} {stage : CallStage α β}

theorem Fate.cons (hstep : s.step label = some next)
    (h : next.Fate i m unwinding outer labels t) :
    s.Fate i m unwinding outer (label :: labels) t := by
  have hrun : ∀ {before : List (Label α β)} {u}, next.run before = some u →
      s.run (label :: before) = some u := by
    intro before u hbefore
    rw [run_cons_of_step hstep, hbefore]
  cases h with
  | awaits hcalls hawaits => exact .awaits hcalls hawaits
  | finds hsplit hbefore hlookup hcalls hfound =>
    exact .finds (congrArg (label :: ·) hsplit) (hrun hbefore) hlookup hcalls hfound
  | returns hsplit hbefore hlookup hduring hrunning hlast hreturned =>
    exact .returns (congrArg (label :: ·) hsplit) (hrun hbefore) hlookup hduring hrunning hlast
      hreturned

/-- A call that has looked its method up keeps what it found, until the engine is done with it. -/
theorem finds_run {found : Option (CompiledMethod α)} (hisolated : s.Isolated)
    (hobeys : s.obeys spares labels) (hrun : s.run labels = some t)
    (hcalls : s.callsOf i = inner ++ ⟨m, unwinding, stage⟩ :: outer)
    (hfound : (⟨m, unwinding, stage⟩ : Call α β).found? = some found) :
    (∃ inner stage, t.callsOf i = inner ++ ⟨m, unwinding, stage⟩ :: outer ∧
      (⟨m, unwinding, stage⟩ : Call α β).found? = some found) ∨
    ∃ during outcome after v w, labels = during ++ .caller i (.endRun outcome) :: after ∧
      s.run during = some v ∧ v.callsOf i = ⟨m, unwinding, .running found⟩ :: outer ∧
      v.step (.caller i (.endRun outcome)) = some w ∧
      w.callsOf i = ⟨m, unwinding, .returned (Call.runResult m found outcome)⟩ :: outer := by
  induction labels generalizing s inner stage with
  | nil =>
    obtain rfl := Option.some.inj hrun
    exact .inl ⟨inner, stage, hcalls, hfound⟩
  | cons label labels ih =>
    obtain ⟨next, hstep, hrest⟩ := Option.bind_eq_some_iff.mp hrun
    rw [obeys_cons_of_step hstep, Bool.and_eq_true] at hobeys
    have hisolated' := isolated_step hobeys.1 hstep hisolated
    obtain ⟨inner', stage', hcalls', hfound'⟩ | ⟨outcome, rfl, rfl, rfl, hcalls'⟩ :
        (∃ inner stage, next.callsOf i = inner ++ ⟨m, unwinding, stage⟩ :: outer ∧
          (⟨m, unwinding, stage⟩ : Call α β).found? = some found) ∨
        ∃ outcome, label = .caller i (.endRun outcome) ∧ inner = [] ∧ stage = .running found ∧
          next.callsOf i = ⟨m, unwinding, .returned (Call.runResult m found outcome)⟩ :: outer := by
      obtain ⟨move, rfl, hmove⟩ | ⟨-, hsame⟩ := step_of_caller i hstep
      · have hserved := hisolated.served_step hmove
        rw [hcalls] at hserved
        rcases hserved.of_found hfound with hstays | ⟨outcome, rfl, hended⟩
        · exact .inl hstays
        · exact .inr ⟨outcome, rfl, hended⟩
      · exact .inl ⟨inner, stage, hsame.trans hcalls, hfound⟩
    · rcases ih hisolated' hobeys.2 hrest hcalls' hfound' with hstays |
        ⟨during, outcome, after, v, w, rfl, hduring, hended⟩
      · exact .inl hstays
      · refine .inr ⟨label :: during, outcome, after, v, w, rfl, ?_, hended⟩
        rw [run_cons_of_step hstep, hduring]
    · exact .inr ⟨[], outcome, labels, s, next, rfl, rfl, hcalls, hstep, hcalls'⟩

/-- Every call of a system in which no call compiles looks its method up, runs what it found and
returns what the engine gave it. -/
theorem fate_run (hisolated : s.Isolated) (hobeys : s.obeys spares labels)
    (hrun : s.run labels = some t) (hcalls : s.callsOf i = ⟨m, unwinding, stage⟩ :: outer)
    (hawaits : (⟨m, unwinding, stage⟩ : Call α β).awaitsLookup) :
    s.Fate i m unwinding outer labels t := by
  induction labels generalizing s stage with
  | nil =>
    obtain rfl := Option.some.inj hrun
    exact .awaits hcalls hawaits
  | cons label labels ih =>
    obtain ⟨next, hstep, hrest⟩ := Option.bind_eq_some_iff.mp hrun
    rw [obeys_cons_of_step hstep, Bool.and_eq_true] at hobeys
    have hisolated' := isolated_step hobeys.1 hstep hisolated
    obtain ⟨move, rfl, hmove⟩ | ⟨-, hsame⟩ := step_of_caller i hstep
    · have hserved := hisolated.served_step hmove
      rw [hcalls] at hserved
      obtain ⟨rfl, ⟨stage', hcalls', hawaits'⟩ | ⟨rfl, hcalls'⟩⟩ := hserved.of_awaits hawaits
      · exact (ih hisolated' hobeys.2 hrest hcalls' hawaits').cons hstep
      · rcases finds_run hisolated' hobeys.2 hrest (hcalls'.trans (List.nil_append _).symm) rfl with
          ⟨inner, stage', hcallst, hfound⟩ |
          ⟨during, outcome, after, v, w, rfl, hduring, hrunning, hended, hreturned⟩
        · exact .finds (List.nil_append _).symm rfl hcalls hcallst hfound
        · refine .returns (List.nil_append _).symm rfl hcalls ?_ hrunning hended hreturned
          rw [run_cons_of_step hstep, hduring]
    · exact (ih hisolated' hobeys.2 hrest (hsame.trans hcalls) hawaits).cons hstep

/-- Every step of a run leads from one isolated system to another. -/
theorem Isolated.exists_step_of_run {before after : List (Label α β)} (h : s.Isolated)
    (hobeys : s.obeys spares (before ++ label :: after))
    (hrun : s.run (before ++ label :: after) = some t) :
    ∃ u v, s.run before = some u ∧ u.Isolated ∧ u.step label = some v ∧ v.Isolated ∧
      v.obeys spares after ∧ v.run after = some t := by
  obtain ⟨u, hbefore, hafter⟩ := exists_of_run_append hrun
  obtain ⟨v, hstep, hrest⟩ := Option.bind_eq_some_iff.mp hafter
  rw [obeys_append_of_run hbefore, Bool.and_eq_true, obeys_cons_of_step hstep,
    Bool.and_eq_true] at hobeys
  obtain ⟨hpast, hspares, hfuture⟩ := hobeys
  have hisolated := isolated_run hpast hbefore h
  exact ⟨u, v, hbefore, hisolated, hstep, isolated_step hspares hstep hisolated, hfuture, hrest⟩

/-- No caller calls the compiler. -/
theorem Isolated.beginCompile_notMem (h : s.Isolated) (hobeys : s.obeys spares labels)
    (hrun : s.run labels = some t) (i : Nat) : .caller i .beginCompile ∉ labels := by
  intro hmem
  obtain ⟨before, after, rfl⟩ := List.append_of_mem hmem
  obtain ⟨u, v, -, hisolated, hstep, -⟩ := h.exists_step_of_run hobeys hrun
  obtain ⟨move, hmove, hstack⟩ | ⟨hother, -⟩ := step_of_caller i hstep
  · obtain rfl := (Label.caller.inj hmove).2
    cases hisolated.served_step hstack
  · simp [Label.isOf] at hother

/-- Every call that is made in a run has its fate in the rest of it. -/
theorem Isolated.fate_of_invoke {before after : List (Label α β)} {u : System α β}
    (h : s.Isolated) (hobeys : s.obeys spares (before ++ .caller i (.invoke m unwinding) :: after))
    (hrun : s.run (before ++ .caller i (.invoke m unwinding) :: after) = some t)
    (hbefore : s.run before = some u) :
    ∃ v, u.step (.caller i (.invoke m unwinding)) = some v ∧
      v.Fate i m unwinding (u.callsOf i) after t := by
  obtain ⟨u', v, hbefore', -, hstep, hisolated, hobeys, hrest⟩ := h.exists_step_of_run hobeys hrun
  obtain rfl := Option.some.inj (hbefore.symm.trans hbefore')
  refine ⟨v, hstep, ?_⟩
  obtain ⟨move, hmove, hstack⟩ | ⟨hother, -⟩ := step_of_caller i hstep
  · obtain rfl := (Label.caller.inj hmove).2
    generalize u.callsOf i = outer, hcalls : v.callsOf i = calls, v.dispatcher = d' at hstack ⊢
    cases hstack with
    | invoke => exact fate_run hisolated hobeys hrest hcalls rfl
  · simp [Label.isOf] at hother

end System

/-! ## Main result -/

/-- An accepted background configuration starts as many workers as it says. -/
theorem System.size_start {config : TierConfig} {d : Dispatcher α}
    (hstart : Dispatcher.start config = .ok d) (hmode : config.mode = .background) :
    d.pool.map (·.size) = some config.compileWorkers.toNat := by
  have hsome : config.compileWorkers.toNat ≠ 0 := by
    intro hnone
    have hvalid := Dispatcher.validate_of_start hstart
    have hzero : config.compileWorkers = 0 := UInt64.toNat_inj.mp hnone
    unfold TierConfig.validate at hvalid
    split at hvalid
    · cases hvalid
    · split at hvalid
      · cases hvalid
      · rw [if_pos ⟨hmode, hzero⟩] at hvalid
        cases hvalid
  obtain ⟨log, rfl⟩ := Dispatcher.eq_of_start hstart
  simp [Dispatcher.ofConfig, hmode, Pool.start, Pool.size]
  omega

/-- **Background callers are isolated from the compiler.** Take any run of any number of callers and
workers of a background dispatcher, with any outcomes of the compiler and of the engine, in which
the host gives the dispatcher up last.

- No compile call is made by a caller, no call compiles inline, and the pool was never unavailable.
- What a call returns is what an outcome of the engine means for it. So no compilation that failed
  is reported to a caller, and a panic that goes through a call is one of the engine.
- A call looks its method up, comes to the engine with what was published at that moment, and
  returns with what the engine then gave it.
- All workers are there as long as the pool is open. A free worker can start the oldest request; a
  worker that holds a request can start it; and a worker whose compile call ends, with whatever
  outcome, is free again after a few moves of its own. A request that was handed over stays in
  the queue, with no other one getting ahead of it, until it is the oldest and a free worker takes
  it.

In such a run no worker is lost (`Label.keepsWorkers`): the payloads that the compiler panics with
can be dropped. -/
theorem background_callers_isolated {config : TierConfig} {d : Dispatcher α} {callers : Nat}
    {labels : List (Label α β)} {s : System α β} (hstart : Dispatcher.start config = .ok d)
    (hmode : config.mode = .background)
    (hlast : (System.start d callers).givesUpLast labels = true)
    (hkeep : ∀ label ∈ labels, label.keepsWorkers)
    (hrun : (System.start d callers).run labels = some s) :
    (∀ i, .caller i .beginCompile ∉ labels ∧ ∀ c ∈ s.callsOf i, c.compiles? = none) ∧
    (∀ r, .poolUnavailable r ∉ s.dispatcher.events) ∧
    (∀ i, ∀ c ∈ s.callsOf i, ∀ result, c.stage = .returned result →
      (∃ (found : Option (CompiledMethod α)) (outcome : Outcome β),
        result = Call.runResult c.method found outcome) ∧
      ∀ m tier reason, result ≠ .failed (.compilationFailed m tier reason)) ∧
    (∀ before i m unwinding after u,
      labels = before ++ .caller i (.invoke m unwinding) :: after →
      (System.start d callers).run before = some u →
      ∃ v, u.step (.caller i (.invoke m unwinding)) = some v ∧
        v.Fate i m unwinding (u.callsOf i) after s) ∧
    ∃ pool, s.dispatcher.pool = some pool ∧ pool.size = config.compileWorkers.toNat ∧
      (pool.isOpen = true → ∀ worker ∈ pool.workers, worker.isAlive = true) ∧
      (∀ worker r rest, pool.workers[worker]? = some .free → pool.queue = r :: rest →
        ∃ t, s.run [.worker worker .take, .worker worker .beginCompile] = some t ∧
          s.history [.worker worker .take, .worker worker .beginCompile] = [.started r]) ∧
      (∀ worker r, pool.jobOf? worker = some (.hold r) →
        ∃ t, s.step (.worker worker .beginCompile) = some t ∧
          s.milestone? (.worker worker .beginCompile) = some (.started r)) ∧
      (∀ worker job outcome, pool.jobOf? worker = some job → job.isCompiling = true →
        ∃ (moves : List (WorkerMove α)) (t : System α β), moves.length ≤ 5 ∧
          s.run (.worker worker (.endCompile outcome) :: moves.map (.worker worker)) = some t ∧
          t.dispatcher.pool = some (pool.finish worker)) ∧
      ∀ ahead r later t, pool.Awaits ahead r → (∀ label ∈ later, label.keepsWorkers) →
        s.run later = some t →
        (∃ pool', t.dispatcher.pool = some pool' ∧ pool'.Awaits ahead r) ∨ s.Takes later r := by
  have hinitial := System.isolated_start (β := β) hstart hmode callers
  have hspared : (System.start d callers).obeys System.spares labels = true := by
    rw [System.givesUpLast_eq_obeys] at hlast
    rw [show System.spares (α := α) (β := β) = fun u label => u.permits label && label.keepsWorkers
        from rfl,
      System.obeys_and, hlast, System.obeys_of_forall fun label hmem _ => hkeep label hmem]
    rfl
  have hisolated := System.isolated_run hspared hrun hinitial
  refine ⟨fun i => ⟨hinitial.beginCompile_notMem hspared hrun i, fun c hc => ?_⟩, fun r hr => ?_,
    ?_, ?_, ?_⟩
  · have hfree := (hisolated.served i c hc).free
    obtain ⟨m, unwinding, stage⟩ := c
    cases stage with
    | compiling job => cases hfree
    | _ => rfl
  · exact hisolated.available r (List.mem_reverse.mp hr)
  · intro i c hc result hstage
    obtain ⟨found, outcome, rfl⟩ := (hisolated.served i c hc).answer result hstage
    refine ⟨⟨found, outcome, rfl⟩, fun m tier reason => ?_⟩
    cases found <;> cases outcome <;> simp [Call.runResult]
  · rintro before i m unwinding after u rfl hbefore
    exact hinitial.fate_of_invoke hspared hrun hbefore
  · have hsize := System.run_induction System.size_step hrun (System.size_start hstart hmode)
    obtain ⟨pool, hpool, hsize⟩ := Option.map_eq_some_iff.mp hsize
    refine ⟨pool, hpool, hsize, fun hopen => ((hisolated.manned pool hpool).1 hopen).2, ?_, ?_, ?_,
      ?_⟩
    · intro worker r rest hfree hqueue
      obtain ⟨t, hruns, hhistory, -⟩ := System.starts_of_isFree hpool hfree hqueue
      exact ⟨t, hruns, hhistory⟩
    · exact fun worker r hjob => System.starts_of_hold hpool hjob
    · intro worker job outcome hjob hbusy
      obtain ⟨moves, t, hlength, hruns, -, hfinish⟩ :=
        System.survives_run hpool hjob hbusy outcome
      exact ⟨moves, t, hlength, hruns, hfinish⟩
    · exact fun ahead r later t hwaits hkeep hlater => System.waits_run hpool hwaits hkeep hlater

/-- The only worker meets a panic, and the request is handed over once more. -/
def panickingOnce : List (Label Nat Nat) :=
  let advances (n : Nat) : List (Label Nat Nat) := List.replicate n (.caller 0 .advance)
  List.flatten [
    [.caller 0 (.invoke ⟨0⟩ false)], advances 10,
    [.worker 0 .take, .worker 0 .beginCompile, .worker 0 (.endCompile (.panic .other)),
      .worker 0 .advance, .worker 0 .advance, .worker 0 .finish],
    [.caller 0 (.endRun (.value 1)), .caller 0 .leave],
    [.caller 0 (.invoke ⟨0⟩ false)], advances 9,
    [.caller 0 (.endRun (.error "out of fuel"))]]

theorem background_callers_isolated_panicking :
    let d : Dispatcher Nat := .ofConfig ((TierConfig.withThresholds 1 5).inBackground 1)
    ∃ s t, (System.start d 1).run panickingOnce = some s ∧
      .requestPanicked ⟨⟨0⟩, .l1⟩ .other ∈ s.dispatcher.events ∧
      (∀ r, .poolUnavailable r ∉ s.dispatcher.events) ∧
      (∀ c ∈ s.callsOf 0, ∀ result, c.stage = .returned result →
        ∀ m tier reason, result ≠ .failed (.compilationFailed m tier reason)) ∧
      s.run [.worker 0 .take, .worker 0 .beginCompile] = some t ∧
      s.history [.worker 0 .take, .worker 0 .beginCompile] = [.started ⟨⟨0⟩, .l1⟩] := by
  intro d
  have hstart : Dispatcher.start ((TierConfig.withThresholds 1 5).inBackground 1) = .ok d := rfl
  have hruns : ((System.start d 1).run panickingOnce).any fun s =>
      (.requestPanicked ⟨⟨0⟩, .l1⟩ .other : Event) ∈ s.dispatcher.events &&
        s.dispatcher.pool.any fun pool =>
          pool.workers[0]? = some .free && pool.queue = [⟨⟨0⟩, .l1⟩] := by
    decide +kernel
  obtain ⟨s, hrun, hs⟩ := (Option.any_eq_true _ _).mp hruns
  rw [Bool.and_eq_true, decide_eq_true_eq] at hs
  obtain ⟨hpanicked, hs⟩ := hs
  obtain ⟨-, havailable, hresults, -, pool, hpool, -, -, hstarts, -⟩ :=
    background_callers_isolated hstart rfl (by decide +kernel) (by decide) hrun
  rw [hpool, Option.any_some, Bool.and_eq_true, decide_eq_true_eq, decide_eq_true_eq] at hs
  obtain ⟨t, ht, hhistory⟩ := hstarts 0 ⟨⟨0⟩, .l1⟩ [] hs.1 hs.2
  exact ⟨s, t, hrun, hpanicked, havailable,
    fun c hc result hstage => (hresults 0 c hc result hstage).2, ht, hhistory⟩

/-- The only worker meets a panic whose payload panics in turn when it is dropped, and the request
is handed over once more. -/
def deserted : List (Label Nat Nat) :=
  let advances (n : Nat) : List (Label Nat Nat) := List.replicate n (.caller 0 .advance)
  List.flatten [
    [.caller 0 (.invoke ⟨0⟩ false)], advances 10,
    [.worker 0 .take, .worker 0 .beginCompile, .worker 0 (.endCompile (.panic .other)),
      .worker 0 .advance, .worker 0 .advance, .lose 0 (.text "again")],
    [.caller 0 (.endRun (.value 1)), .caller 0 .leave],
    [.caller 0 (.invoke ⟨0⟩ false)], advances 6,
    [.caller 0 .beginCompile, .caller 0 (.endCompile (.error "busy"))], advances 3]

/-- The destructor of a payload takes the last worker, and the next call that is granted a request
compiles inline and reports what the compiler says. -/
theorem caller_compiles_for_lost_worker :
    let d : Dispatcher Nat := .ofConfig ((TierConfig.withThresholds 1 5).inBackground 1)
    ∃ s : System Nat Nat,
      Dispatcher.start ((TierConfig.withThresholds 1 5).inBackground 1) = .ok d ∧
      (System.start d 1).givesUpLast deserted = true ∧
      (System.start d 1).run deserted = some s ∧
      .caller 0 .beginCompile ∈ deserted ∧
      .poolUnavailable ⟨⟨0⟩, .l1⟩ ∈ s.dispatcher.events ∧
      (s.callsOf 0).map (·.stage) =
        [.returned (.failed (.compilationFailed ⟨0⟩ .l1 "busy"))] := by
  intro d
  have hruns : ((System.start d 1).run deserted).any fun s =>
      (.poolUnavailable ⟨⟨0⟩, .l1⟩ : Event) ∈ s.dispatcher.events &&
        (s.callsOf 0).map (·.stage) =
          [.returned (.failed (.compilationFailed ⟨0⟩ .l1 "busy"))] := by
    decide +kernel
  obtain ⟨s, hrun, hs⟩ := (Option.any_eq_true _ _).mp hruns
  rw [Bool.and_eq_true, decide_eq_true_eq, decide_eq_true_eq] at hs
  exact ⟨s, rfl, by decide +kernel, hrun, by simp [deserted], hs.1, hs.2⟩

end TieredDispatch

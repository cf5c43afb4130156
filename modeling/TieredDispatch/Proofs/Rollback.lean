import TieredDispatch.Proofs.Account
import TieredDispatch.Proofs.Driving
import TieredDispatch.Proofs.Nesting
import TieredDispatch.Proofs.Schedule

/-!
# Failed compilations

**Theorem (`failed_compile_leaves_no_trace`).** Without a pool and on one thread, a call whose
compile call fails gives its request back, is counted as a failure, and is left; nothing else
changes, and the call does not come to the engine. If the compiler made no calls, all is as it was
before the call but for its count and that failure. A panic that goes through a whole stack of calls
does the same for each compile call on it.

What a failure does to the dispatcher is `Dispatcher.rollBack`, and the moves that lead there are
computed (`System.run_return`); a panic that goes through calls folds it over the compile calls
among them (`System.run_unwinding`). For what was before the call, `Position.Approaches` follows the
call from its arrival to its compile call: it is counted, its request is marked, and as the bit was
clear then, clearing it again leaves the count only.
-/

namespace TieredDispatch

variable {α β : Type}

/-! ## Giving a request back -/

/-- The event that tells of a failure. -/
def CompileFailure.event (r : Request) : CompileFailure → Event
  | error reason => .compilationFailed r reason
  | panic _ => .compilerPanicked r

namespace Dispatcher

/-- What a failed compilation does: the request is given back, and the failure is counted and
reported. -/
def rollBack (d : Dispatcher α) (r : Request) (cause : CompileFailure) : Dispatcher α :=
  { d with
    cache := d.cache.release r.method r.tier
    metrics := d.metrics.countFailure
    log := cause.event r :: d.log }

theorem ledger_rollBack (d : Dispatcher α) (r : Request) (cause : CompileFailure) :
    (d.rollBack r cause).ledger = d.ledger.unmark r :=
  d.cache.ledger_release d.policy d.counter.get r

/-- What a panic does that goes through the compile calls for some requests. -/
def unwind (d : Dispatcher α) (payload : PanicPayload) (requests : List Request) : Dispatcher α :=
  requests.foldl (·.rollBack · (.panic payload)) d

theorem counter_unwind (d : Dispatcher α) (payload : PanicPayload) (requests : List Request) :
    (d.unwind payload requests).counter = d.counter := by
  induction requests generalizing d with
  | nil => rfl
  | cons r requests ih => exact ih (d.rollBack r (.panic payload))

theorem lookup_unwind (d : Dispatcher α) (payload : PanicPayload) (requests : List Request) :
    (d.unwind payload requests).cache.lookup = d.cache.lookup := by
  induction requests generalizing d with
  | nil => rfl
  | cons r requests ih =>
    exact (ih (d.rollBack r (.panic payload))).trans (d.cache.lookup_release r.method r.tier)

theorem isRequested_unwind (d : Dispatcher α) (payload : PanicPayload) (requests : List Request)
    (q : Request) :
    (d.unwind payload requests).ledger.isRequested q =
      (q ∉ requests && d.ledger.isRequested q) := by
  induction requests generalizing d with
  | nil => simp [unwind]
  | cons r requests ih =>
    refine (ih (d.rollBack r (.panic payload))).trans ?_
    rw [ledger_rollBack, Ledger.isRequested_unmark]
    by_cases hq : q = r <;> simp [hq]

theorem metrics_unwind (d : Dispatcher α) (payload : PanicPayload) (requests : List Request) :
    (d.unwind payload requests).metrics =
      { d.metrics with
        compilationFailures :=
          d.metrics.compilationFailures + UInt64.ofNat requests.length } := by
  induction requests generalizing d with
  | nil => simp [unwind]
  | cons r requests ih =>
    refine (ih (d.rollBack r (.panic payload))).trans ?_
    simp only [rollBack, Metrics.countFailure, List.length_cons]
    rw [Nat.add_comm, UInt64.ofNat_add, ← UInt64.add_assoc]
    rfl

end Dispatcher

/-! ## The moves of a failed compilation -/

/-- What a call does whose compile call has failed: it gives its request back, counts and reports
that, returns and is left. -/
def rollbackMoves : List (CallerMove α β) :=
  [.advance, .advance, .advance, .leave]

/-- What a call does when a panic goes through the host's work on its behalf. -/
def Call.unwindMoves (payload : PanicPayload) (c : Call α β) : List (CallerMove α β) :=
  if c.compiling?.isSome then .endCompile (.panic payload) :: rollbackMoves
  else [.endRun (.panic payload), .leave]

/-- A panic goes through some calls of the only caller, the innermost first. -/
def unwinding (payload : PanicPayload) (frames : List (Call α β)) : List (Label α β) :=
  (frames.flatMap (·.unwindMoves payload)).map (.caller 0)

theorem Call.eq_of_compiling? {c : Call α β} {r : Request} (hc : c.compiling? = some r)
    (hcalm : c.unwinding = false) : c = ⟨c.method, false, .compiling ⟨r, .compiling⟩⟩ := by
  obtain ⟨job, hstage, hbusy, rfl⟩ := compiling?_eq_some.mp hc
  rw [CompileJob.eq_of_isCompiling hbusy] at hstage
  obtain ⟨m, unwinding, stage⟩ := c
  obtain rfl : unwinding = false := hcalm
  obtain rfl : stage = _ := hstage
  rfl

namespace System

/-- The compiler fails. -/
theorem step_fail (d : Dispatcher α) (m : MethodId) (r : Request) (outer : List (Call α β))
    {outcome : Outcome α} {cause : CompileFailure} (h : outcome.failure? = some cause) :
    (⟨d, [⟨m, false, .compiling ⟨r, .compiling⟩⟩ :: outer]⟩ : System α β).step
        (.caller 0 (.endCompile outcome)) =
      some ⟨d, [⟨m, false, .compiling ⟨r, .failed cause⟩⟩ :: outer]⟩ := by
  cases outcome with
  | value artifact => cases h
  | error reason | panic payload =>
    obtain rfl := Option.some.inj h
    rfl

/-- The request is given back, and the call returns. -/
theorem run_return (d : Dispatcher α) (m : MethodId) (r : Request) (outer : List (Call α β))
    (cause : CompileFailure) :
    (⟨d, [⟨m, false, .compiling ⟨r, .failed cause⟩⟩ :: outer]⟩ : System α β).run
        [.caller 0 .advance, .caller 0 .advance, .caller 0 .advance] =
      some ⟨d.rollBack r cause, [⟨m, false, .returned (cause.result r)⟩ :: outer]⟩ := by
  cases cause <;> rfl

/-- A panic goes through the calls of the only caller. -/
theorem run_unwinding (d : Dispatcher α) (payload : PanicPayload) (frames base : List (Call α β))
    (hhost : ∀ c ∈ frames, c.isWithHost = true) (hcalm : ∀ c ∈ frames, c.unwinding = false) :
    (⟨d, [frames ++ base]⟩ : System α β).run (unwinding payload frames) =
      some ⟨d.unwind payload (compilesInProgress frames), [base]⟩ := by
  induction frames generalizing d with
  | nil => rfl
  | cons c frames ih =>
    rw [List.forall_mem_cons] at hhost hcalm
    rw [unwinding, List.flatMap_cons, List.map_append, run_append]
    obtain ⟨m, unwinding, stage⟩ := c
    obtain rfl : unwinding = false := hcalm.1
    cases stage with
    | compiling job =>
      rw [CompileJob.eq_of_isCompiling hhost.1]
      exact ih (d.rollBack job.request (.panic payload)) hhost.2 hcalm.2
    | running found => exact ih d hhost.2 hcalm.2
    | _ => cases hhost.1

end System

/-! ## Nothing else on the way -/

/-- A call in which the dispatcher moves next is not with its host. -/
theorem Call.isWithHost_of_dispatcher {c : Call α β} (h : c.turn = .dispatcher) :
    c.isWithHost = false := by
  obtain ⟨m, unwinding, stage⟩ := c
  cases stage with
  | compiling job =>
    obtain ⟨r, stage⟩ := job
    cases stage with
    | compiling => simp [turn, CompileJob.turn] at h
    | _ => rfl
  | running found => cases h
  | _ => rfl

theorem StackStep.eq_advance {d d' : Dispatcher α} {move : CallerMove α β} {c : Call α β}
    {outer calls : List (Call α β)} (h : StackStep d move (c :: outer) calls d')
    (hturn : c.turn = .dispatcher) : move = .advance := by
  cases h with
  | advance => rfl
  | invoke m unwinding hmay =>
    have hwith := hmay c rfl
    rw [Call.isWithHost_of_dispatcher hturn] at hwith
    cases hwith
  | beginCompile _ hother | endCompile _ _ hother | endRun _ _ hother | leave _ hother =>
    rw [hturn] at hother
    cases hother

theorem StackStep.eq_leave {d d' : Dispatcher α} {move : CallerMove α β} {m : MethodId}
    {unwinding : Bool} {result : CallResult β} {outer calls : List (Call α β)}
    (h : StackStep d move (⟨m, unwinding, .returned result⟩ :: outer) calls d') :
    move = .leave := by
  cases h with
  | leave => rfl
  | invoke k unwinding' hmay => cases hmay _ rfl
  | advance _ hother | beginCompile _ hother | endCompile _ _ hother | endRun _ _ hother =>
    cases hother

namespace System

variable {s t : System α β} {label : Label α β} {labels : List (Label α β)}

/-- Of a single caller without a pool every step is a move, unless it changes nothing. -/
theorem step_of_single (hsingle : s.callers.length = 1) (hpool : s.dispatcher.pool = none)
    (hown : label.isOwn) (hstep : s.step label = some t) :
    (∃ move, label = .caller 0 move ∧
      StackStep s.dispatcher move (s.callsOf 0) (t.callsOf 0) t.dispatcher) ∨ t = s := by
  obtain hmove | ⟨hother, -⟩ := step_of_caller 0 hstep
  · exact .inl hmove
  · cases systemStep_of_step hstep with
    | @caller i move calls calls' d' hcalls =>
      have hi := (List.getElem?_eq_some_iff.mp hcalls).1
      obtain rfl : i = 0 := by omega
      simp [Label.isOf] at hother
    | worker hsome => simp [hpool] at hsome
    | direct | lose => cases hown
    | close =>
      obtain ⟨d, callers⟩ := s
      simp only [System.mk.injEq, and_true]
      obtain ⟨config, counter, cache, metrics, pool, log⟩ := d
      obtain rfl : pool = none := hpool
      exact .inr rfl

/-- On the way from a failure to the end of its call nothing else is possible than the next of the
moves that lead there. -/
theorem eq_rollbackMove {d : Dispatcher α} (hpool : d.pool = none) {m : MethodId} {r : Request}
    {cause : CompileFailure} {outer : List (Call α β)} {before after : List (CallerMove α β)}
    {move : CallerMove α β} (hmoves : rollbackMoves = before ++ move :: after)
    (hrun : (⟨d, [⟨m, false, .compiling ⟨r, .failed cause⟩⟩ :: outer]⟩ : System α β).run
      (before.map (.caller 0)) = some s)
    (hown : label.isOwn) (hstep : s.step label = some t) : label = .caller 0 move ∨ t = s := by
  have hadvance : ∀ {d : Dispatcher α} {c : Call α β}, s = ⟨d, [c :: outer]⟩ → d.pool = none →
      c.turn = .dispatcher → label = .caller 0 .advance ∨ t = s := by
    rintro d c rfl hpool hturn
    obtain ⟨move, rfl, hmove⟩ | hsame := step_of_single rfl hpool hown hstep
    · obtain rfl := StackStep.eq_advance (c := c) hmove hturn
      exact .inl rfl
    · exact .inr hsame
  rcases before with _ | ⟨_, _ | ⟨_, _ | ⟨_, _ | ⟨_, before⟩⟩⟩⟩ <;>
    simp only [rollbackMoves, List.nil_append, List.cons_append, List.cons.injEq] at hmoves
  · obtain ⟨rfl, -⟩ := hmoves
    obtain rfl := Option.some.inj hrun
    exact hadvance rfl hpool rfl
  · obtain ⟨rfl, rfl, -⟩ := hmoves
    obtain rfl := Option.some.inj hrun
    exact hadvance rfl hpool rfl
  · obtain ⟨rfl, rfl, rfl, -⟩ := hmoves
    cases cause <;> obtain rfl := Option.some.inj hrun <;> exact hadvance rfl hpool rfl
  · obtain ⟨rfl, rfl, rfl, rfl, -⟩ := hmoves
    obtain rfl := Option.some.inj ((run_return d m r outer cause).symm.trans hrun)
    obtain ⟨move, rfl, hmove⟩ | hsame := step_of_single rfl hpool hown hstep
    · obtain rfl := StackStep.eq_leave hmove
      exact .inl rfl
    · exact .inr hsame
  · simp at hmoves

end System

/-! ## On the way to a compile call -/

/-- What a call has done by the time it is in a position on the way to its compile call: it is
counted, and from its grant on the bit of its request, which was clear, is set. -/
def Position.Approaches (l : Ledger α) (metrics : Metrics) (l' : Ledger α) (metrics' : Metrics) :
    Position α → Prop
  | arriving _ => l' = l ∧ metrics' = metrics
  | counted m _ | inspecting m _ _ => l' = l.count m ∧ metrics' = metrics
  | claiming r _ => l' = l.count r.method ∧ metrics' = metrics
  | waiting r | compiling r =>
    l' = (l.count r.method).mark r ∧ metrics' = metrics ∧ l.isRequested r = false
  | failing _ | publishing _ _ => True

section Approaching

variable {l l' l'' : Ledger α} {metrics metrics' metrics'' : Metrics}

theorem Progress.approaches {μ : Milestone α} {before after : Multiset (Position α)}
    (hprogress : Progress μ before l' after l'') (hμ : μ.isCall = false)
    (h : ∀ p ∈ before, p.Approaches l metrics l' metrics') :
    ∀ p ∈ after, p.Approaches l metrics l'' metrics' := by
  intro p hp
  cases hprogress with
  | invoked => cases hμ
  | content | denied | released | placed => exact absurd hp (Multiset.notMem_zero p)
  | counted m =>
    obtain rfl := Multiset.mem_singleton.mp hp
    obtain ⟨rfl, hmetrics⟩ := h _ (Multiset.mem_singleton_self _)
    exact ⟨rfl, hmetrics⟩
  | @granted r count _ hgrants =>
    obtain rfl := Multiset.mem_singleton.mp hp
    obtain ⟨rfl, hmetrics⟩ := h _ (Multiset.mem_singleton_self _)
    exact ⟨rfl, hmetrics, Ledger.isRequested_of_grants (l := l.count r.method) hgrants⟩
  | inspected m count =>
    obtain rfl := Multiset.mem_singleton.mp hp
    exact h (.counted m count) (Multiset.mem_singleton_self _)
  | @wanting m count requested tier =>
    obtain rfl := Multiset.mem_singleton.mp hp
    exact h (.inspecting m count requested) (Multiset.mem_singleton_self _)
  | started r =>
    obtain rfl := Multiset.mem_singleton.mp hp
    exact h (.waiting r) (Multiset.mem_singleton_self _)
  | succeeded | failed | recorded =>
    obtain rfl := Multiset.mem_singleton.mp hp
    trivial

theorem Advances.approaches {μ? : Option (Milestone α)} {before : Option (Position α)}
    {after : Multiset (Position α)} (hadvances : Advances μ? before l' after l'')
    (hμ : μ?.any (·.isCall) = false)
    (h : ∀ p ∈ before, p.Approaches l metrics l' metrics') :
    ∀ p ∈ after, p.Approaches l metrics l'' metrics' := by
  have hbefore : ∀ p ∈ Multiset.ofList before.toList, p.Approaches l metrics l' metrics' :=
    fun p hp => h p (Option.mem_toList.mp hp)
  cases μ? with
  | none =>
    obtain ⟨rfl, rfl⟩ := hadvances
    exact hbefore
  | some μ => exact Progress.approaches hadvances hμ hbefore

/-- A call that moves a meter on is not on its way to a compile call. -/
theorem Call.approaches_of_meter? {c : Call α β} {d : Dispatcher α} {k : Meter}
    (hk : c.meter? = some k) {p : Position α} (hp : p ∈ (c.advance d).1.position?) :
    p.Approaches l metrics l' metrics' := by
  obtain ⟨m, unwinding, stage⟩ := c
  cases stage with
  | denied | queued | entering => cases hp
  | compiling job =>
    obtain ⟨r, stage⟩ := job
    cases stage with
    | compiled artifact =>
      obtain rfl := Option.some.inj hp
      trivial
    | superseded | charged reason => cases hp
    | released cause =>
      rcases cause with reason | payload
      · cases unwinding <;> cases hp
      · cases hp
    | _ => cases hk
  | _ => cases hk

theorem Call.approaches_advance {c : Call α β} {d : Dispatcher α} (hturn : c.turn = .dispatcher)
    (h : ∀ p ∈ c.position?, p.Approaches l metrics d.ledger d.metrics) :
    ∀ p ∈ (c.advance d).1.position?,
      p.Approaches l metrics (c.advance d).2.ledger (c.advance d).2.metrics := by
  intro p hp
  rw [c.metrics_advance]
  cases hk : c.meter? with
  | some k => exact approaches_of_meter? hk hp
  | none =>
    refine (c.advances d hturn).approaches (c.any_milestone? d).1 h p ?_
    exact Multiset.mem_add.mpr (.inl (Option.mem_toList.mpr hp))

/-- A call that goes on approaches its compile call, or is past it. -/
theorem StackStep.approaches {d d' : Dispatcher α} {move : CallerMove α β} {c : Call α β}
    {outer calls : List (Call α β)} (hstep : StackStep d move (c :: outer) calls d')
    (hmove : ∀ m unwinding, move ≠ .invoke m unwinding)
    (h : ∀ p ∈ c.position?, p.Approaches l metrics d.ledger d.metrics) :
    calls = outer ∨ ∃ c', calls = c' :: outer ∧
      ∀ p ∈ c'.position?, p.Approaches l metrics d'.ledger d'.metrics := by
  cases hstep with
  | invoke m unwinding => exact absurd rfl (hmove m unwinding)
  | leave => exact .inl rfl
  | advance _ hturn => exact .inr ⟨_, rfl, Call.approaches_advance hturn h⟩
  | @beginCompile _ job _ hturn hidle =>
    obtain ⟨hbefore, hafter, -⟩ := Call.position?_of_turn hturn
    refine .inr ⟨_, rfl, fun p hp => ?_⟩
    rw [hbefore] at h
    refine (job.advances_begin d.ledger (Call.stage_of_turn_compiler hturn).2 hidle).approaches rfl
      h p ?_
    rwa [← hafter, Multiset.mem_coe, Option.mem_toList]
  | @endCompile _ job outcome _ hturn hbusy =>
    obtain ⟨hbefore, -, hafter⟩ := Call.position?_of_turn hturn
    refine .inr ⟨_, rfl, fun p hp => ?_⟩
    rw [hbefore] at h
    refine (job.advances_conclude d.ledger outcome (Call.stage_of_turn_compiler hturn).2
      hbusy).approaches rfl h p ?_
    rwa [← hafter outcome, Multiset.mem_coe, Option.mem_toList]
  | endRun outcome _ hturn =>
    refine .inr ⟨_, rfl, fun p hp => ?_⟩
    rw [Call.concludeRun, Call.stage_of_turn_engine hturn] at hp
    cases hp

end Approaching

/-- Whether the step is a call that the host makes. -/
def Label.isInvocation : Label α β → Bool
  | caller _ (.invoke _ _) => true
  | _ => false

theorem System.isCalm_run {s t : System α β} {labels : List (Label α β)}
    (hcalm : ∀ label ∈ labels, label.isCalm) (hrun : s.run labels = some t) (h : s.IsCalm) :
    t.IsCalm :=
  history_induction (P := fun _ u => u.IsCalm)
    (fun hmem hstep => isCalm_step (hcalm _ hmem) hstep) (h := []) hrun h

/-- Without new calls the stack of a caller does not grow. -/
theorem StackStep.length_le {d d' : Dispatcher α} {move : CallerMove α β}
    {calls calls' : List (Call α β)} (h : StackStep d move calls calls' d')
    (hmove : ∀ m unwinding, move ≠ .invoke m unwinding) : calls'.length ≤ calls.length := by
  cases h with
  | invoke m unwinding => exact absurd rfl (hmove m unwinding)
  | leave => exact Nat.le_succ _
  | _ => exact Nat.le_refl _

/-- The call on top of some others approaches its compile call, or is past it, or was left. -/
def System.Approaching (l : Ledger α) (metrics : Metrics) (outer : List (Call α β))
    (s : System α β) : Prop :=
  (s.callsOf 0).length ≤ outer.length ∨
    ∃ c, s.callsOf 0 = c :: outer ∧
      ∀ p ∈ c.position?, p.Approaches l metrics s.dispatcher.ledger s.dispatcher.metrics

namespace System

variable {s t : System α β} {label : Label α β} {labels : List (Label α β)} {l : Ledger α}
  {metrics : Metrics} {outer : List (Call α β)}

/-- No run makes a pool. -/
theorem pool_eq_none_run (hrun : s.run labels = some t) (hpool : s.dispatcher.pool = none) :
    t.dispatcher.pool = none := by
  have hsame := isSome_pool_run hrun
  rwa [hpool, Option.isSome_none, Option.isSome_eq_false_iff, Option.isNone_iff_eq_none] at hsame

theorem approaching_step (hsingle : s.callers.length = 1) (hpool : s.dispatcher.pool = none)
    (hown : label.isOwn) (hinvokes : label.isInvocation = false) (hstep : s.step label = some t)
    (h : s.Approaching l metrics outer) : t.Approaching l metrics outer := by
  obtain ⟨move, rfl, hmove⟩ | rfl := step_of_single hsingle hpool hown hstep
  · have hother : ∀ m unwinding, move ≠ .invoke m unwinding := by
      rintro m unwinding rfl
      cases hinvokes
    rcases h with hleft | ⟨c, hcalls, happroaches⟩
    · exact .inl ((hmove.length_le hother).trans hleft)
    · rw [hcalls] at hmove
      rcases hmove.approaches hother happroaches with hleft | hstays
      · exact .inl (hleft ▸ Nat.le_refl _)
      · exact .inr hstays
  · exact h

theorem approaching_run (hsingle : s.callers.length = 1) (hpool : s.dispatcher.pool = none)
    (hown : ∀ label ∈ labels, label.isOwn)
    (hinvokes : ∀ label ∈ labels, label.isInvocation = false) (hrun : s.run labels = some t)
    (h : s.Approaching l metrics outer) : t.Approaching l metrics outer := by
  induction labels generalizing s with
  | nil =>
    obtain rfl := Option.some.inj hrun
    exact h
  | cons label labels ih =>
    obtain ⟨u, hstep, hrest⟩ := Option.bind_eq_some_iff.mp hrun
    rw [List.forall_mem_cons] at hown hinvokes
    exact ih ((length_callers_step hstep).trans hsingle)
      (pool_eq_none_run ((run_singleton s label).trans hstep) hpool) hown.2 hinvokes.2 hrest
      (approaching_step hsingle hpool hown.1 hinvokes.1 hstep h)

/-- What a call has done by the time the compiler is at work for it, if no call was made on the
way. -/
theorem of_approaching {c : Call α β} {r : Request} (hcalls : s.callsOf 0 = c :: outer)
    (hc : c.compiling? = some r) (h : s.Approaching l metrics outer) :
    s.dispatcher.ledger = (l.count r.method).mark r ∧ s.dispatcher.metrics = metrics ∧
      l.isRequested r = false := by
  rcases h with hleft | ⟨c', hcalls', happroaches⟩
  · rw [hcalls, List.length_cons] at hleft
    omega
  · obtain ⟨rfl, -⟩ := List.cons.inj (hcalls.symm.trans hcalls')
    obtain ⟨job, hstage, hbusy, rfl⟩ := Call.compiling?_eq_some.mp hc
    have hposition : c.position? = some (.compiling job.request) := by
      rw [Call.position?, hstage, CompileJob.eq_of_isCompiling hbusy]
      rfl
    exact happroaches _ hposition

/-- The same, from the state in which the call was made. -/
theorem of_run_invoke {s₀ : System α β} {m : MethodId} {c : Call α β} {r : Request}
    (hsingle : s₀.callers.length = 1) (hpool : s₀.dispatcher.pool = none)
    (hown : ∀ label ∈ labels, label.isOwn)
    (hinvokes : ∀ label ∈ labels, label.isInvocation = false)
    (hrun : s₀.run (.caller 0 (.invoke m false) :: labels) = some t)
    (hcalls : t.callsOf 0 = c :: s₀.callsOf 0) (hc : c.compiling? = some r) :
    t.dispatcher.ledger = (s₀.dispatcher.ledger.count r.method).mark r ∧
      t.dispatcher.metrics = s₀.dispatcher.metrics ∧
      s₀.dispatcher.ledger.isRequested r = false := by
  obtain ⟨u, hstep, hrest⟩ := Option.bind_eq_some_iff.mp hrun
  refine of_approaching hcalls hc (approaching_run ((length_callers_step hstep).trans hsingle)
    (pool_eq_none_run ((run_singleton s₀ _).trans hstep) hpool) hown hinvokes hrest ?_)
  obtain ⟨_, ⟨⟩, hmove⟩ | ⟨hother, -⟩ := step_of_caller 0 hstep
  · rw [Approaching]
    generalize s₀.callsOf 0 = outer, u.callsOf 0 = calls, u.dispatcher = d at hmove ⊢
    cases hmove with
    | invoke =>
      refine .inr ⟨_, rfl, fun p hp => ?_⟩
      obtain rfl := Option.some.inj hp
      exact ⟨rfl, rfl⟩
  · simp [Label.isOf] at hother

end System

/-! ## Main result -/

/-- The ledger before a call whose compile call failed is the one after it, but for the count of the
call. -/
theorem Ledger.unmark_approached {l l' : Ledger α} {r : Request}
    (happroached : l' = (l.count r.method).mark r) (hclear : l.isRequested r = false) :
    l'.unmark r = l.count r.method := by
  rw [happroached, unmark_mark (by rwa [isRequested_count])]

/-- Two dispatchers whose ledgers differ by the count of a call. -/
theorem Dispatcher.of_count {d d' : Dispatcher α} {m : MethodId}
    (h : d'.ledger = d.ledger.count m) (k : MethodId) :
    d'.cache.tierState k = d.cache.tierState k ∧ d'.cache.lookup k = d.cache.lookup k ∧
      d'.counter.get k = d.counter.get k + if k = m then 1 else 0 := by
  refine ⟨?_, congrFun (congrArg Ledger.active h) k, ?_⟩
  · rw [tierState_eq, tierState_eq, h]
    rfl
  · refine (congrFun (congrArg Ledger.counts h) k).trans ?_
    by_cases hk : k = m
    · subst hk
      rw [if_pos rfl]
      exact d.ledger.counts_count_self k
    · rw [if_neg hk, UInt64.add_zero]
      exact d.ledger.counts_count_of_ne hk

/-- The compile calls of an only caller are for different requests, and the bits of all are set. -/
theorem System.of_compilesInProgress {config : TierConfig} {d : Dispatcher α}
    {labels : List (Label α β)} {s : System α β} (hstart : Dispatcher.start config = .ok d)
    (hown : ∀ label ∈ labels, label.isOwn) (hrun : (start d 1).run labels = some s) :
    (compilesInProgress (s.callsOf 0)).Nodup ∧
      ∀ r ∈ compilesInProgress (s.callsOf 0), s.dispatcher.ledger.isRequested r = true := by
  have hinitial : Shaped [] ((start d 1 : System α β).callsOf 0) := by
    rw [callsOf_start]
    exact ⟨by simp, .nil⟩
  have hshaped := shaped_run (reach_start hstart 1) hown hrun hinitial
  refine ⟨nodup_of_inside hshaped.pairwise_compiles, fun r hr => ?_⟩
  obtain ⟨c, hc, hcr⟩ := List.mem_filterMap.mp hr
  exact (of_held (reach_of_run hstart hown hrun) hc (Call.held?_of_compiling? hcr)).2

/-- **A failed compile call leaves no trace but its count.** Take any state that a single caller of
a synchronous dispatcher reaches, with calls nested at any depth and none of them made on a thread
that is unwinding, and in which the compiler is at work for the innermost call.

- When the compiler fails, the call gives its request back, which is counted and reported, returns
  with the failure and is left, and on the way no other step is possible. So it comes neither to the
  compiler again nor to the engine, and the dispatcher is as it was when the compiler failed but for
  the bit of the request, the count of failures and the report.
- If the compiler made no calls, then for every method the tier state and what is published are as
  they were before the call, only the method's own count grew, by one, and no other metric changed.
- When a panic goes on through more calls, each compile call among them gives its own request back,
  no two of these are the same, and each is counted as a failure. What was published stays, and so
  do all other bits, counts and metrics. -/
theorem failed_compile_leaves_no_trace {config : TierConfig} {d : Dispatcher α}
    {labels : List (Label α β)} {s : System α β} {c : Call α β} {outer : List (Call α β)}
    {r : Request} (hstart : Dispatcher.start config = .ok d) (hmode : config.mode = .synchronous)
    (hown : ∀ label ∈ labels, label.isOwn) (hcalm : ∀ label ∈ labels, label.isCalm)
    (hrun : (System.start d 1).run labels = some s) (hcalls : s.callsOf 0 = c :: outer)
    (hc : c.compiling? = some r) :
    (∀ outcome cause, outcome.failure? = some cause →
      ∃ u v w, s.step (.caller 0 (.endCompile outcome)) = some u ∧ u.dispatcher = s.dispatcher ∧
        u.run [.caller 0 .advance, .caller 0 .advance, .caller 0 .advance] = some v ∧
        v.callsOf 0 = { c with stage := .returned (cause.result r) } :: outer ∧
        v.step (.caller 0 .leave) = some w ∧ w.callsOf 0 = outer ∧
        w.dispatcher = s.dispatcher.rollBack r cause ∧
        w.dispatcher.ledger = s.dispatcher.ledger.unmark r ∧
        (∀ before move after x label t, rollbackMoves = before ++ move :: after →
          u.run (before.map (.caller 0)) = some x → label.isOwn = true → x.step label = some t →
          label = .caller 0 move ∨ t = x) ∧
        ∀ past s₀ before, labels = past ++ .caller 0 (.invoke r.method false) :: before →
          (System.start d 1).run past = some s₀ → s₀.callsOf 0 = outer →
          (∀ label ∈ before, label.isInvocation = false) →
          (∀ m, w.dispatcher.cache.tierState m = s₀.dispatcher.cache.tierState m ∧
            w.dispatcher.cache.lookup m = s₀.dispatcher.cache.lookup m ∧
            w.dispatcher.counter.get m =
              s₀.dispatcher.counter.get m + if m = r.method then 1 else 0) ∧
          w.dispatcher.metrics = s₀.dispatcher.metrics.countFailure) ∧
    ∀ payload frames base, outer = frames ++ base →
      let requests := r :: compilesInProgress frames
      ∃ t, s.run (unwinding payload (c :: frames)) = some t ∧ t.callsOf 0 = base ∧
        requests.Nodup ∧ (∀ q ∈ requests, s.dispatcher.ledger.isRequested q = true) ∧
        (∀ q, t.dispatcher.ledger.isRequested q =
          (q ∉ requests && s.dispatcher.ledger.isRequested q)) ∧
        t.dispatcher.cache.lookup = s.dispatcher.cache.lookup ∧
        t.dispatcher.counter = s.dispatcher.counter ∧
        t.dispatcher.metrics = { s.dispatcher.metrics with
          compilationFailures :=
            s.dispatcher.metrics.compilationFailures + UInt64.ofNat requests.length } := by
  have hsingle : s.callers.length = 1 := System.length_callers_run hrun
  have hnone := System.pool_eq_none_start hstart hmode
  have hthread : s.IsCalm := System.isCalm_run hcalm hrun (System.isCalm_start d 1)
  have hmem : c ∈ s.callsOf 0 := hcalls ▸ List.mem_cons_self
  obtain ⟨m, rfl⟩ : ∃ m, c = ⟨m, false, .compiling ⟨r, .compiling⟩⟩ :=
    ⟨c.method, Call.eq_of_compiling? hc (hthread 0 c hmem)⟩
  obtain ⟨d', callers⟩ := s
  obtain ⟨calls, rfl⟩ := List.length_eq_one_iff.mp hsingle
  obtain rfl : calls = _ := hcalls
  refine ⟨fun outcome cause hcause => ?_, ?_⟩
  · refine ⟨_, _, _, System.step_fail d' m r outer hcause, rfl,
      System.run_return d' m r outer cause, rfl, rfl, rfl, rfl, d'.ledger_rollBack r cause, ?_, ?_⟩
    · intro before move after x label t hmoves hx hlabel hstep
      exact System.eq_rollbackMove (System.pool_eq_none_run hrun hnone) hmoves hx hlabel hstep
    · rintro past s₀ before rfl hpast rfl hinvokes
      obtain ⟨s₁, hpast', hrest⟩ := System.exists_of_run_append hrun
      obtain rfl := Option.some.inj (hpast.symm.trans hpast')
      have hown' := (List.forall_mem_cons.mp (List.forall_mem_append.mp hown).2).2
      obtain ⟨happroached, hmetrics, hclear⟩ := System.of_run_invoke
        (System.length_callers_run hpast) (System.pool_eq_none_run hpast hnone) hown' hinvokes hrest
        rfl hc
      refine ⟨Dispatcher.of_count ?_, congrArg Metrics.countFailure hmetrics⟩
      exact (d'.ledger_rollBack r cause).trans (Ledger.unmark_approached happroached hclear)
  · rintro payload frames base rfl requests
    have hhost : ∀ k ∈ frames ++ base, k.isWithHost = true :=
      (System.isStacked_run hrun (System.isStacked_start d 1) 0).outer
    have hrequests : compilesInProgress
        (⟨m, false, .compiling ⟨r, .compiling⟩⟩ :: frames ++ base) =
          requests ++ compilesInProgress base :=
      List.filterMap_append
    obtain ⟨hnodup, hmarked⟩ : (requests ++ compilesInProgress base).Nodup ∧
        ∀ q ∈ requests ++ compilesInProgress base, d'.ledger.isRequested q = true :=
      hrequests ▸ System.of_compilesInProgress hstart hown hrun
    refine ⟨_, System.run_unwinding d' payload (_ :: frames) base ?_ ?_, rfl,
      (List.nodup_append.mp hnodup).1, (List.forall_mem_append.mp hmarked).1,
      d'.isRequested_unwind payload requests, d'.lookup_unwind payload requests,
      d'.counter_unwind payload requests, d'.metrics_unwind payload requests⟩
    · exact List.forall_mem_cons.mpr ⟨rfl, (List.forall_mem_append.mp hhost).1⟩
    · exact (List.forall_mem_append.mp (hthread 0)).1

/-- A call comes to the compiler. -/
def toCompiler (m : MethodId) : List (Label Nat Nat) :=
  .caller 0 (.invoke m false) :: List.replicate 7 (.caller 0 .advance) ++ [.caller 0 .beginCompile]

theorem failed_compile_leaves_no_trace_nested :
    let d : Dispatcher Nat := .ofConfig (.withThresholds 1 5)
    let outer : Request := ⟨⟨0⟩, .l1⟩
    let inner : Request := ⟨⟨1⟩, .l1⟩
    ∃ s₀ s : System Nat Nat, (System.start d 1).run (toCompiler ⟨0⟩) = some s₀ ∧
      (System.start d 1).run (toCompiler ⟨0⟩ ++ toCompiler ⟨1⟩) = some s ∧
      (∃ u v w, s.step (.caller 0 (.endCompile (.error "no registers"))) = some u ∧
        u.run (List.replicate 3 (.caller 0 .advance)) = some v ∧
        v.step (.caller 0 .leave) = some w ∧ w.callsOf 0 = s₀.callsOf 0 ∧
        w.dispatcher.ledger = s.dispatcher.ledger.unmark inner ∧
        (∀ m, w.dispatcher.cache.tierState m = s₀.dispatcher.cache.tierState m) ∧
        w.dispatcher.counter.get ⟨1⟩ = s₀.dispatcher.counter.get ⟨1⟩ + 1 ∧
        w.dispatcher.metrics = s₀.dispatcher.metrics.countFailure) ∧
      ∃ t, s.run (unwinding .other (s.callsOf 0)) = some t ∧ t.callsOf 0 = [] ∧
        s.dispatcher.ledger.isRequested outer = true ∧
        t.dispatcher.ledger.isRequested outer = false ∧
        t.dispatcher.ledger.isRequested inner = false ∧
        t.dispatcher.metrics.compilationFailures =
          s.dispatcher.metrics.compilationFailures + 2 := by
  intro d outer inner
  have hstart : Dispatcher.start (.withThresholds 1 5) = .ok d := rfl
  have hruns : ((System.start (β := Nat) d 1).run (toCompiler ⟨0⟩)).any fun s₀ =>
      s₀.callsOf 0 = [⟨⟨0⟩, false, .compiling ⟨outer, .compiling⟩⟩] &&
        (s₀.run (toCompiler ⟨1⟩)).any fun s =>
          s.callsOf 0 = [⟨⟨1⟩, false, .compiling ⟨inner, .compiling⟩⟩,
            ⟨⟨0⟩, false, .compiling ⟨outer, .compiling⟩⟩] := by
    decide +kernel
  obtain ⟨s₀, hpast, hs₀⟩ := (Option.any_eq_true _ _).mp hruns
  rw [Bool.and_eq_true, decide_eq_true_eq] at hs₀
  obtain ⟨hcalls₀, hruns'⟩ := hs₀
  obtain ⟨s, hrest, hs⟩ := (Option.any_eq_true _ _).mp hruns'
  have hcalls := of_decide_eq_true hs
  have hrun : (System.start (β := Nat) d 1).run (toCompiler ⟨0⟩ ++ toCompiler ⟨1⟩) = some s := by
    rw [System.run_append, hpast, Option.bind_some, hrest]
  obtain ⟨hfails, hpanics⟩ := failed_compile_leaves_no_trace hstart rfl (by decide) (by decide)
    hrun hcalls rfl
  refine ⟨s₀, s, hpast, hrun, ?_, ?_⟩
  · obtain ⟨u, v, w, hfail, -, hreturn, -, hleave, hcallsw, -, hledger, -, hbefore⟩ :=
      hfails (.error "no registers") (.error "no registers") rfl
    obtain ⟨hstates, hmetrics⟩ := hbefore (toCompiler ⟨0⟩) s₀ _ rfl hpast hcalls₀ (by decide)
    exact ⟨u, v, w, hfail, hreturn, hleave, hcallsw.trans hcalls₀.symm, hledger,
      fun m => (hstates m).1, (hstates ⟨1⟩).2.2, hmetrics⟩
  · obtain ⟨t, hunwinds, hcallst, -, hrequested, hreleased, -, -, hmetrics⟩ :=
      hpanics .other _ [] (List.append_nil _).symm
    refine ⟨t, hcalls ▸ hunwinds, hcallst, hrequested outer (by decide), ?_, ?_, ?_⟩
    · exact (hreleased outer).trans rfl
    · exact (hreleased inner).trans rfl
    · rw [hmetrics]
      rfl

end TieredDispatch

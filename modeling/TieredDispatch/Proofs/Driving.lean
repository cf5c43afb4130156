import TieredDispatch.Dispatch.Session
import TieredDispatch.Proofs.Ledger
import TieredDispatch.Proofs.Meter

/-!
# Steps between questions to the host

Between two questions to its host a session only takes steps of the dispatcher, on a job
(`CompileJob.Goes`) or on a call (`Call.Goes`). This file says how far these steps go. Of the
dispatcher it keeps track of what it **stands** at: its ledger, its metrics and its pool.

* `CompileJob.goes_conclude` — from the compiler's answer to the end of a job.
* `Call.goes_arrive_of_none`, `Call.goes_arrive_of_some` — from a call's arrival to the lookup, or
  to a request that was granted.
* `Call.goes_inline` — from a granted request to the compiler.
* `Call.goes_selecting` — from the lookup to the engine.
-/

namespace TieredDispatch

variable {σ α β γ : Type}

/-! ## What a dispatcher stands at -/

/-- The ledger, the metrics and the pool of a dispatcher. -/
structure Dispatcher.Stands (d : Dispatcher α) (l : Ledger α) (metrics : Metrics)
    (pool : Option (Pool (CompileJob α))) : Prop where
  ledger : d.ledger = l
  metrics : d.metrics = metrics
  pool : d.pool = pool

section Standing

variable {d : Dispatcher α} {l : Ledger α} {metrics : Metrics}
  {pool : Option (Pool (CompileJob α))}

theorem CompileJob.stands_advance (job : CompileJob α) (unwinding : Bool)
    (h : d.Stands l metrics pool) :
    (job.advance unwinding d).2.Stands (job.milestone?.elim l (·.ledger l))
      (job.meter?.elim metrics metrics.bump) pool where
  ledger := by rw [job.ledger_advance, h.ledger]
  metrics := by rw [job.metrics_advance, h.metrics]
  pool := by rw [job.pool_advance, h.pool]

theorem Call.stands_advance (c : Call α β) (h : d.Stands l metrics pool) :
    (c.advance d).2.Stands ((c.milestone? d).elim l (·.ledger l))
      (c.meter?.elim metrics metrics.bump) (c.poolAfter pool) where
  ledger := by rw [c.ledger_advance, h.ledger]
  metrics := by rw [c.metrics_advance, h.metrics]
  pool := by
    obtain ⟨_, _, hd⟩ := c.advance_snd d
    rw [hd, h.pool]

end Standing

/-! ## Jobs -/

namespace Ledger

/-- The ledger when a job is done: an artifact is published, and a request without one is given
back. -/
def conclude (l : Ledger α) (r : Request) : Outcome α → Ledger α
  | .value artifact => (l.mark r).place r artifact
  | .error _ | .panic _ => l.unmark r

/-- Whether an artifact for the request would come after one of a higher tier. -/
def refuses (l : Ledger α) (r : Request) : Bool :=
  (l.active r.method).any (r.tier < ·.tier)

/-- The meters that a job moves on when the compiler has answered. -/
def bumps (l : Ledger α) (r : Request) : Outcome α → List Meter
  | .value _ => .compilations r.tier :: if l.refuses r then [.superseded] else []
  | .error _ | .panic _ => [.failures]

end Ledger

/-- The dispatcher takes some steps of a job. -/
inductive CompileJob.Goes : CompileJob α → Dispatcher α → CompileJob α → Dispatcher α → Prop
  | here (job : CompileJob α) (d : Dispatcher α) : Goes job d job d
  | step {job job' : CompileJob α} {d d' : Dispatcher α} (hturn : job.turn = .dispatcher)
      (hrest : Goes (job.advance false d).1 (job.advance false d).2 job' d') : Goes job d job' d'

namespace CompileJob

variable {d : Dispatcher α} {l : Ledger α} {metrics : Metrics}
  {pool : Option (Pool (CompileJob α))}

/-- What becomes of an artifact that is offered to the cache. -/
theorem advance_recorded (r : Request) (artifact : α) (h : d.Stands l metrics pool) :
    (advance ⟨r, .recorded artifact⟩ false d).1 =
      ⟨r, if l.refuses r then .superseded else .done none⟩ := by
  have htaken : (d.cache.place r.method ⟨r.tier, artifact⟩).1 = !l.refuses r := by
    rw [← h.ledger]
    exact d.cache.place_fst r.method ⟨r.tier, artifact⟩
  simp only [advance, htaken]
  cases l.refuses r <;> rfl

/-- An artifact is taken, or counted as superseded. -/
theorem goes_offered (r : Request) (artifact : α) (h : d.Stands l metrics pool) :
    ∃ d', Goes ⟨r, .recorded artifact⟩ d ⟨r, .done none⟩ d' ∧
      d'.Stands (l.place r artifact)
        ((if l.refuses r then [.superseded] else []).foldl Metrics.bump metrics) pool := by
  have hoffer := advance_recorded r artifact h
  have hplaced := stands_advance ⟨r, .recorded artifact⟩ false h
  cases hrefuses : l.refuses r with
  | true =>
    rw [hrefuses] at hoffer
    refine ⟨_, .step rfl ?_, stands_advance ⟨r, .superseded⟩ false hplaced⟩
    rw [hoffer]
    exact .step rfl (.here _ _)
  | false =>
    rw [hrefuses] at hoffer
    refine ⟨_, .step rfl ?_, hplaced⟩
    rw [hoffer]
    exact .here _ _

/-- Publishing an artifact. -/
theorem goes_compiled (r : Request) (artifact : α) (h : d.Stands l metrics pool) :
    ∃ d', Goes ⟨r, .compiled artifact⟩ d ⟨r, .done none⟩ d' ∧
      d'.Stands ((l.mark r).place r artifact)
        ((l.bumps r (.value artifact)).foldl Metrics.bump metrics) pool := by
  have hcounted := stands_advance ⟨r, .compiled artifact⟩ false h
  have hrecorded := stands_advance ⟨r, .counted artifact⟩ false hcounted
  obtain ⟨d', hgoes, hstands⟩ := goes_offered r artifact hrecorded
  exact ⟨d', .step rfl (.step rfl hgoes), hstands⟩

/-- Giving back a request. -/
theorem goes_failed (r : Request) (cause : CompileFailure) (h : d.Stands l metrics pool) :
    ∃ d', Goes ⟨r, .failed cause⟩ d ⟨r, .done (some cause)⟩ d' ∧
      d'.Stands (l.unmark r) (metrics.bump .failures) pool := by
  have h₁ := stands_advance ⟨r, .failed cause⟩ false h
  have h₂ := stands_advance ⟨r, .released cause⟩ false h₁
  refine ⟨_, .step rfl (.step ?_ ?_), h₂⟩
  · cases cause <;> rfl
  · cases cause with
    | error reason => exact .here _ _
    | panic payload => exact .here _ _

/-- From the compiler's answer to the end of a job. -/
theorem goes_conclude (r : Request) (outcome : Outcome α) (h : d.Stands l metrics pool) :
    ∃ d', Goes ((hold r).begin.conclude outcome) d ⟨r, .done outcome.failure?⟩ d' ∧
      d'.Stands (l.conclude r outcome) ((l.bumps r outcome).foldl Metrics.bump metrics) pool := by
  cases outcome with
  | value artifact => exact goes_compiled r artifact h
  | error reason => exact goes_failed r (.error reason) h
  | panic payload => exact goes_failed r (.panic payload) h

end CompileJob

/-! ## Calls -/

/-- The tier that the next call of a method asks for. -/
def Ledger.demand? (l : Ledger α) (m : MethodId) : Option Tier :=
  (l.policy.decide (saturatingAdd (l.counts m) 1) (l.requested m).l1 (l.requested m).l2).tier

/-- What a call without an artifact returns. -/
def CompileFailure.result (r : Request) : CompileFailure → CallResult β
  | error reason => .failed (.compilationFailed r.method r.tier reason)
  | panic payload => .panicked payload

/-- The dispatcher takes some steps of a call. -/
inductive Call.Goes : Call α β → Dispatcher α → Call α β → Dispatcher α → Prop
  | here (c : Call α β) (d : Dispatcher α) : Goes c d c d
  | step {c c' : Call α β} {d d' : Dispatcher α} (hturn : c.turn = .dispatcher)
      (hrest : Goes (c.advance d).1 (c.advance d).2 c' d') : Goes c d c' d'

namespace Call

variable {d d' d'' : Dispatcher α} {l : Ledger α} {metrics : Metrics}
  {pool : Option (Pool (CompileJob α))} {m : MethodId} {tier : Tier}

theorem Goes.trans {c c' c'' : Call α β} (h : Goes c d c' d') (h' : Goes c' d' c'' d'') :
    Goes c d c'' d'' := by
  induction h with
  | here => exact h'
  | step hturn hrest ih => exact .step hturn (ih h')

/-- A call that is not counted yet has the count that comes next. -/
theorem goes_counted (m : MethodId) (h : d.Stands l metrics pool) :
    ∃ d', Goes (.arrive m false : Call α β) d
        ⟨m, false, .counted (saturatingAdd (l.counts m) 1)⟩ d' ∧
      d'.Stands (l.count m) metrics pool := by
  have hseen : ∀ {d : Dispatcher α}, d.Stands l metrics pool →
      ∃ d', Goes (⟨m, false, .seen⟩ : Call α β) d
          ⟨m, false, .counted (saturatingAdd (l.counts m) 1)⟩ d' ∧
        d'.Stands (l.count m) metrics pool := by
    intro d h
    refine ⟨_, .step rfl ?_, stands_advance (⟨m, false, .seen⟩ : Call α β) h⟩
    rw [← h.ledger]
    exact .here _ _
  have h₁ := stands_advance (arrive m false : Call α β) h
  by_cases hprobe : d.counter.probe m = true
  · obtain ⟨d', hgoes, hstands⟩ := hseen h₁
    have hnext : (advance (.arrive m false) d).1 = (⟨m, false, .seen⟩ : Call α β) :=
      congrArg Prod.fst (if_pos hprobe)
    exact ⟨d', .step rfl (hnext ▸ hgoes), hstands⟩
  · obtain ⟨d', hgoes, hstands⟩ := hseen (stands_advance (⟨m, false, .unseen⟩ : Call α β) h₁)
    have hnext : (advance (.arrive m false) d).1 = (⟨m, false, .unseen⟩ : Call α β) :=
      congrArg Prod.fst (if_neg hprobe)
    exact ⟨d', .step rfl (hnext ▸ .step rfl hgoes), hstands⟩

/-- A call that has read the requested tiers asks for what the policy says. -/
theorem advance_inspecting (m : MethodId) (count : UInt64) {requested : Option RequestSet}
    (hread : requested.getD {} = l.requested m) (h : d.Stands l metrics pool) :
    (advance (⟨m, false, .inspecting count requested⟩ : Call α β) d).1 =
      ⟨m, false,
        match (l.policy.decide count (l.requested m).l1 (l.requested m).l2).tier with
        | some tier => .claiming tier count
        | none => .selecting⟩ := by
  have hpolicy : d.policy = l.policy := congrArg Ledger.policy h.ledger
  simp only [advance, TierState.l1Requested_ofEntry, TierState.l2Requested_ofEntry, hread, hpolicy]
  cases (l.policy.decide count (l.requested m).l1 (l.requested m).l2).tier with
  | some tier => rfl
  | none => rfl

/-- A call that has its count goes on to ask for something, or to the lookup. -/
theorem goes_decided (m : MethodId) (count : UInt64) (h : d.Stands l metrics pool) :
    ∃ d', Goes (⟨m, false, .counted count⟩ : Call α β) d
        ⟨m, false,
          match (l.policy.decide count (l.requested m).l1 (l.requested m).l2).tier with
          | some tier => .claiming tier count
          | none => .selecting⟩ d' ∧
      d'.Stands l metrics pool := by
  have hread : (d.cache.requested? m).getD {} = l.requested m :=
    (d.cache.requested?_getD m).trans (congrArg (fun ledger => ledger.requested m) h.ledger)
  have h₁ := stands_advance (⟨m, false, .counted count⟩ : Call α β) h
  have h₂ := stands_advance
    (⟨m, false, .inspecting count (d.cache.requested? m)⟩ : Call α β) h₁
  refine ⟨_, .step rfl ?_, h₂⟩
  show Goes ⟨m, false, .inspecting count (d.cache.requested? m)⟩ d _ _
  rw [← advance_inspecting m count hread h]
  exact .step rfl (.here _ _)

/-- A call that asks for nothing comes to the lookup. -/
theorem goes_arrive_of_none (hdemand : l.demand? m = none) (h : d.Stands l metrics pool) :
    ∃ d', Goes (.arrive m false : Call α β) d ⟨m, false, .selecting⟩ d' ∧
      d'.Stands (l.count m) metrics pool := by
  obtain ⟨d₁, hcounted, h₁⟩ := goes_counted (β := β) m h
  obtain ⟨d₂, hdecided, h₂⟩ := goes_decided (β := β) m (saturatingAdd (l.counts m) 1) h₁
  have hnone : ((l.count m).policy.decide (saturatingAdd (l.counts m) 1)
      ((l.count m).requested m).l1 ((l.count m).requested m).l2).tier = none := hdemand
  rw [hnone] at hdecided
  exact ⟨d₂, hcounted.trans hdecided, h₂⟩

/-- A call that asks for a tier is granted the request. -/
theorem goes_arrive_of_some (hdemand : l.demand? m = some tier) (h : d.Stands l metrics pool) :
    ∃ count d', Goes (.arrive m false : Call α β) d ⟨m, false, .promoting tier count⟩ d' ∧
      d'.Stands ((l.count m).mark ⟨m, tier⟩) metrics pool := by
  obtain ⟨d₁, hcounted, h₁⟩ := goes_counted (β := β) m h
  obtain ⟨d₂, hdecided, h₂⟩ := goes_decided (β := β) m (saturatingAdd (l.counts m) 1) h₁
  have hsome : ((l.count m).policy.decide (saturatingAdd (l.counts m) 1)
      ((l.count m).requested m).l1 ((l.count m).requested m).l2).tier = some tier := hdemand
  rw [hsome] at hdecided
  have hgrants : (d₂.cache.requested m).grants tier = true := by
    change (d₂.ledger.requested m).grants tier = true
    rw [h₂.ledger]
    exact TierPolicy.grants_of_decide hsome
  have h₃ := stands_advance
    (⟨m, false, .claiming tier (saturatingAdd (l.counts m) 1)⟩ : Call α β) h₂
  have hnext : (advance (⟨m, false, .claiming tier (saturatingAdd (l.counts m) 1)⟩ : Call α β)
      d₂).1 = ⟨m, false, .promoting tier (saturatingAdd (l.counts m) 1)⟩ := by
    simp only [advance, CompilationCache.request_fst, hgrants, if_true]
  simp only [milestone?, hgrants, if_true] at h₃
  refine ⟨saturatingAdd (l.counts m) 1, _, hcounted.trans (hdecided.trans (.step rfl ?_)), h₃⟩
  rw [hnext]
  exact .here _ _

/-- Without a pool a granted request is compiled inline. -/
theorem goes_inline (count : UInt64) (h : d.Stands l metrics none) :
    ∃ d', Goes (⟨m, false, .promoting tier count⟩ : Call α β) d
        ⟨m, false, .compiling (.hold ⟨m, tier⟩)⟩ d' ∧
      d'.Stands l metrics none := by
  have hnext : (advance (⟨m, false, .promoting tier count⟩ : Call α β) d).1 =
      ⟨m, false, .compiling (.hold ⟨m, tier⟩)⟩ := by
    simp only [advance, Dispatcher.report, h.pool]
  refine ⟨_, .step rfl ?_, stands_advance (⟨m, false, .promoting tier count⟩ : Call α β) h⟩
  rw [hnext]
  exact .here _ _

/-- From the lookup a call comes to the engine, with what is published. -/
theorem goes_selecting (m : MethodId) (h : d.Stands l metrics pool) :
    ∃ d', Goes (⟨m, false, .selecting⟩ : Call α β) d ⟨m, false, .running (l.active m)⟩ d' ∧
      d'.Stands l (metrics.bump (.ofRun (l.active m))) pool := by
  have h₁ := stands_advance (⟨m, false, .selecting⟩ : Call α β) h
  have h₂ := stands_advance (⟨m, false, .entering (l.active m)⟩ : Call α β) h₁
  refine ⟨_, .step rfl ?_, h₂⟩
  rw [← h.ledger]
  exact .step rfl (.here _ _)

/-- The steps of a job are steps of the call that compiles inline. -/
theorem goes_of_job {job job' : CompileJob α} (h : job.Goes d job' d') :
    Goes (⟨m, false, .compiling job⟩ : Call α β) d ⟨m, false, .compiling job'⟩ d' := by
  induction h with
  | here => exact .here _ _
  | @step job job' d d' hturn hrest ih =>
    refine .step (by simp [turn, hturn]) ?_
    have hnext : advance (⟨m, false, .compiling job⟩ : Call α β) d =
        (⟨m, false, .compiling (job.advance false d).1⟩, (job.advance false d).2) := by
      simp only [advance, hturn]
    rw [hnext]
    exact ih

/-- A call whose job produced an artifact comes to the lookup. -/
theorem goes_done (r : Request) :
    Goes (⟨m, false, .compiling ⟨r, .done none⟩⟩ : Call α β) d ⟨m, false, .selecting⟩ d :=
  .step rfl (.here _ _)

/-- A call whose job failed returns. -/
theorem goes_failed (r : Request) (cause : CompileFailure) :
    Goes (⟨m, false, .compiling ⟨r, .done (some cause)⟩⟩ : Call α β) d
      ⟨m, false, .returned (cause.result r)⟩ d := by
  cases cause with
  | error reason => exact .step rfl (.here _ _)
  | panic payload => exact .step rfl (.here _ _)

end Call

/-! ## Hosts that make no calls -/

/-- How a piece of work ends when no calls are made. -/
def Activity.answer (activity : Activity σ γ) : Outcome γ × σ :=
  activity.conclude activity.state

/-- The compiler and the engine make no calls of their own. -/
structure Collaborators.NeverCalls (co : Collaborators σ α β) : Prop where
  compile : ∀ state r, (co.compile state r).nested = []
  execute : ∀ state artifact, (co.execute state artifact).nested = []
  interpret : ∀ state m, (co.interpret state m).nested = []

theorem Collaborators.NeverCalls.run {co : Collaborators σ α β} (hco : co.NeverCalls) (state : σ)
    (m : MethodId) (found : Option (CompiledMethod α)) : (co.run state m found).nested = [] := by
  cases found with
  | none => exact hco.interpret state m
  | some compiled => exact hco.execute state compiled.artifact

/-! ## Sessions -/

namespace Session

variable {co : Collaborators σ α β} {caller : Option (Caller σ α β)} {s : Session σ α}
  {c c' : Call α β} {job job' : CompileJob α} {d d' : Dispatcher α}

theorem drive_of_dispatcher (h : c.turn = .dispatcher) :
    drive co caller s c =
      drive co caller ⟨(c.advance s.dispatcher).2, s.host⟩ (c.advance s.dispatcher).1 := by
  rw [drive]
  split <;> rename_i hturn <;> rw [h] at hturn <;> cases hturn

theorem drive_of_compiler (h : c.turn = .compiler job) :
    drive co caller s c =
      drive co caller (perform co caller s (co.compile s.host job.request)).2
        (c.beginCompile.concludeCompile
          (perform co caller s (co.compile s.host job.request)).1) := by
  rw [drive]
  split <;> rename_i hturn <;> rw [h] at hturn <;> cases hturn
  rfl

theorem drive_of_engine {found : Option (CompiledMethod α)} (h : c.turn = .engine found) :
    drive co caller s c =
      (Call.runResult c.method found (perform co caller s (co.run s.host c.method found)).1,
        (perform co caller s (co.run s.host c.method found)).2) := by
  rw [drive]
  split <;> rename_i hturn <;> rw [h] at hturn <;> cases hturn
  rfl

theorem drive_of_ended {result : CallResult β} (h : c.turn = .ended result) :
    drive co caller s c = (result, s) := by
  rw [drive]
  split <;> rename_i hturn <;> rw [h] at hturn <;> cases hturn
  rfl

theorem driveJob_of_dispatcher (h : job.turn = .dispatcher) :
    driveJob co caller s job =
      driveJob co caller ⟨(job.advance false s.dispatcher).2, s.host⟩
        (job.advance false s.dispatcher).1 := by
  rw [driveJob]
  split <;> rename_i hturn <;> rw [h] at hturn <;> cases hturn

theorem driveJob_of_compiler (h : job.turn = .compiler) :
    driveJob co caller s job =
      driveJob co caller (perform co caller s (co.compile s.host job.request)).2
        (job.begin.conclude (perform co caller s (co.compile s.host job.request)).1) := by
  rw [driveJob]
  split <;> rename_i hturn <;> rw [h] at hturn <;> cases hturn

theorem driveJob_of_ended {failure : Option CompileFailure} (h : job.turn = .ended failure) :
    driveJob co caller s job = (failure, s) := by
  rw [driveJob]
  split <;> rename_i hturn <;> rw [h] at hturn <;> cases hturn
  rfl

theorem perform_of_nested_nil {activity : Activity σ γ} (h : activity.nested = []) :
    perform co caller s activity = (activity.answer.1, ⟨s.dispatcher, activity.answer.2⟩) := by
  unfold perform
  cases caller with
  | none => rfl
  | some caller =>
    simp only [h, nestedCalls]
    rfl

/-- The steps of the dispatcher are taken as they come. -/
theorem drive_of_goes (h : c.Goes d c' d') (host : σ) :
    drive co caller ⟨d, host⟩ c = drive co caller ⟨d', host⟩ c' := by
  induction h with
  | here => rfl
  | step hturn hrest ih => rw [drive_of_dispatcher hturn, ih]

end Session

end TieredDispatch

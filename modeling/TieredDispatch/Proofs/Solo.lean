import TieredDispatch.Proofs.Driving

/-!
# Calls on their own

A call that compiles inline, for a host that makes no calls of its own, is one step on the ledger
and on the host: it counts, decides, compiles at most once, and runs (`Ledger.call`). The session
takes the same step, whatever it does to the metrics and the log on the way (`endsAs_call`).

A call has two ways to go: it asks for no tier (`ends_of_demand?_none`), or it asks for one and
compiles inline (`ends_inline_of_value`, `ends_inline_of_failure`).
-/

namespace TieredDispatch

variable {σ α β γ : Type}

/-! ## A call as one step -/

namespace Ledger

variable (co : Collaborators σ α β)

/-- The engine's part of a call. -/
def run (l : Ledger α) (host : σ) (m : MethodId) : CallResult β × Ledger α × σ :=
  let (outcome, host) := (co.run host m (l.active m)).answer
  (Call.runResult m (l.active m) outcome, l, host)

/-- A compilation and what follows it. A failed one leaves the ledger as it was. -/
def compile (l : Ledger α) (host : σ) (r : Request) : CallResult β × Ledger α × σ :=
  match (co.compile host r).answer with
  | (.value artifact, host) => ((l.mark r).place r artifact).run co host r.method
  | (.error reason, host) => (.failed (.compilationFailed r.method r.tier reason), l, host)
  | (.panic payload, host) => (.panicked payload, l, host)

/-- A call: it counts, compiles what it asks for, and runs. -/
def call (l : Ledger α) (host : σ) (m : MethodId) : CallResult β × Ledger α × σ :=
  match l.demand? m with
  | some tier => (l.count m).compile co host ⟨m, tier⟩
  | none => (l.count m).run co host m

/-- A request that was granted is kept with its artifact, and given back without one. -/
theorem conclude_mark {l : Ledger α} {r : Request} (hclear : l.isRequested r = false)
    (outcome : Outcome α) :
    (l.mark r).conclude r outcome =
      match outcome with
      | .value artifact => (l.mark r).place r artifact
      | .error _ | .panic _ => l := by
  cases outcome with
  | value artifact =>
    show ((l.mark r).mark r).place r artifact = _
    rw [mark_mark]
  | error reason => exact unmark_mark hclear
  | panic payload => exact unmark_mark hclear

/-- What a call asks for is not requested yet when it is counted. -/
theorem isRequested_of_demand? {l : Ledger α} {m : MethodId} {tier : Tier}
    (hdemand : l.demand? m = some tier) : (l.count m).isRequested ⟨m, tier⟩ = false :=
  isRequested_of_grants (r := ⟨m, tier⟩) (TierPolicy.grants_of_decide hdemand)

end Ledger

namespace Session

/-! ## How a call ends -/

/-- A call of a session ended with a result and left the host in a state, and the dispatcher
standing somewhere. -/
structure Ends (ended : CallResult β × Session σ α) (result : CallResult β) (l : Ledger α)
    (metrics : Metrics) (pool : Option (Pool (CompileJob α))) (host : σ) : Prop where
  result : ended.1 = result
  stands : ended.2.dispatcher.Stands l metrics pool
  host : ended.2.host = host

variable {co : Collaborators σ α β} {caller : Option (Caller σ α β)} {d : Dispatcher α}
  {l : Ledger α} {metrics : Metrics} {pool : Option (Pool (CompileJob α))} {host : σ}
  {m : MethodId} {tier : Tier}

variable (co) in
/-- A call is driven from its arrival on. -/
theorem exists_call_eq_drive (depth : Nat) :
    ∃ caller, ∀ s m, call co depth s m = drive co caller s (.arrive m false) := by
  cases depth with
  | zero => exact ⟨none, fun s m => rfl⟩
  | succ depth => exact ⟨some (callWithin co depth), fun s m => rfl⟩

variable (hco : co.NeverCalls)

include hco

/-- From the lookup on, a call runs what it finds. -/
theorem ends_selecting (h : d.Stands l metrics pool) :
    Ends (drive co caller ⟨d, host⟩ ⟨m, false, .selecting⟩)
      (Call.runResult m (l.active m) (co.run host m (l.active m)).answer.1) l
      (metrics.bump (.ofRun (l.active m))) pool (co.run host m (l.active m)).answer.2 := by
  obtain ⟨d', hgoes, hstands⟩ := Call.goes_selecting (β := β) m h
  rw [drive_of_goes hgoes, drive_of_engine rfl, perform_of_nested_nil (hco.run host m _)]
  exact ⟨rfl, hstands, rfl⟩

/-- The compiler answers, and the job of the call goes on. -/
theorem drive_hold (r : Request) :
    drive co caller ⟨d, host⟩ ⟨m, false, .compiling (.hold r)⟩ =
      drive co caller ⟨d, (co.compile host r).answer.2⟩
        ⟨m, false, .compiling
          ((CompileJob.hold r).begin.conclude (co.compile host r).answer.1)⟩ := by
  rw [drive_of_compiler rfl, perform_of_nested_nil (hco.compile host _)]
  rfl

/-- A call that asks for no tier runs what is published. -/
theorem ends_of_demand?_none (depth : Nat) (hdemand : l.demand? m = none)
    (h : d.Stands l metrics pool) :
    Ends (call co depth ⟨d, host⟩ m)
      (Call.runResult m (l.active m) (co.run host m (l.active m)).answer.1) (l.count m)
      (metrics.bump (.ofRun (l.active m))) pool (co.run host m (l.active m)).answer.2 := by
  obtain ⟨caller, hcaller⟩ := exists_call_eq_drive co depth
  obtain ⟨d', hgoes, hstands⟩ := Call.goes_arrive_of_none (β := β) hdemand h
  rw [hcaller, drive_of_goes hgoes]
  exact ends_selecting hco hstands

/-- A call that compiles inline comes to the end of its job. -/
theorem call_inline (depth : Nat) (hdemand : l.demand? m = some tier)
    (h : d.Stands l metrics none) {outcome : Outcome α} {host' : σ}
    (hanswer : (co.compile host ⟨m, tier⟩).answer = (outcome, host')) :
    ∃ caller d', call co depth ⟨d, host⟩ m =
        drive co caller ⟨d', host'⟩
          ⟨m, false, .compiling ⟨⟨m, tier⟩, .done outcome.failure?⟩⟩ ∧
      d'.Stands (((l.count m).mark ⟨m, tier⟩).conclude ⟨m, tier⟩ outcome)
        ((l.bumps ⟨m, tier⟩ outcome).foldl Metrics.bump metrics) none := by
  obtain ⟨caller, hcaller⟩ := exists_call_eq_drive co depth
  obtain ⟨count, d₁, hgranted, h₁⟩ := Call.goes_arrive_of_some (β := β) hdemand h
  obtain ⟨d₂, hinline, h₂⟩ := Call.goes_inline (β := β) count h₁
  obtain ⟨d₃, hjob, h₃⟩ := CompileJob.goes_conclude ⟨m, tier⟩ outcome h₂
  refine ⟨caller, d₃, ?_, ?_⟩
  · rw [hcaller, drive_of_goes (hgranted.trans hinline), drive_hold hco, hanswer,
      drive_of_goes (Call.goes_of_job hjob)]
  · cases outcome with
    | value artifact => exact h₃
    | error reason => exact h₃
    | panic payload => exact h₃

/-- A call that compiles inline runs what is published then. -/
theorem ends_inline_of_value (depth : Nat) (hdemand : l.demand? m = some tier)
    (h : d.Stands l metrics none) {artifact : α} {host' : σ}
    (hanswer : (co.compile host ⟨m, tier⟩).answer = (.value artifact, host')) {l' : Ledger α}
    (hl' : ((l.count m).mark ⟨m, tier⟩).conclude ⟨m, tier⟩ (.value artifact) = l') :
    Ends (call co depth ⟨d, host⟩ m)
      (Call.runResult m (l'.active m) (co.run host' m (l'.active m)).answer.1) l'
      (((l.bumps ⟨m, tier⟩ (.value artifact)).foldl Metrics.bump metrics).bump
        (.ofRun (l'.active m)))
      none (co.run host' m (l'.active m)).answer.2 := by
  obtain ⟨caller, d', hcall, hstands⟩ := call_inline hco depth hdemand h hanswer
  rw [hl'] at hstands
  rw [hcall]
  show Ends (drive co caller ⟨d', host'⟩ ⟨m, false, .compiling ⟨⟨m, tier⟩, .done none⟩⟩) ..
  rw [drive_of_goes (Call.goes_done _)]
  exact ends_selecting hco hstands

/-- A call that compiles inline without success reports that. -/
theorem ends_inline_of_failure (depth : Nat) (hdemand : l.demand? m = some tier)
    (h : d.Stands l metrics none) {outcome : Outcome α} {cause : CompileFailure} {host' : σ}
    (hanswer : (co.compile host ⟨m, tier⟩).answer = (outcome, host'))
    (hcause : outcome.failure? = some cause) :
    Ends (call co depth ⟨d, host⟩ m) (cause.result ⟨m, tier⟩)
      (((l.count m).mark ⟨m, tier⟩).conclude ⟨m, tier⟩ outcome)
      ((l.bumps ⟨m, tier⟩ outcome).foldl Metrics.bump metrics) none host' := by
  obtain ⟨caller, d', hcall, hstands⟩ := call_inline hco depth hdemand h hanswer
  rw [hcall, hcause, drive_of_goes (Call.goes_failed _ cause), drive_of_ended rfl]
  exact ⟨rfl, hstands, rfl⟩

end Session

/-! ## Main result -/

/-- A session ends a call with a result, a ledger and a host, and without a pool. -/
structure Session.EndsAs (ended : CallResult β × Session σ α)
    (step : CallResult β × Ledger α × σ) : Prop where
  result : ended.1 = step.1
  ledger : ended.2.dispatcher.ledger = step.2.1
  host : ended.2.host = step.2.2
  pool : ended.2.dispatcher.pool = none

theorem Session.Ends.endsAs {ended : CallResult β × Session σ α} {result : CallResult β}
    {l : Ledger α} {metrics : Metrics} {host : σ} (h : Ends ended result l metrics none host) :
    EndsAs ended (result, l, host) :=
  ⟨h.result, h.stands.ledger, h.host, h.stands.pool⟩

/-- **A call on its own is one step.** Without a pool, and with a host that makes no calls of its
own, a call does to the ledger and to the host what `Ledger.call` says. -/
theorem Session.endsAs_call {co : Collaborators σ α β} (hco : co.NeverCalls) (depth : Nat)
    {s : Session σ α} (hpool : s.dispatcher.pool = none) (m : MethodId) :
    EndsAs (call co depth s m) (s.dispatcher.ledger.call co s.host m) := by
  obtain ⟨d, host⟩ := s
  have h : d.Stands d.ledger d.metrics none := ⟨rfl, rfl, hpool⟩
  show EndsAs _ (d.ledger.call co host m)
  unfold Ledger.call
  cases hdemand : d.ledger.demand? m with
  | none => exact (ends_of_demand?_none hco depth hdemand h).endsAs
  | some tier =>
    have hconclude := Ledger.conclude_mark (Ledger.isRequested_of_demand? hdemand)
    unfold Ledger.compile
    rcases hanswer : (co.compile host ⟨m, tier⟩).answer with ⟨outcome, host'⟩
    simp only [hanswer]
    cases outcome with
    | value artifact =>
      exact (ends_inline_of_value hco depth hdemand h hanswer (hconclude _)).endsAs
    | error reason =>
      have hends := (ends_inline_of_failure hco depth hdemand h hanswer rfl).endsAs
      rwa [hconclude] at hends
    | panic payload =>
      have hends := (ends_inline_of_failure hco depth hdemand h hanswer rfl).endsAs
      rwa [hconclude] at hends

end TieredDispatch

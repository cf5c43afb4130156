import TieredDispatch.Proofs.Tiering

/-!
# What the host is asked

The dispatcher **asks** its host to compile a request, or to run what a call of a method found. A
host that is asked for one thing after the other goes from state to state (`Collaborators.after`)
and gives its answers (`Collaborators.answers`); a recording host has just these in its log.

`Ledger.Asks` says what a call asks for, and what it returns and leaves by the answers it gets. A
call in synchronous mode does one of these things (`Session.call_of_asks`).
-/

namespace TieredDispatch

variable {σ α β : Type}

/-! ## Asks and answers -/

/-- Something that the host is asked to do. -/
inductive Ask (α : Type)
  | compile (r : Request)
  /-- The engine is to run what a call of the method found: an artifact, or none. -/
  | run (m : MethodId) (found : Option (CompiledMethod α))

namespace Ask

/-- The method on whose behalf the host is asked. -/
def method : Ask α → MethodId
  | compile r => r.method
  | run m _ => m

/-- The request that is to be compiled. -/
def request? : Ask α → Option Request
  | compile r => some r
  | run _ _ => none

end Ask

namespace Collaborators

variable (co : Collaborators σ α β)

/-- What the host does when asked, and its state then. -/
def answer (host : σ) : Ask α → HostCall α β × σ
  | .compile r => (.compile r (co.compile host r).answer.1, (co.compile host r).answer.2)
  | .run m found =>
    (engineCall m found (co.run host m found).answer.1, (co.run host m found).answer.2)

/-- The state of the host when it was asked for one thing after the other. -/
def after (host : σ) (asks : List (Ask α)) : σ :=
  asks.foldl (fun state ask => (co.answer state ask).2) host

/-- What the host did when it was asked for one thing after the other. -/
def answers (host : σ) : List (Ask α) → List (HostCall α β)
  | [] => []
  | ask :: asks => (co.answer host ask).1 :: answers (co.answer host ask).2 asks

/-- The state of a recording host, from an empty log on. -/
def recorded (host : σ) (asks : List (Ask α)) : σ × List (HostCall α β) :=
  (co.after host asks, co.answers host asks)

/-- The compiler's answer after the given asks. -/
def compiled (host : σ) (asks : List (Ask α)) (r : Request) : Outcome α :=
  (co.compile (co.after host asks) r).answer.1

/-- The engine's answer after the given asks. -/
def ran (host : σ) (asks : List (Ask α)) (m : MethodId) (found : Option (CompiledMethod α)) :
    Outcome β :=
  (co.run (co.after host asks) m found).answer.1

variable (host : σ) (asks : List (Ask α))

theorem after_append (more : List (Ask α)) :
    co.after host (asks ++ more) = co.after (co.after host asks) more :=
  List.foldl_append ..

theorem answers_append (more : List (Ask α)) :
    co.answers host (asks ++ more) =
      co.answers host asks ++ co.answers (co.after host asks) more := by
  induction asks generalizing host with
  | nil => rfl
  | cons ask asks ih => exact congrArg (_ :: ·) (ih _)

theorem answers_compile (r : Request) :
    co.answers host (asks ++ [.compile r]) =
      co.answers host asks ++ [.compile r (co.compiled host asks r)] :=
  co.answers_append host asks [.compile r]

theorem answers_run (m : MethodId) (found : Option (CompiledMethod α)) :
    co.answers host (asks ++ [.run m found]) =
      co.answers host asks ++ [engineCall m found (co.ran host asks m found)] :=
  co.answers_append host asks [.run m found]

/-- A recording host compiles. -/
theorem answer_recording_compile (r : Request) :
    (co.recording.compile (co.recorded host asks) r).answer =
      (co.compiled host asks r, co.recorded host (asks ++ [.compile r])) := by
  rw [recorded, recorded, after_append, answers_compile]
  rfl

/-- A recording host runs what a call found. -/
theorem answer_recording_run (m : MethodId) (found : Option (CompiledMethod α)) :
    (co.recording.run (co.recorded host asks) m found).answer =
      (co.ran host asks m found, co.recorded host (asks ++ [.run m found])) := by
  rw [recorded, recorded, after_append, answers_run]
  cases found with
  | none => rfl
  | some compiled => rfl

end Collaborators

/-! ## What a call asks for -/

/-- What a call in synchronous mode asks for, what it returns and the ledger it leaves, when the
host was asked for other things before. -/
inductive Ledger.Asks (co : Collaborators σ α β) (host : σ) (asks : List (Ask α)) (l : Ledger α)
    (m : MethodId) : List (Ask α) → CallResult β → Ledger α → Prop
  | settled (hdemand : l.demand? m = none) :
      Asks co host asks l m [.run m (l.active m)]
        (Call.runResult m (l.active m) (co.ran host asks m (l.active m))) (l.count m)
  | failed {tier : Tier} {cause : CompileFailure} (hdemand : l.demand? m = some tier)
      (hcause : (co.compiled host asks ⟨m, tier⟩).failure? = some cause) :
      Asks co host asks l m [.compile ⟨m, tier⟩] (cause.result ⟨m, tier⟩) (l.count m)
  | compiled {tier : Tier} {artifact : α} {l' : Ledger α} (hdemand : l.demand? m = some tier)
      (hvalue : co.compiled host asks ⟨m, tier⟩ = .value artifact)
      (hpublished : l' = ((l.count m).mark ⟨m, tier⟩).place ⟨m, tier⟩ artifact) :
      Asks co host asks l m [.compile ⟨m, tier⟩, .run m (l'.active m)]
        (Call.runResult m (l'.active m)
          (co.ran host (asks ++ [.compile ⟨m, tier⟩]) m (l'.active m))) l'

/-- Without an artifact the ledger is left as it was before the request. -/
theorem Ledger.conclude_mark_of_failure? {l : Ledger α} {r : Request}
    (hclear : l.isRequested r = false) {outcome : Outcome α} {cause : CompileFailure}
    (hcause : outcome.failure? = some cause) : (l.mark r).conclude r outcome = l := by
  rw [conclude_mark hclear]
  cases outcome with
  | value _ => cases hcause
  | error _ | panic _ => rfl

theorem Ledger.exists_asks (co : Collaborators σ α β) (host : σ) (asks : List (Ask α))
    (l : Ledger α) (m : MethodId) :
    ∃ (more : List (Ask α)) (result : CallResult β) (l' : Ledger α),
      l.Asks co host asks m more result l' := by
  cases hdemand : l.demand? m with
  | none => exact ⟨_, _, _, .settled hdemand⟩
  | some tier =>
    cases hcause : (co.compiled host asks ⟨m, tier⟩).failure? with
    | some cause => exact ⟨_, _, _, .failed hdemand hcause⟩
    | none =>
      obtain ⟨artifact, hvalue⟩ := Outcome.value_of_failure?_eq_none hcause
      exact ⟨_, _, _, .compiled hdemand hvalue rfl⟩

/-! ## Calls with a recording host -/

namespace Session

variable {co : Collaborators σ α β} {host : σ} {asks : List (Ask α)} {l : Ledger α}
  {metrics : Metrics} {pool : Option (Pool (CompileJob α))} {m : MethodId} {tier : Tier}
  {s : Session (σ × List (HostCall α β)) α}

variable (hco : co.NeverCalls) (depth : Nat) (hhost : s.host = co.recorded host asks)

include hco hhost

/-- A call that requests nothing, in either mode. -/
theorem recorded_settled (h : s.dispatcher.Stands l metrics pool) (hdemand : l.demand? m = none) :
    Ends (call co.recording depth s m)
      (Call.runResult m (l.active m) (co.ran host asks m (l.active m))) (l.count m)
      (metrics.bump (.ofRun (l.active m))) pool
      (co.recorded host (asks ++ [.run m (l.active m)])) := by
  obtain ⟨d, state⟩ := s
  obtain rfl : state = co.recorded host asks := hhost
  have hends : Ends (call co.recording depth ⟨d, co.recorded host asks⟩ m) .. :=
    ends_of_demand?_none hco.recording depth hdemand h
  rw [co.answer_recording_run] at hends
  exact hends

/-- A call that compiles inline without success. -/
theorem recorded_failed (h : s.dispatcher.Stands l metrics none)
    (hdemand : l.demand? m = some tier) {outcome : Outcome α} {cause : CompileFailure}
    (houtcome : co.compiled host asks ⟨m, tier⟩ = outcome)
    (hcause : outcome.failure? = some cause) :
    Ends (call co.recording depth s m) (cause.result ⟨m, tier⟩) (l.count m)
      ((l.bumps ⟨m, tier⟩ outcome).foldl Metrics.bump metrics) none
      (co.recorded host (asks ++ [.compile ⟨m, tier⟩])) := by
  obtain ⟨d, state⟩ := s
  obtain rfl : state = co.recorded host asks := hhost
  have hanswer := co.answer_recording_compile host asks ⟨m, tier⟩
  rw [houtcome] at hanswer
  have hends := ends_inline_of_failure hco.recording depth hdemand h hanswer hcause
  rw [Ledger.conclude_mark_of_failure? (Ledger.isRequested_of_demand? hdemand) hcause] at hends
  exact hends

/-- A call that compiles inline, and runs what is published then. -/
theorem recorded_compiled (h : s.dispatcher.Stands l metrics none)
    (hdemand : l.demand? m = some tier) {artifact : α}
    (hvalue : co.compiled host asks ⟨m, tier⟩ = .value artifact) {l' : Ledger α}
    (hl' : l' = ((l.count m).mark ⟨m, tier⟩).place ⟨m, tier⟩ artifact) :
    Ends (call co.recording depth s m)
      (Call.runResult m (l'.active m)
        (co.ran host (asks ++ [.compile ⟨m, tier⟩]) m (l'.active m))) l'
      (((l.bumps ⟨m, tier⟩ (.value artifact)).foldl Metrics.bump metrics).bump
        (.ofRun (l'.active m))) none
      (co.recorded host (asks ++ [.compile ⟨m, tier⟩, .run m (l'.active m)])) := by
  obtain ⟨d, state⟩ := s
  obtain rfl : state = co.recorded host asks := hhost
  have hanswer := co.answer_recording_compile host asks ⟨m, tier⟩
  rw [hvalue] at hanswer
  have hconclude := Ledger.conclude_mark (Ledger.isRequested_of_demand? hdemand) (.value artifact)
  have hends := ends_inline_of_value hco.recording depth hdemand h hanswer
    (hconclude.trans hl'.symm)
  rw [co.answer_recording_run, List.append_assoc] at hends
  exact hends

/-- A call in synchronous mode asks for what it should. -/
theorem call_of_asks (hpool : s.dispatcher.pool = none) (hledger : s.dispatcher.ledger = l)
    {more : List (Ask α)} {result : CallResult β} {l' : Ledger α}
    (hasks : l.Asks co host asks m more result l') :
    ∃ metrics, Ends (call co.recording depth s m) result l' metrics none
      (co.recorded host (asks ++ more)) := by
  have h : s.dispatcher.Stands l s.dispatcher.metrics none := ⟨hledger, rfl, hpool⟩
  cases hasks with
  | settled hdemand => exact ⟨_, recorded_settled hco depth hhost h hdemand⟩
  | failed hdemand hcause => exact ⟨_, recorded_failed hco depth hhost h hdemand rfl hcause⟩
  | compiled hdemand hvalue hpublished =>
    exact ⟨_, recorded_compiled hco depth hhost h hdemand hvalue hpublished⟩

end Session

end TieredDispatch

import TieredDispatch.Proofs.Work

/-!
# Reports

The log of a dispatcher only grows, and each step of a call or of a job adds what it **reports**
(`Call.log_advance`). All other steps are the host's, and of these only the end of a job that
panicked is reported.
-/

namespace TieredDispatch

variable {α β : Type}

/-! ## What a step reports -/

/-- The event tells how a compilation of the request ended. -/
def Event.isEnd (r : Request) : Event → Bool
  | compiled q | superseded q | compilationFailed q _ | compilerPanicked q => q = r
  | invertedThresholds _ _ | promoting _ _ | alreadyRequested _ _ | poolUnavailable _
  | requestPanicked _ _ | workerPanicked _ _ => false

/-- The event that the next step of a job reports. -/
def CompileJob.report? (job : CompileJob α) (unwinding : Bool) (d : Dispatcher α) : Option Event :=
  match job.stage with
  | .recorded artifact =>
    if (d.cache.place job.request.method ⟨job.request.tier, artifact⟩).1 then
      some (.compiled job.request)
    else none
  | .superseded => some (.superseded job.request)
  | .released (.panic _) => some (.compilerPanicked job.request)
  | .released (.error reason) =>
    if unwinding then some (.compilerPanicked job.request)
    else some (.compilationFailed job.request reason)
  | .charged reason => some (.compilationFailed job.request reason)
  | _ => none

/-- The events that the next step of a call reports, newest first. -/
def Call.reports (c : Call α β) (d : Dispatcher α) : List Event :=
  match c.stage with
  | .denied tier count => [.alreadyRequested ⟨c.method, tier⟩ count]
  | .promoting tier count =>
    let unavailable := d.pool.any fun pool => (pool.send ⟨c.method, tier⟩).isNone
    (if unavailable then [.poolUnavailable ⟨c.method, tier⟩] else []) ++
      [.promoting ⟨c.method, tier⟩ count]
  | .compiling job => (job.report? c.unwinding d).toList
  | _ => []

/-- If there is no pool, or it receives the request, then only the promotion is reported. -/
theorem Call.reports_of_received {m : MethodId} {unwinding : Bool} {tier : Tier} {count : UInt64}
    {d : Dispatcher α}
    (h : d.pool.isSome →
      ((⟨m, unwinding, .promoting tier count⟩ : Call α β).submits? d).isSome) :
    (⟨m, unwinding, .promoting tier count⟩ : Call α β).reports d =
      [.promoting ⟨m, tier⟩ count] := by
  cases hpool : d.pool with
  | none => simp [reports, hpool]
  | some pool =>
    have hsome := h (by rw [hpool]; rfl)
    simp only [submits?, hpool, Option.bind_some, Option.isSome_ite] at hsome
    obtain ⟨pool', hsend⟩ := Option.isSome_iff_exists.mp hsome
    simp [reports, hpool, hsend]

/-- A job reports how the compilation of its own request ended. -/
theorem CompileJob.isEnd_of_report? {job : CompileJob α} {unwinding : Bool} {d : Dispatcher α}
    {event : Event} (h : job.report? unwinding d = some event) : event.isEnd job.request := by
  obtain ⟨r, stage⟩ := job
  cases stage with
  | recorded artifact =>
    obtain ⟨-, hevent⟩ := Option.ite_none_right_eq_some.mp h
    obtain rfl := Option.some.inj hevent
    exact decide_eq_true rfl
  | released cause =>
    cases cause with
    | error reason =>
      cases unwinding <;> obtain rfl := Option.some.inj h <;> exact decide_eq_true rfl
    | panic payload =>
      obtain rfl := Option.some.inj h
      exact decide_eq_true rfl
  | superseded | charged reason =>
    obtain rfl := Option.some.inj h
    exact decide_eq_true rfl
  | _ => cases h

theorem CompileJob.log_advance (job : CompileJob α) (unwinding : Bool) (d : Dispatcher α) :
    (job.advance unwinding d).2.log = (job.report? unwinding d).toList ++ d.log := by
  obtain ⟨r, stage⟩ := job
  cases stage with
  | recorded artifact =>
    by_cases htaken : (d.cache.place r.method ⟨r.tier, artifact⟩).1
    · simp only [advance, report?, htaken, if_true]
      rfl
    · simp only [advance, report?, htaken]
      rfl
  | released cause =>
    cases cause with
    | error reason => cases unwinding <;> rfl
    | panic payload => rfl
  | _ => rfl

theorem Call.log_advance (c : Call α β) (d : Dispatcher α) :
    (c.advance d).2.log = c.reports d ++ d.log := by
  obtain ⟨m, unwinding, stage⟩ := c
  cases stage with
  | arriving | inspecting _ _ | claiming _ _ =>
    simp only [advance]
    split <;> rfl
  | promoting tier count =>
    obtain ⟨config, counter, cache, metrics, pool, log⟩ := d
    cases pool with
    | none => rfl
    | some pool =>
      cases hsend : pool.send ⟨m, tier⟩ with
      | none => simp [advance, reports, Dispatcher.report, hsend]
      | some pool' => simp [advance, reports, Dispatcher.report, hsend]
  | compiling job =>
    cases hturn : job.turn with
    | ended failure =>
      obtain ⟨r, rfl⟩ := CompileJob.exists_done_of_turn hturn
      rfl
    | dispatcher | compiler =>
      simp only [advance, hturn]
      exact job.log_advance unwinding d
  | _ => rfl

/-- What a move adds to the log, newest first: nothing, what the call or the job reports, or that
the job of a worker ended with a panic. -/
theorem Move.log_eq {μ? : Option (Milestone α)} {before after : Multiset (Work α β)}
    {d d' : Dispatcher α} (h : Move μ? before d after d') :
    d'.log = d.log ∨
      (∃ c, before = {.call c} ∧ c.turn = .dispatcher ∧ d'.log = c.reports d ++ d.log) ∨
      (∃ job, before = {.job job} ∧ job.turn = .dispatcher ∧
        d'.log = (job.report? false d).toList ++ d.log) ∨
      ∃ job payload, before = {.job job} ∧ job.turn = .ended (some (.panic payload)) ∧
        d'.log = .requestPanicked job.request payload :: d.log := by
  cases h with
  | @advance c _ hturn => exact .inr (.inl ⟨c, rfl, hturn, c.log_advance d⟩)
  | @advanceJob job _ pool hturn =>
    exact .inr (.inr (.inl ⟨job, rfl, hturn, job.log_advance false d⟩))
  | @finish job failure _ worker hturn =>
    unfold Dispatcher.finishJob
    split
    · exact .inr (.inr (.inr ⟨job, _, rfl, hturn, rfl⟩))
    · exact .inl rfl
  | _ => exact .inl rfl

end TieredDispatch

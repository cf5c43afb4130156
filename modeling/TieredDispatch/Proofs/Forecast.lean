import TieredDispatch.Proofs.RequestGate
import TieredDispatch.Proofs.Task

/-!
# The order of completions does not matter

**Theorem (`completion_order_irrelevant`).** From any state of a dispatcher, let the workers bring
all tasks to an end, with a compiler whose answer depends on the request alone. Whatever the number
of workers, the order in which they take requests and the order in which they are done, the same
tiers are requested, the same artifacts are published, and all meters but one show the same.

The proof does not compare schedules. What the end will show can be told from the ledger and the
tasks at any moment, and no step changes it (`TaskStep.foresees`): a **forecast** says

* *which requests stay*: those whose bit is set and whose task is not going to give them back,
* *what is published*: the best of what is published and what the tasks are going to offer, and
* *what the meters show*: what they show now, and one more for each task that is going to move them.

Two ends of one beginning have the same forecast, and at an end the forecast is what is there.
-/

namespace TieredDispatch

variable {α β : Type} {outcome : Request → Outcome α}

/-! ## What a task is going to do -/

namespace CompileJob

/-- Whether a task is going to give its request back. -/
def givesBack (outcome : Request → Outcome α) (job : CompileJob α) : Bool :=
  match job.stage with
  | .holding | .compiling => (outcome job.request).value?.isNone
  | .failed _ => true
  | _ => false

/-- The artifact that a task is going to offer to the cache. -/
def offers? (outcome : Request → Outcome α) (job : CompileJob α) : Option α :=
  match job.stage with
  | .holding | .compiling => (outcome job.request).value?
  | .compiled artifact | .counted artifact | .recorded artifact => some artifact
  | _ => none

/-- The meter of outcomes that a task is going to move on. -/
def counts? (outcome : Request → Outcome α) (job : CompileJob α) : Option Meter :=
  match job.stage with
  | .holding | .compiling =>
    if (outcome job.request).value?.isSome then some (.compilations job.request.tier)
    else some .failures
  | .compiled _ => some (.compilations job.request.tier)
  | .failed _ | .released _ | .charged _ => some .failures
  | _ => none

end CompileJob

/-! ## Forecasts -/

/-- A request that stays: its bit is set, and no task is going to give it back. -/
def Stays (outcome : Request → Outcome α) (w : Multiset (CompileJob α)) (l : Ledger α)
    (r : Request) : Prop :=
  l.isRequested r ∧ ∀ job ∈ w, job.request = r → job.givesBack outcome = false

/-- A task is going to offer an artifact for a method at a tier. -/
def CompileJob.Offers (outcome : Request → Outcome α) (m : MethodId) (compiled : CompiledMethod α)
    (job : CompileJob α) : Prop :=
  job.request = ⟨m, compiled.tier⟩ ∧ job.offers? outcome = some compiled.artifact

/-- What is published, or a task is going to offer, for a method. -/
def Candidate (outcome : Request → Outcome α) (w : Multiset (CompileJob α)) (l : Ledger α)
    (m : MethodId) (compiled : CompiledMethod α) : Prop :=
  l.active m = some compiled ∨ ∃ job ∈ w, job.Offers outcome m compiled

theorem Tier.lt_of_le_of_ne {a b : Tier} (hle : a ≤ b) (hne : a ≠ b) : a < b := by
  revert hle hne
  cases a <;> cases b <;> decide

/-- The best of some compiled methods: one of the highest tier, or none if there are none. -/
def IsBest (P : CompiledMethod α → Prop) : Option (CompiledMethod α) → Prop
  | none => ∀ compiled, ¬ P compiled
  | some best => P best ∧ ∀ compiled, P compiled → compiled.tier ≤ best.tier

/-- What is there when all tasks have come to an end. -/
structure Forecast (α : Type) where
  requested : Request → Prop
  active : MethodId → Option (CompiledMethod α)
  shown : Meter → UInt64

/-- The forecast that some tasks, the ledger and the metrics make. -/
structure Foresees (outcome : Request → Outcome α) (forecast : Forecast α)
    (w : Multiset (CompileJob α)) (l : Ledger α) (μ : Metrics) : Prop where
  requested : ∀ r, forecast.requested r ↔ Stays outcome w l r
  active : ∀ m, IsBest (Candidate outcome w l m) (forecast.active m)
  shown : ∀ k ≠ .superseded, forecast.shown k =
    μ.value k + UInt64.ofNat (w.countP (·.counts? outcome = some k))

theorem IsBest.exists (P : CompiledMethod α → Prop) : ∃ best, IsBest P best := by
  by_cases hl2 : ∃ compiled, P compiled ∧ compiled.tier = .l2
  · obtain ⟨best, hbest, htier⟩ := hl2
    refine ⟨some best, hbest, ?_⟩
    intro compiled _
    rw [htier]
    cases compiled.tier <;> decide
  · by_cases hsome : ∃ compiled, P compiled
    · obtain ⟨best, hbest⟩ := hsome
      refine ⟨some best, hbest, ?_⟩
      intro compiled hcompiled
      cases htier : compiled.tier with
      | l1 => cases best.tier <;> decide
      | l2 => exact absurd ⟨compiled, hcompiled, htier⟩ hl2
    · exact ⟨none, fun compiled hcompiled => hsome ⟨compiled, hcompiled⟩⟩

/-- The best stays the best when only candidates are lost that are not the best. -/
theorem IsBest.of_subset {P Q : CompiledMethod α → Prop} {best : Option (CompiledMethod α)}
    (hbest : IsBest P best) (hsub : ∀ compiled, Q compiled → P compiled)
    (hlost : ∀ compiled, P compiled →
      Q compiled ∨ ∃ better, P better ∧ compiled.tier < better.tier) :
    IsBest Q best := by
  cases best with
  | none => exact fun compiled hcompiled => hbest compiled (hsub compiled hcompiled)
  | some best =>
    refine ⟨?_, fun compiled hcompiled => hbest.2 compiled (hsub compiled hcompiled)⟩
    rcases hlost best hbest.1 with hstays | ⟨better, hbetter, hlt⟩
    · exact hstays
    · exact absurd (hbest.2 better hbetter) (Nat.not_le_of_lt hlt)

/-- There is a forecast for any tasks. -/
theorem Foresees.exists (outcome : Request → Outcome α) (w : Multiset (CompileJob α))
    (l : Ledger α) (μ : Metrics) : ∃ forecast, Foresees outcome forecast w l μ := by
  choose active hactive using fun m => IsBest.exists (Candidate outcome w l m)
  exact ⟨⟨Stays outcome w l, active, _⟩, fun r => Iff.rfl, hactive, fun k _ => rfl⟩

/-! ## A step of a task keeps the forecast -/

/-- What is known of a task that has an artifact: its bit is set, and nothing else is published for
its request. -/
def Confirmed (l : Ledger α) (job : CompileJob α) : Prop :=
  ∀ artifact, job.position? = some (.publishing job.request artifact) →
    l.isRequested job.request ∧ ∀ compiled, l.active job.request.method = some compiled →
      compiled.tier = job.request.tier → compiled.artifact = artifact

namespace TaskStep

variable {job : CompileJob α} {next : Multiset (CompileJob α)} {l l' : Ledger α} {μ μ' : Metrics}

/-- A bit that is set and not to be cleared by the task stays so. -/
theorem stays (hstep : TaskStep outcome job l μ next l' μ') (hconfirmed : Confirmed l job)
    (r : Request) :
    (l.isRequested r ∧ (job.request = r → job.givesBack outcome = false)) ↔
      (l'.isRequested r ∧ ∀ job' ∈ next, job'.request = r → job'.givesBack outcome = false) := by
  cases hstep with
  | recorded q artifact =>
    have hset := (hconfirmed artifact rfl).1
    by_cases hq : r = q
    · subst hq
      simpa [CompileJob.givesBack, Ledger.isRequested_mark] using hset
    · simp [CompileJob.givesBack, Ledger.isRequested_mark, hq]
  | released q cause =>
    by_cases hq : r = q
    · subst hq
      simp [CompileJob.givesBack, Ledger.isRequested_unmark]
    · simp [CompileJob.givesBack, Ledger.isRequested_unmark, hq, Ne.symm hq]
  | placed q artifact _ _ hstage =>
    rcases hstage with rfl | rfl <;> simp [CompileJob.givesBack]
  | succeeded houtcome => simp [CompileJob.givesBack, houtcome]
  | failed cause houtcome => simp [CompileJob.givesBack, houtcome]
  | _ => simp [CompileJob.givesBack]

/-- A task offers what it was going to offer, and at the last step it is placed. -/
theorem offers (hstep : TaskStep outcome job l μ next l' μ') :
    (l'.active = l.active ∧ ∀ m compiled,
      (∃ job' ∈ next, job'.Offers outcome m compiled) ↔ job.Offers outcome m compiled) ∨
    ∃ artifact, job.position? = some (.publishing job.request artifact) ∧
      job.offers? outcome = some artifact ∧ l' = l.place job.request artifact ∧
      ∀ job' ∈ next, job'.offers? outcome = none := by
  cases hstep with
  | placed q artifact _ _ hstage =>
    refine .inr ⟨artifact, rfl, rfl, rfl, ?_⟩
    rcases hstage with rfl | rfl <;> simp [CompileJob.offers?]
  | succeeded houtcome =>
    exact .inl ⟨rfl, by simp [CompileJob.Offers, CompileJob.offers?, houtcome]⟩
  | failed cause houtcome =>
    exact .inl ⟨rfl, by simp [CompileJob.Offers, CompileJob.offers?, houtcome]⟩
  | _ => exact .inl ⟨rfl, by simp [CompileJob.Offers, CompileJob.offers?]⟩

theorem countP_counts? (job : CompileJob α) (k : Meter) :
    Multiset.countP (·.counts? outcome = some k) {job} =
      if job.counts? outcome = some k then 1 else 0 := by
  rw [← Multiset.cons_zero, Multiset.countP_cons, Multiset.countP_zero, zero_add]

/-- A meter of outcomes moves on when a task moves it on. -/
theorem shown (hstep : TaskStep outcome job l μ next l' μ') {k : Meter} (hk : k ≠ .superseded) :
    μ.value k + UInt64.ofNat (Multiset.countP (·.counts? outcome = some k) {job}) =
      μ'.value k + UInt64.ofNat (next.countP (·.counts? outcome = some k)) := by
  cases hstep <;> simp only [countP_counts?, Multiset.countP_zero]
  case placed q artifact stage hstage =>
    rcases hstage with rfl | rfl <;> simp [CompileJob.counts?]
  case succeeded q artifact houtcome => simp [CompileJob.counts?, houtcome]
  case failed q cause houtcome => simp [CompileJob.counts?, houtcome]
  case superseded q => simp [CompileJob.counts?, Metrics.value_bump, Ne.symm hk]
  case counted q artifact =>
    rw [Metrics.value_bump]
    by_cases hq : .compilations q.tier = k <;> simp [CompileJob.counts?, hq]
  case charged q cause =>
    rw [Metrics.value_bump]
    by_cases hq : .failures = k <;> simp [CompileJob.counts?, hq]
  case chargedAgain q reason =>
    rw [Metrics.value_bump]
    by_cases hq : .failures = k <;> simp [CompileJob.counts?, hq]
  all_goals simp [CompileJob.counts?]

variable {frame : Multiset (CompileJob α)} {m : MethodId} {compiled : CompiledMethod α}

/-- What is lost when an artifact is placed is not the best. -/
theorem lost_of_place (hconfirmed : Confirmed l job) {artifact : α}
    (hposition : job.position? = some (.publishing job.request artifact))
    (hoffers : job.offers? outcome = some artifact)
    (hcandidate : Candidate outcome ({job} + frame) l m compiled) :
    Candidate outcome frame (l.place job.request artifact) m compiled ∨
      ∃ better, Candidate outcome ({job} + frame) l m better ∧ compiled.tier < better.tier := by
  rcases hcandidate with hactive | ⟨other, hother, hrequest, hartifact⟩
  · rcases Ledger.active_place_or_le hactive job.request artifact with hstays | ⟨rfl, hnew, hle⟩
    · exact .inl (.inl hstays)
    · by_cases htier : compiled.tier = job.request.tier
      · -- Both come from the only success of one request.
        obtain rfl := (hconfirmed artifact hposition).2 compiled hactive htier
        rw [← htier] at hnew
        exact .inl (.inl hnew)
      · refine .inr ⟨⟨job.request.tier, artifact⟩, .inr ⟨job, ?_, rfl, hoffers⟩, ?_⟩
        · exact Multiset.mem_add.mpr (.inl (Multiset.mem_singleton_self job))
        · exact Tier.lt_of_le_of_ne hle htier
  · rcases Multiset.mem_add.mp hother with hjob | hframe
    · obtain rfl := Multiset.mem_singleton.mp hjob
      obtain rfl : artifact = compiled.artifact := Option.some.inj (hoffers.symm.trans hartifact)
      rcases l.active_place_or_lt other.request compiled.artifact with
        hnew | ⟨current, hcurrent, -, hlt⟩
      · rw [hrequest] at hnew ⊢
        exact .inl (.inl hnew)
      · rw [hrequest] at hcurrent hlt
        exact .inr ⟨current, .inl hcurrent, hlt⟩
    · exact .inl (.inr ⟨other, hframe, hrequest, hartifact⟩)

theorem best (hstep : TaskStep outcome job l μ next l' μ') (hconfirmed : Confirmed l job)
    {best : Option (CompiledMethod α)}
    (hbest : IsBest (Candidate outcome ({job} + frame) l m) best) :
    IsBest (Candidate outcome (next + frame) l' m) best := by
  rcases hstep.offers with ⟨hactive, hoffers⟩ | ⟨artifact, hposition, hoffers, rfl, hnone⟩
  · have hsame : Candidate outcome (next + frame) l' m =
        Candidate outcome ({job} + frame) l m := by
      funext compiled
      have hnext := hoffers m compiled
      simp only [Candidate, hactive, Multiset.mem_add, or_and_right, exists_or, hnext,
        Multiset.mem_singleton, exists_eq_left]
    rw [hsame]
    exact hbest
  · have hframe : ∀ {l compiled}, Candidate outcome frame l m compiled →
        Candidate outcome (next + frame) l m compiled := by
      rintro l compiled (hactive | ⟨other, hother, hrest⟩)
      · exact .inl hactive
      · exact .inr ⟨other, Multiset.mem_add.mpr (.inr hother), hrest⟩
    refine hbest.of_subset ?_ ?_
    · rintro compiled (hactive | ⟨other, hother, hrest⟩)
      · rcases Ledger.eq_of_active_place hactive with hbefore | ⟨rfl, rfl⟩
        · exact .inl hbefore
        · have hjob : job ∈ {job} + frame :=
            Multiset.mem_add.mpr (.inl (Multiset.mem_singleton_self _))
          exact .inr ⟨job, hjob, rfl, hoffers⟩
      · obtain ⟨hrequest, hartifact⟩ := hrest
        rcases Multiset.mem_add.mp hother with hnext | hframe
        · rw [hnone other hnext] at hartifact
          cases hartifact
        · exact .inr ⟨other, Multiset.mem_add.mpr (.inr hframe), hrequest, hartifact⟩
    · intro compiled hcandidate
      rcases lost_of_place hconfirmed hposition hoffers hcandidate with hstays | hlost
      · exact .inl (hframe hstays)
      · exact .inr hlost

/-- **A step keeps the forecast.** -/
theorem foresees (hstep : TaskStep outcome job l μ next l' μ') (hconfirmed : Confirmed l job)
    {forecast : Forecast α} (hforesees : Foresees outcome forecast ({job} + frame) l μ) :
    Foresees outcome forecast (next + frame) l' μ' where
  requested r := by
    have hbit := hstep.stays hconfirmed r
    rw [hforesees.requested r]
    simp only [Stays, Multiset.mem_add, or_imp, forall_and, Multiset.mem_singleton, forall_eq]
    rw [← and_assoc, hbit, and_assoc]
  active m := hstep.best hconfirmed (hforesees.active m)
  shown k hk := by
    rw [hforesees.shown k hk, Multiset.countP_add, Multiset.countP_add, UInt64.ofNat_add,
      UInt64.ofNat_add, ← UInt64.add_assoc, ← UInt64.add_assoc, hstep.shown hk]

end TaskStep

/-! ## Ends of a run -/

theorem IsBest.eq_of_done {l : Ledger α} {m : MethodId} {best : Option (CompiledMethod α)}
    (hbest : IsBest (Candidate outcome 0 l m) best) : l.active m = best := by
  have hactive : ∀ compiled, Candidate outcome 0 l m compiled ↔ l.active m = some compiled := by
    intro compiled
    simp [Candidate]
  cases best with
  | none => exact Option.eq_none_iff_forall_ne_some.mpr fun c hc => hbest c ((hactive c).mpr hc)
  | some best => exact (hactive best).mp hbest.1

/-- With no task left the forecast is what is there. -/
theorem Foresees.of_done {forecast : Forecast α} {l : Ledger α} {μ : Metrics}
    (hforesees : Foresees outcome forecast 0 l μ) :
    (∀ r, l.isRequested r ↔ forecast.requested r) ∧ (∀ m, l.active m = forecast.active m) ∧
      ∀ k ≠ .superseded, μ.value k = forecast.shown k := by
  refine ⟨fun r => ?_, fun m => (hforesees.active m).eq_of_done, fun k hk => ?_⟩
  · simp [hforesees.requested r, Stays]
  · simp [hforesees.shown k hk]

namespace System

variable {policy : TierPolicy} {h : History α} {s t : System α β} {labels : List (Label α β)}
  {pool : Pool (CompileJob α)}

/-- The same system with other workers. -/
def withPool (s : System α β) (pool : Pool (CompileJob α)) : System α β :=
  { s with dispatcher := { s.dispatcher with pool := some pool } }

/-- A run of the workers alone that brings all tasks to an end, with a compiler whose answer depends
on the request alone. -/
structure Drains (outcome : Request → Outcome α) (s : System α β) (labels : List (Label α β))
    (t : System α β) : Prop where
  run : s.run labels = some t
  workers : ∀ label ∈ labels, label.isWorkers
  answers : ∀ r o, .ended r o ∈ s.history labels → o = outcome r
  idle : t.dispatcher.pool.all (·.isIdle)

theorem positions_eq (s : System α β) :
    s.positions = Work.positions (Multiset.ofList (s.callers.flatMap (·.map .call))) +
      s.dispatcher.tasks.filterMap (·.position?) := by
  rw [positions, work, Work.positions_add, Dispatcher.positions_work]

/-- Which workers there are does not matter for requests. -/
theorem outline_withPool (htasks : pool.tasks = s.dispatcher.tasks) :
    (s.withPool pool).outline = s.outline := by
  have hpositions : (s.withPool pool).positions = s.positions := by
    rw [positions_eq, positions_eq, ← htasks]
    rfl
  rw [outline, outline, hpositions]
  rfl

theorem confirmed_of_task (hreach : Reach policy h s.outline) {job : CompileJob α}
    (hjob : job ∈ s.dispatcher.tasks) : Confirmed s.dispatcher.ledger job := by
  intro artifact hposition
  have hmem : .publishing job.request artifact ∈ s.outline.positions := by
    show _ ∈ s.positions
    rw [positions_eq]
    exact Multiset.mem_add.mpr (.inr ((Multiset.mem_filterMap _ _).mpr ⟨job, hjob, hposition⟩))
  have hgated := hreach.gated job.request
  have hartifact := hgated.source artifact hmem
  refine ⟨hgated.of_artifact hartifact, ?_⟩
  intro compiled hactive htier
  have hcompiled := hreach.published.compiled hactive
  rw [htier] at hcompiled
  exact Option.some.inj (hcompiled.symm.trans hartifact)

theorem foresees_step {forecast : Forecast α} {label : Label α β}
    (hreach : Reach policy h s.outline) (hworkers : label.isWorkers)
    (hanswer : ∀ r o, s.milestone? label = some (.ended r o) → o = outcome r)
    (hstep : s.step label = some t)
    (hforesees : Foresees outcome forecast s.dispatcher.tasks s.dispatcher.ledger
      s.dispatcher.metrics) :
    Foresees outcome forecast t.dispatcher.tasks t.dispatcher.ledger t.dispatcher.metrics := by
  rcases taskStep_of_step hworkers hanswer hstep with
    ⟨htasks, hledger, hmetrics⟩ | ⟨job, next, frame, hbefore, hafter, hmove⟩
  · rw [htasks, hledger, hmetrics]
    exact hforesees
  · have hjob : job ∈ s.dispatcher.tasks := by
      rw [hbefore]
      exact Multiset.mem_add.mpr (.inl (Multiset.mem_singleton_self job))
    rw [hbefore] at hforesees
    rw [hafter]
    exact hmove.foresees (confirmed_of_task hreach hjob) hforesees

theorem isOwn_of_isWorkers {label : Label α β} (hworkers : label.isWorkers) : label.isOwn := by
  cases label with
  | worker _ _ => rfl
  | _ => cases hworkers

/-- The workers keep the forecast. -/
theorem foresees_run {forecast : Forecast α} (hreach : Reach policy h s.outline)
    (hworkers : ∀ label ∈ labels, label.isWorkers)
    (hanswers : ∀ r o, .ended r o ∈ s.history labels → o = outcome r)
    (hrun : s.run labels = some t)
    (hforesees : Foresees outcome forecast s.dispatcher.tasks s.dispatcher.ledger
      s.dispatcher.metrics) :
    Foresees outcome forecast t.dispatcher.tasks t.dispatcher.ledger t.dispatcher.metrics := by
  induction labels generalizing s h with
  | nil =>
    obtain rfl := Option.some.inj hrun
    exact hforesees
  | cons label labels ih =>
    obtain ⟨u, hu, hrest⟩ := Option.bind_eq_some_iff.mp hrun
    rw [List.forall_mem_cons] at hworkers
    rw [history, hu] at hanswers
    have hreach' := reach_step hreach (isOwn_of_isWorkers hworkers.1) hu
    have hforesees' := foresees_step hreach hworkers.1
      (fun r o hμ => hanswers r o (List.mem_append_left _ (by simp [hμ]))) hu hforesees
    exact ih hreach' hworkers.2 (fun r o hmem => hanswers r o (List.mem_append_right _ hmem)) hrest
      hforesees'

/-- At the end of the tasks the forecast has come true. -/
theorem Drains.foreseen {forecast : Forecast α} (hdrains : Drains outcome s labels t)
    (hreach : Reach policy h s.outline)
    (hforesees : Foresees outcome forecast s.dispatcher.tasks s.dispatcher.ledger
      s.dispatcher.metrics) :
    (∀ r, t.dispatcher.ledger.isRequested r ↔ forecast.requested r) ∧
      (∀ m, t.dispatcher.cache.lookup m = forecast.active m) ∧
      ∀ k ≠ .superseded, t.dispatcher.metrics.value k = forecast.shown k := by
  have hend := foresees_run hreach hdrains.workers hdrains.answers hdrains.run hforesees
  have hnone : t.dispatcher.tasks = 0 := by
    have hidle := hdrains.idle
    cases hpool : t.dispatcher.pool with
    | none => simp [Dispatcher.tasks, hpool]
    | some pool =>
      rw [hpool, Option.all_some] at hidle
      rw [Dispatcher.tasks, hpool, Option.map_some, Option.getD_some, Pool.tasks_of_isIdle hidle]
  rw [hnone] at hend
  exact hend.of_done

end System

/-! ## Main result -/

theorem RequestSet.eq_of_contains {a b : RequestSet}
    (h : ∀ tier, a.contains tier = b.contains tier) :
    a = b := by
  obtain ⟨l1, l2⟩ := a
  obtain ⟨l1', l2'⟩ := b
  obtain rfl : l1 = l1' := h .l1
  obtain rfl : l2 = l2' := h .l2
  rfl

/-- **The order of completions does not matter.** Take any state that a dispatcher reaches through
calls, and two pools with the tasks it has then, in any order and with any numbers of workers. Let
the workers of each bring all tasks to an end without further calls, with a compiler whose answer
depends on the request alone. Then the same tiers are requested and the same artifact is published
for every method, and all meters but the one of superseded artifacts show the same. -/
theorem completion_order_irrelevant {config : TierConfig} {d : Dispatcher α} {callers : Nat}
    {before labels₁ labels₂ : List (Label α β)} {s t₁ t₂ : System α β}
    {pool₁ pool₂ : Pool (CompileJob α)} (outcome : Request → Outcome α)
    (hstart : Dispatcher.start config = .ok d) (hown : ∀ label ∈ before, label.isOwn)
    (hrun : (System.start d callers).run before = some s)
    (htasks₁ : pool₁.tasks = s.dispatcher.tasks) (htasks₂ : pool₂.tasks = s.dispatcher.tasks)
    (hdrains₁ : (s.withPool pool₁).Drains outcome labels₁ t₁)
    (hdrains₂ : (s.withPool pool₂).Drains outcome labels₂ t₂) :
    (∀ m, t₁.dispatcher.cache.tierState m = t₂.dispatcher.cache.tierState m ∧
      t₁.dispatcher.cache.lookup m = t₂.dispatcher.cache.lookup m) ∧
    ∀ k ≠ .superseded, t₁.dispatcher.metrics.value k = t₂.dispatcher.metrics.value k := by
  have hreach := System.reach_of_run hstart hown hrun
  obtain ⟨forecast, hforesees⟩ :=
    Foresees.exists outcome s.dispatcher.tasks s.dispatcher.ledger s.dispatcher.metrics
  have hend : ∀ {pool labels t}, pool.tasks = s.dispatcher.tasks →
      (s.withPool pool).Drains outcome labels t →
      (∀ r, t.dispatcher.ledger.isRequested r ↔ forecast.requested r) ∧
        (∀ m, t.dispatcher.cache.lookup m = forecast.active m) ∧
        ∀ k ≠ .superseded, t.dispatcher.metrics.value k = forecast.shown k := by
    intro pool labels t htasks hdrains
    have hforesees' := hforesees
    rw [← htasks] at hforesees'
    exact hdrains.foreseen (System.outline_withPool htasks ▸ hreach) hforesees'
  obtain ⟨hbits₁, hactive₁, hshown₁⟩ := hend htasks₁ hdrains₁
  obtain ⟨hbits₂, hactive₂, hshown₂⟩ := hend htasks₂ hdrains₂
  refine ⟨?_, fun k hk => (hshown₁ k hk).trans (hshown₂ k hk).symm⟩
  intro m
  have hlookup := (hactive₁ m).trans (hactive₂ m).symm
  have hrequested : t₁.dispatcher.cache.requested m = t₂.dispatcher.cache.requested m := by
    refine RequestSet.eq_of_contains ?_
    intro tier
    exact Bool.eq_iff_iff.mpr ((hbits₁ ⟨m, tier⟩).trans (hbits₂ ⟨m, tier⟩).symm)
  refine ⟨?_, hlookup⟩
  rw [CompilationCache.tierState, CompilationCache.tierState, CompilationCache.tierOf,
    CompilationCache.tierOf, hrequested, hlookup]

/-- Two calls of one method, by which `l1` and `l2` are requested. -/
def requestingBoth : List (Label Nat Nat) :=
  let advances (n : Nat) : List (Label Nat Nat) := List.replicate n (.caller 0 .advance)
  let runs : List (Label Nat Nat) := [.caller 0 (.endRun (.value 1)), .caller 0 .leave]
  [.caller 0 (.invoke ⟨0⟩ false)] ++ advances 10 ++ runs ++
    [.caller 0 (.invoke ⟨0⟩ false)] ++ advances 9 ++ runs

/-- A compiler whose artifact is the rank of the tier. -/
def compileRank (r : Request) : Outcome Nat :=
  .value r.tier.rank

/-- A pool with both requests in the queue. -/
def bothWaiting (workers : Nat) : Pool (CompileJob Nat) :=
  { Pool.start workers with queue := [⟨⟨0⟩, .l1⟩, ⟨⟨0⟩, .l2⟩] }

/-- One worker compiles at `l1` and then at `l2`. -/
def oneByOne : List (Label Nat Nat) :=
  let compiles (artifact : Nat) : List (Label Nat Nat) :=
    [.worker 0 .take, .worker 0 .beginCompile, .worker 0 (.endCompile (.value artifact)),
      .worker 0 .advance, .worker 0 .advance, .worker 0 .advance, .worker 0 .finish]
  compiles 1 ++ compiles 2

/-- Two workers compile at the same time, and `l2` is done first. -/
def overtakingL1 : List (Label Nat Nat) :=
  let completes (i artifact steps : Nat) : List (Label Nat Nat) :=
    [.worker i (.endCompile (.value artifact))] ++ List.replicate steps (.worker i .advance) ++
      [.worker i .finish]
  [.worker 0 .take, .worker 1 .take, .worker 0 .beginCompile, .worker 1 .beginCompile] ++
    completes 1 2 3 ++ completes 0 1 4

/-- Whether a run of the workers is one that brings all tasks to an end. -/
def drainsBy (s : System Nat Nat) (labels : List (Label Nat Nat)) (t : System Nat Nat) : Bool :=
  let conforms : Milestone Nat → Bool
    | .ended r o => o = compileRank r
    | _ => true
  labels.all (·.isWorkers) && (s.history labels).all conforms &&
    t.dispatcher.pool.all (·.isIdle)

theorem drains_of_drainsBy {s t : System Nat Nat} {labels : List (Label Nat Nat)}
    (hrun : s.run labels = some t) (hdrains : drainsBy s labels t) :
    s.Drains compileRank labels t := by
  rw [drainsBy, Bool.and_eq_true, Bool.and_eq_true, List.all_eq_true, List.all_eq_true] at hdrains
  obtain ⟨⟨hworkers, hconforms⟩, hidle⟩ := hdrains
  exact ⟨hrun, hworkers, fun r o hmem => of_decide_eq_true (hconforms _ hmem), hidle⟩

theorem completion_order_irrelevant_overtaking :
    let d : Dispatcher Nat := .ofConfig ((TierConfig.withThresholds 1 2).inBackground 2)
    ∃ s t₁ t₂ : System Nat Nat, (System.start d 1).run requestingBoth = some s ∧
      (s.withPool (bothWaiting 1)).Drains compileRank oneByOne t₁ ∧
      (s.withPool (bothWaiting 2)).Drains compileRank overtakingL1 t₂ ∧
      t₁.dispatcher.cache.tierState ⟨0⟩ = t₂.dispatcher.cache.tierState ⟨0⟩ ∧
      t₁.dispatcher.cache.lookup ⟨0⟩ = t₂.dispatcher.cache.lookup ⟨0⟩ ∧
      (∀ tier, t₁.dispatcher.metrics.value (.compilations tier) =
        t₂.dispatcher.metrics.value (.compilations tier)) ∧
      t₁.dispatcher.metrics.value .superseded = 0 ∧
      t₂.dispatcher.metrics.value .superseded = 1 := by
  intro d
  have hstart : Dispatcher.start ((TierConfig.withThresholds 1 2).inBackground 2) = .ok d := rfl
  have hruns : ((System.start (β := Nat) d 1).run requestingBoth).any fun s =>
      s.dispatcher.tasks = (bothWaiting 1).tasks &&
      (((s.withPool (bothWaiting 1)).run oneByOne).any fun t =>
        drainsBy (s.withPool (bothWaiting 1)) oneByOne t &&
          t.dispatcher.metrics.value .superseded = 0) &&
      ((s.withPool (bothWaiting 2)).run overtakingL1).any fun t =>
        drainsBy (s.withPool (bothWaiting 2)) overtakingL1 t &&
          t.dispatcher.metrics.value .superseded = 1 := by
    decide +kernel
  obtain ⟨s, hrun, hs⟩ := (Option.any_eq_true _ _).mp hruns
  rw [Bool.and_eq_true, Bool.and_eq_true, decide_eq_true_eq] at hs
  obtain ⟨⟨htasks, hruns₁⟩, hruns₂⟩ := hs
  obtain ⟨t₁, hrun₁, ht₁⟩ := (Option.any_eq_true _ _).mp hruns₁
  obtain ⟨t₂, hrun₂, ht₂⟩ := (Option.any_eq_true _ _).mp hruns₂
  rw [Bool.and_eq_true, decide_eq_true_eq] at ht₁ ht₂
  have hdrains₁ := drains_of_drainsBy hrun₁ ht₁.1
  have hdrains₂ := drains_of_drainsBy hrun₂ ht₂.1
  have htasks₂ : (bothWaiting 2).tasks = s.dispatcher.tasks := htasks.symm
  obtain ⟨hcache, hmeters⟩ := completion_order_irrelevant compileRank hstart (by decide) hrun
    htasks.symm htasks₂ hdrains₁ hdrains₂
  exact ⟨s, t₁, t₂, hrun, hdrains₁, hdrains₂, (hcache ⟨0⟩).1, (hcache ⟨0⟩).2,
    fun tier => hmeters _ nofun, ht₁.2, ht₂.2⟩

end TieredDispatch

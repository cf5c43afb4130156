import TieredDispatch.Proofs.Conservation
import TieredDispatch.Proofs.Jobs
import TieredDispatch.Proofs.Audit

/-!
# How compile calls end

Every compile call that ends is counted by one of three meters: a compilation at its tier, or a
failure. What the history of a run says about compile calls is what these meters show, but for the
jobs that are still to count how theirs ended (`System.Settled`). Sorted by methods, the
compilations at a tier are the methods compiled there, each of which was invoked and compiled once
(`Reach.endings_eq_countP`). A call whose compilation failed is **failing** until it is left
(`StackStep.failing`).
-/

namespace TieredDispatch

variable {α β : Type}

/-! ## Endings in a history -/

/-- The meter for a compile call that ended like that. -/
def Outcome.meter (r : Request) : Outcome α → Meter
  | .value _ => .compilations r.tier
  | .error _ | .panic _ => .failures

/-- The meter for a compile call that ended. -/
def Milestone.ending? : Milestone α → Option Meter
  | ended r outcome => some (outcome.meter r)
  | _ => none

namespace History

/-- Compile calls that ended and are to be counted by the meter. -/
def endings (h : History α) (k : Meter) : Nat :=
  h.countP (·.ending? = some k)

/-- Compile calls that ended. -/
def ended (h : History α) : Nat :=
  h.countP (·.ending?.isSome)

theorem endings_append (h : History α) (μ? : Option (Milestone α)) (k : Meter) :
    endings (h ++ μ?.toList) k = h.endings k + (μ?.any (·.ending? = some k)).toNat :=
  countP_concat_toList _ h μ?

/-- Compile calls end with an artifact for one of the tiers, or fail. -/
theorem ended_eq (h : History α) :
    h.ended =
      h.endings (.compilations .l1) + h.endings (.compilations .l2) + h.endings .failures := by
  induction h with
  | nil => rfl
  | cons μ h ih =>
    simp only [ended, endings, List.countP_cons] at ih ⊢
    rw [ih]
    cases μ with
    | ended r outcome =>
      obtain ⟨m, tier⟩ := r
      cases outcome with
      | value artifact => cases tier <;> simp [Milestone.ending?, Outcome.meter] <;> omega
      | error reason | panic payload =>
        simp [Milestone.ending?, Outcome.meter]
        omega
    | _ => simp [Milestone.ending?]

end History

/-- A step of the dispatcher itself ends no compile call. -/
theorem CompileJob.ending?_milestone? (job : CompileJob α) :
    ∀ μ ∈ job.milestone?, μ.ending? = none := by
  obtain ⟨r, stage⟩ := job
  intro μ hμ
  cases stage <;> cases hμ <;> rfl

theorem Call.ending?_milestone? (c : Call α β) (d : Dispatcher α) :
    ∀ μ ∈ c.milestone? d, μ.ending? = none := by
  obtain ⟨m, unwinding, stage⟩ := c
  intro μ hμ
  cases stage with
  | claiming tier count =>
    simp only [milestone?, Option.mem_def] at hμ
    split at hμ <;> cases hμ <;> rfl
  | compiling job => exact job.ending?_milestone? μ hμ
  | _ => cases hμ <;> rfl

/-! ## Endings and meters -/

/-- Whether the compile call of the job ended, and the meter is still to count that. -/
def CompileJob.awaits (k : Meter) (job : CompileJob α) : Bool :=
  match job.stage with
  | .compiled _ => .compilations job.request.tier = k
  | .failed _ | .released _ => .failures = k
  | _ => false

theorem CompileJob.awaits_begin {job : CompileJob α} (hturn : job.turn = .compiler) (k : Meter) :
    job.awaits k = false ∧ job.begin.awaits k = false := by
  obtain ⟨r, stage⟩ := job
  cases stage with
  | holding | compiling => exact ⟨rfl, rfl⟩
  | _ => cases hturn

theorem CompileJob.awaits_conclude {job : CompileJob α} (hbusy : job.isCompiling = true)
    (outcome : Outcome α) (k : Meter) :
    (job.conclude outcome).awaits k = decide (outcome.meter job.request = k) := by
  obtain ⟨r, stage⟩ := job
  cases stage with
  | compiling => cases outcome <;> rfl
  | _ => cases hbusy

/-- What a job counts is what it was to count. -/
theorem CompileJob.awaits_advance {job : CompileJob α} (unwinding : Bool) (d : Dispatcher α)
    {k : Meter} (hk : k.isOutcome) (hcalm : (job.advance unwinding d).1.isCalm = true)
    (hbefore : job.isCalm = true) :
    (job.awaits k).toNat =
      (job.meter?.any (· = k)).toNat + ((job.advance unwinding d).1.awaits k).toNat := by
  obtain ⟨⟨m, tier⟩, stage⟩ := job
  cases stage with
  | charged reason => cases hbefore
  | compiled artifact => rfl
  | failed cause => exact (Nat.zero_add _).symm
  | recorded artifact =>
    by_cases htaken : (d.cache.place m ⟨tier, artifact⟩).1 <;>
      simp [awaits, meter?, advance, htaken]
  | superseded =>
    cases k with
    | superseded => cases hk
    | _ => rfl
  | released cause =>
    cases cause with
    | panic payload => rfl
    | error reason =>
      cases unwinding with
      | true => cases hcalm
      | false => rfl
  | _ => rfl

/-- A call without a job counts nothing about compile calls. -/
theorem Call.meter?_of_job?_eq_none {c : Call α β} (hnone : c.job? = none) {k : Meter}
    (hk : k.isOutcome) : c.meter?.any (· = k) = false := by
  obtain ⟨m, unwinding, stage⟩ := c
  cases stage with
  | compiling job => cases hnone
  | denied tier count => cases k <;> first | rfl | cases hk
  | queued => cases k <;> first | rfl | cases hk
  | entering found => cases found <;> cases k <;> first | rfl | cases hk
  | _ => rfl

/-- A compile call that ends is to be counted until it is. -/
theorem JobStep.settle {d : Dispatcher α} {μ? : Option (Milestone α)}
    {job? next? : Option (CompileJob α)} {k? : Option Meter} {events : List Event}
    (h : JobStep d μ? job? k? events next?) {k : Meter} (hk : k.isOutcome)
    (hcalm : ∀ job ∈ job?, job.isCalm = true) (hcalm' : ∀ job ∈ next?, job.isCalm = true) :
    (μ?.any (·.ending? = some k)).toNat + (job?.any (CompileJob.awaits k)).toNat =
      (k?.any (· = k)).toNat + (next?.any (CompileJob.awaits k)).toNat := by
  have hsilent : ∀ μ? : Option (Milestone α), (∀ μ ∈ μ?, μ.ending? = none) →
      μ?.any (·.ending? = some k) = false := by
    intro μ? hnone
    rw [Option.any_eq_false]
    intro μ hμ
    simp [hnone μ hμ]
  cases h with
  | still _ hμ =>
    rw [hsilent μ? fun μ hmem => ?_]
    · rfl
    · have hcall := hμ μ hmem
      cases μ with
      | invoked m => rfl
      | _ => cases hcall
  | call c hbefore hafter =>
    rw [hsilent _ (c.ending?_milestone? d), Call.meter?_of_job?_eq_none hbefore hk]
  | keep | take => rfl
  | @begin job hturn hidle =>
    obtain ⟨hbefore, hafter⟩ := CompileJob.awaits_begin hturn k
    simp [Milestone.ending?, hbefore, hafter]
  | @conclude job outcome hturn hbusy =>
    simp [Milestone.ending?, (CompileJob.awaits_begin hturn k).1,
      CompileJob.awaits_conclude hbusy outcome k]
  | @advance job unwinding hturn =>
    rw [hsilent _ job.ending?_milestone?, Option.any_some, Option.any_some,
      CompileJob.awaits_advance unwinding d hk (hcalm' _ rfl) (hcalm _ rfl)]
    exact Nat.zero_add _
  | @finish job failure _ hturn hevents =>
    obtain ⟨r, rfl⟩ := CompileJob.exists_done_of_turn hturn
    rfl

/-- The compile calls that ended are those that the meters show, and those that jobs are still to
count. -/
def System.Settled (h : History α) (s : System α β) : Prop :=
  ∀ k : Meter, k.isOutcome → UInt64.ofNat (h.endings k) =
    s.dispatcher.metrics.value k + UInt64.ofNat (s.jobs.countP (·.awaits k))

namespace System

variable {s t : System α β} {label : Label α β}

theorem isCalm_of_mem_jobs (hcalm : ∀ w ∈ s.work, w.isCalm = true) {job : CompileJob α}
    (hjob : job ∈ s.jobs) : job.isCalm = true := by
  obtain ⟨w, hw, hsome⟩ := (Multiset.mem_filterMap _ _).mp hjob
  have hwork := hcalm w hw
  cases w with
  | call c => exact (Call.isCalm_iff.mp hwork).2 job hsome
  | job k =>
    obtain rfl := Option.some.inj hsome
    exact hwork
  | queued r => cases hsome

theorem settled_step {h : History α} (hstep : s.step label = some t)
    (hcalm : ∀ w ∈ s.work, w.isCalm = true) (hcalm' : ∀ w ∈ t.work, w.isCalm = true)
    (hsettled : Settled h s) : Settled (h ++ (s.milestone? label).toList) t := by
  intro k hk
  obtain ⟨job?, k?, events, next?, others, hjob, hbefore, hafter, hmetrics, -⟩ :=
    jobStep_of_step hstep
  have hin : ∀ job ∈ job?, job ∈ s.jobs := by
    rintro job rfl
    rw [hbefore]
    exact Multiset.mem_add.mpr (.inl (Multiset.mem_singleton_self _))
  have hin' : ∀ job ∈ next?, job ∈ t.jobs := by
    rintro job rfl
    rw [hafter]
    exact Multiset.mem_add.mpr (.inl (Multiset.mem_singleton_self _))
  have hbalance := hjob.settle hk (fun job hmem => isCalm_of_mem_jobs hcalm (hin job hmem))
    fun job hmem => isCalm_of_mem_jobs hcalm' (hin' job hmem)
  have hold := hsettled k hk
  rw [hbefore, countP_toList_add] at hold
  rw [History.endings_append, hmetrics, Metrics.value_elim_bump, hafter, countP_toList_add,
    UInt64.add_assoc, ← UInt64.ofNat_add, UInt64.ofNat_add, hold, UInt64.add_assoc,
    ← UInt64.ofNat_add]
  congr 2
  omega

theorem settled_start {config : TierConfig} {d : Dispatcher α}
    (hstart : Dispatcher.start config = .ok d) (callers : Nat) :
    Settled [] (start d callers : System α β) := by
  intro k hk
  have hmetrics : d.metrics = {} := by
    obtain ⟨log, rfl⟩ := Dispatcher.eq_of_start hstart
    rfl
  rw [jobs_of_start hstart]
  change UInt64.ofNat 0 = d.metrics.value k + UInt64.ofNat 0
  rw [hmetrics, Metrics.Shows.zero k]
  rfl

end System

/-! ## Endings and beginnings -/

/-- Whether the compiler is at work, on whatever request. -/
def Position.isCompiling : Position α → Bool
  | compiling _ => true
  | _ => false

/-- A compile call that started has ended, or the compiler is at work. -/
theorem Reach.compiles_eq {policy : TierPolicy} {h : History α} {o : Outline α}
    (hreach : Reach policy h o) :
    h.compiles = h.ended + o.positions.countP (·.isCompiling) := by
  have hbalance := hreach.balance (·.isCompiling) (·.isCompile) (·.ending?.isSome) (fun _ => false)
    fun hprogress => ?_
  · simpa [History.compiles, History.ended] using hbalance
  · cases hprogress <;> simp only [countP_one, Multiset.countP_zero] <;>
      simp [Position.isCompiling, Milestone.isCompile, Milestone.ending?]

/-! ## Compilations by method -/

/-- The method that a position is about. -/
def Position.method : Position α → MethodId
  | arriving m | counted m _ | inspecting m _ _ => m
  | claiming r _ | waiting r | compiling r | failing r | publishing r _ => r.method

/-- Only methods that were invoked come to be compiled. -/
structure Invoked (h : History α) (o : Outline α) : Prop where
  position : ∀ p ∈ o.positions, 0 < h.invocations p.method
  success : ∀ r, 0 < h.successes r → 0 < h.invocations r.method

theorem Progress.method {μ : Milestone α} {before after : Multiset (Position α)} {l l' : Ledger α}
    (hprogress : Progress μ before l after l') :
    (∀ p ∈ after, μ.isInvocation p.method = true ∨ ∃ q ∈ before, q.method = p.method) ∧
      ∀ r, μ.isSuccess r = true → ∃ q ∈ before, q.method = r.method := by
  constructor
  · intro p hp
    cases hprogress <;> simp only [Multiset.mem_singleton, Multiset.notMem_zero] at hp <;> subst hp
    case invoked m => exact .inl (by simp [Milestone.isInvocation, Position.method])
    all_goals exact .inr ⟨_, Multiset.mem_singleton_self _, rfl⟩
  · intro r hr
    cases hprogress <;> simp only [Milestone.isSuccess, Bool.false_eq_true] at hr
    case succeeded q artifact =>
      rw [Bool.and_eq_true, decide_eq_true_eq] at hr
      obtain ⟨rfl, -⟩ := hr
      exact ⟨_, Multiset.mem_singleton_self _, rfl⟩
    case failed q outcome hnone => simp [hnone] at hr

theorem Reach.invoked {policy : TierPolicy} {h : History α} {o : Outline α}
    (hreach : Reach policy h o) : Invoked h o := by
  induction hreach with
  | start =>
    exact ⟨fun p hp => absurd hp (Multiset.notMem_zero p), fun r hr => absurd hr (Nat.lt_irrefl 0)⟩
  | @step h μ o o' hreach hstep ih =>
    cases hstep with
    | @intro before after l l' frame hprogress =>
      have hmono : ∀ m, h.invocations m ≤ History.invocations (h ++ [μ]) m :=
        fun m => History.countP_le_concat _ h μ
      have hbefore : ∀ q ∈ before, ∀ m, q.method = m → 0 < History.invocations (h ++ [μ]) m := by
        rintro q hq m rfl
        exact (ih.position q (Multiset.mem_add.mpr (.inl hq))).trans_le (hmono _)
      constructor
      · intro p hp
        obtain hp | hp := Multiset.mem_add.mp hp
        · obtain hnew | ⟨q, hq, hm⟩ := hprogress.method.1 p hp
          · rw [History.invocations, History.countP_concat, hnew]
            exact Nat.succ_pos _
          · exact hbefore q hq _ hm
        · exact (ih.position p (Multiset.mem_add.mpr (.inr hp))).trans_le (hmono _)
      · intro r hr
        rw [History.successes, History.countP_concat] at hr
        cases hnew : μ.isSuccess r with
        | true =>
          obtain ⟨q, hq, hm⟩ := hprogress.method.2 r hnew
          exact hbefore q hq _ hm
        | false =>
          rw [hnew] at hr
          exact (ih.success r hr).trans_le (hmono _)

/-- Compilations at a tier are those of each method. -/
theorem History.endings_eq_sum (h : History α) (tier : Tier) {methods : Finset MethodId}
    (hall : ∀ m ∉ methods, h.successes ⟨m, tier⟩ = 0) :
    h.endings (.compilations tier) = ∑ m ∈ methods, h.successes ⟨m, tier⟩ := by
  induction h with
  | nil => simp [endings, successes]
  | cons μ h ih =>
    simp only [endings, successes, List.countP_cons] at ih hall ⊢
    rw [Finset.sum_add_distrib, ← ih fun m hm => (Nat.add_eq_zero_iff.mp (hall m hm)).1]
    congr 1
    cases μ with
    | ended r outcome =>
      obtain ⟨k, other⟩ := r
      by_cases hone : outcome.meter ⟨k, other⟩ = .compilations tier
      · obtain ⟨artifact, rfl, rfl⟩ : ∃ artifact, outcome = .value artifact ∧ other = tier := by
          cases outcome with
          | value artifact => exact ⟨artifact, rfl, Meter.compilations.inj hone⟩
          | error | panic => cases hone
        have hk : k ∈ methods := by
          by_contra hk
          simpa [Milestone.isSuccess] using hall k hk
        rw [Finset.sum_eq_single_of_mem k hk fun m _ hm => if_neg (by
          simpa [Milestone.isSuccess] using hm.symm)]
        simp [Milestone.isSuccess, Milestone.ending?, Outcome.meter]
      · have hno : ∀ m, (Milestone.ended ⟨k, other⟩ outcome).isSuccess ⟨m, tier⟩ = false := by
          intro m
          cases outcome with
          | value artifact =>
            have hother : other ≠ tier := fun heq => hone (congrArg Meter.compilations heq)
            simp [Milestone.isSuccess, hother]
          | error | panic => simp [Milestone.isSuccess, Outcome.value?]
        simp [Milestone.ending?, hone, hno]
    | _ => simp [Milestone.ending?, Milestone.isSuccess]

theorem sum_range_eq_countP {f : Nat → Nat} (hone : ∀ i, f i ≤ 1) (n : Nat) :
    ∑ i ∈ Finset.range n, f i = (List.range n).countP (0 < f ·) := by
  induction n with
  | zero => rfl
  | succ n ih =>
    rw [Finset.sum_range_succ, ih, List.range_succ, List.countP_append, List.countP_singleton]
    have hlast := hone n
    by_cases hpos : 0 < f n
    · simp [hpos]
      omega
    · simp [hpos]
      omega

/-- Where all methods invoked have numbers below `n`, compilations at a tier are the methods that
were compiled there. -/
theorem Reach.endings_eq_countP {policy : TierPolicy} {h : History α} {o : Outline α}
    (hreach : Reach policy h o) {n : Nat} (hn : n ≤ UInt64.size)
    (hbelow : ∀ m, 0 < h.invocations m → m.val.toNat < n) (tier : Tier) :
    h.endings (.compilations tier) =
      (List.range n).countP fun i => 0 < h.successes ⟨⟨UInt64.ofNat i⟩, tier⟩ := by
  have hone : ∀ r, h.successes r ≤ 1 := by
    intro r
    rcases (hreach.gated r).set_or_clear with ⟨-, hsum⟩ | ⟨-, hsum⟩ <;> omega
  have hinj : Set.InjOn (fun i => MethodId.mk (UInt64.ofNat i)) (Finset.range n) := by
    intro i hi j hj heq
    rw [Finset.coe_range, Set.mem_Iio] at hi hj
    have hnat := congrArg UInt64.toNat (MethodId.mk.inj heq)
    rwa [UInt64.toNat_ofNat_of_lt' (hi.trans_le hn),
      UInt64.toNat_ofNat_of_lt' (hj.trans_le hn)] at hnat
  have hsum := Finset.sum_image (f := fun m => h.successes ⟨m, tier⟩) hinj
  rw [← sum_range_eq_countP fun i => hone _, ← hsum]
  refine h.endings_eq_sum tier fun m hm => ?_
  by_contra hsome
  refine hm (Finset.mem_image.mpr ⟨m.val.toNat, ?_, ?_⟩)
  · exact Finset.mem_range.mpr
      (hbelow m (hreach.invoked.success ⟨m, tier⟩ (Nat.pos_of_ne_zero hsome)))
  · rw [UInt64.ofNat_toNat]

/-! ## Failing calls -/

/-- Whether the compile call of the job ended with an error. -/
def CompileJob.isFailing (job : CompileJob α) : Bool :=
  match job.stage with
  | .failed (.error _) | .released (.error _) | .charged _ | .done (some (.error _)) => true
  | _ => false

/-- Whether the call ends, or has ended, with an error. -/
def Call.isFailing (c : Call α β) : Bool :=
  match c.stage with
  | .compiling job => job.isFailing
  | .returned (.failed _) => true
  | _ => false

theorem CompileJob.isFailing_advance (job : CompileJob α) (unwinding : Bool) (d : Dispatcher α) :
    (job.advance unwinding d).1.isFailing = job.isFailing := by
  obtain ⟨⟨m, tier⟩, stage⟩ := job
  cases stage with
  | recorded artifact =>
    by_cases htaken : (d.cache.place m ⟨tier, artifact⟩).1 <;>
      simp [isFailing, advance, htaken]
  | failed cause => cases cause <;> rfl
  | released cause => cases cause <;> cases unwinding <;> rfl
  | _ => rfl

/-- A call fails with the compiler, not with the dispatcher. -/
theorem Call.isFailing_advance (c : Call α β) (d : Dispatcher α) (hturn : c.turn = .dispatcher) :
    (c.advance d).1.isFailing = c.isFailing := by
  obtain ⟨stage, hnext, hstep⟩ := c.exists_stageStep d hturn
  rw [hnext]
  obtain ⟨m, unwinding, before⟩ := c
  cases hstep with
  | job => exact CompileJob.isFailing_advance _ unwinding d
  | _ => rfl

/-- Whether the compiler tells a caller that it failed. -/
def CallerMove.isRefusal : CallerMove α β → Bool
  | endCompile (.error _) => true
  | _ => false

/-- Whether the engine fails to run for a caller. -/
def CallerMove.isBreakdown : CallerMove α β → Bool
  | endRun (.error _) | endRun (.panic _) => true
  | _ => false

/-- Whether the innermost call is left, and has failed. -/
def CallerMove.givesUp (calls : List (Call α β)) : CallerMove α β → Bool
  | leave => calls.head?.any (·.isFailing)
  | _ => false

/-- A call that fails does so until it is left. -/
theorem StackStep.failing {d d' : Dispatcher α} {move : CallerMove α β}
    {calls calls' : List (Call α β)} (h : StackStep d move calls calls' d')
    (hruns : move.isBreakdown = false) :
    calls'.countP (·.isFailing) + (move.givesUp calls).toNat =
      calls.countP (·.isFailing) + move.isRefusal.toNat := by
  cases h with
  | invoke m unwinding hmay => rw [List.countP_cons]; rfl
  | @advance c outer hturn =>
    rw [List.countP_cons, List.countP_cons, c.isFailing_advance d hturn]
    rfl
  | @beginCompile c job outer hturn hidle =>
    obtain ⟨m, unwinding, stage⟩ := c
    obtain ⟨rfl, hjob⟩ := Call.stage_of_turn_compiler hturn
    obtain ⟨r, stage⟩ := job
    cases stage with
    | holding => rfl
    | compiling => cases hidle
    | _ => cases hjob
  | @endCompile c job outcome outer hturn hbusy =>
    obtain ⟨m, unwinding, stage⟩ := c
    obtain ⟨rfl, hjob⟩ := Call.stage_of_turn_compiler hturn
    obtain ⟨r, stage⟩ := job
    cases stage with
    | compiling =>
      cases outcome <;> simp [Call.concludeCompile, CompileJob.conclude, Call.isFailing,
        CompileJob.isFailing, CallerMove.givesUp, CallerMove.isRefusal]
    | _ => cases hbusy
  | @endRun c found outcome outer hturn =>
    obtain ⟨m, unwinding, stage⟩ := c
    obtain rfl := Call.stage_of_turn_engine hturn
    cases outcome with
    | value v => rfl
    | error | panic => cases hruns
  | @leave c result outer hturn =>
    rw [List.countP_cons]
    by_cases hfailing : c.isFailing <;> simp [CallerMove.givesUp, CallerMove.isRefusal, hfailing]

namespace System

variable {s t : System α β}

/-- Calls that fail and were not left yet. -/
def failing (s : System α β) : Nat :=
  (s.callers.map (·.countP (·.isFailing))).sum

theorem failing_caller {i : Nat} {move : CallerMove α β} (hstep : s.step (.caller i move) = some t)
    (hruns : move.isBreakdown = false) :
    t.failing + (move.givesUp (s.callsOf i)).toNat = s.failing + move.isRefusal.toNat := by
  obtain @⟨_, _, calls, calls', d', hcalls, hmove⟩ := systemStep_of_step hstep
  have hmoved := hmove.failing hruns
  have hsum := sum_map_set (fun calls : List (Call α β) => calls.countP (·.isFailing)) hcalls calls'
  have hown : s.callsOf i = calls := by rw [callsOf, hcalls, Option.getD_some]
  simp only [failing, hown] at hsum ⊢
  omega

theorem failing_worker {i : Nat} {move : WorkerMove α} (hstep : s.step (.worker i move) = some t) :
    t.failing = s.failing := by
  cases systemStep_of_step hstep
  rfl

end System

end TieredDispatch

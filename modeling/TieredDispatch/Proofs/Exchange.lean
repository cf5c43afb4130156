import TieredDispatch.Proofs.Meter
import TieredDispatch.Proofs.RequestGate

/-!
# What a step exchanges

Every step exchanges one piece of work for what it leaves in its place, and may move one meter on
meanwhile. An `Exchange` says that nothing is lost on the way: a call that was made is open until it
comes to the engine or fails to compile; a compile call is on its way until it is counted how it
ended; and a request that was handed to the pool is pending until then. Every move of a call or of
a job is an exchange (`Move.exchange`), unless an error was taken for a panic because its thread
is unwinding: that failure is counted twice.
-/

namespace TieredDispatch

variable {α β : Type}

/-! ## Kinds of milestones -/

namespace Milestone

/-- A call was made, of whatever method. -/
def isCall : Milestone α → Bool
  | invoked _ => true
  | _ => false

/-- The compiler was called, for whatever request. -/
def isCompile : Milestone α → Bool
  | started _ => true
  | _ => false

end Milestone

/-- Calls made, of whatever method. -/
def History.calls (h : History α) : Nat :=
  h.countP (·.isCall)

/-- Compile calls made. -/
def History.compiles (h : History α) : Nat :=
  h.countP (·.isCompile)

/-! ## Kinds of work -/

namespace CompileJob

/-- Whether it is not counted yet how the compilation ends. -/
def isUncounted (job : CompileJob α) : Bool :=
  match job.stage with
  | .holding | .compiling | .compiled _ | .failed _ | .released _ => true
  | .counted _ | .recorded _ | .superseded | .charged _ | .done _ => false

/-- Whether the compiler was called, and it is not counted yet how that ends. -/
def isStarted (job : CompileJob α) : Bool :=
  match job.stage with
  | .holding => false
  | _ => job.isUncounted

/-- Whether the artifact was counted, and may still be counted as superseded. -/
def maySupersede (job : CompileJob α) : Bool :=
  match job.stage with
  | .counted _ | .recorded _ => job.request.tier = .l1
  | .superseded => true
  | _ => false

/-- Whether the job is done and has no artifact. -/
def hasFailed (job : CompileJob α) : Bool :=
  match job.stage with
  | .done failure => failure.isSome
  | _ => false

/-- Whether no error of the job was taken for a panic. -/
def isCalm (job : CompileJob α) : Bool :=
  match job.stage with
  | .charged _ => false
  | _ => true

end CompileJob

namespace Call

/-- The job of a call that compiles inline. -/
def job? (c : Call α β) : Option (CompileJob α) :=
  match c.stage with
  | .compiling job => some job
  | _ => none

/-- Whether the call has neither come to the engine nor failed to compile. -/
def isOpen (c : Call α β) : Bool :=
  match c.stage with
  | .compiling job => !job.hasFailed
  | .running _ | .returned _ => false
  | _ => true

/-- Whether the call has not handed a request on, and it is not counted yet how its compilation
ends, should it have one. -/
def mayCompile (c : Call α β) : Bool :=
  match c.stage with
  | .arriving | .unseen | .seen | .counted _ | .inspecting _ _ | .claiming _ _
  | .promoting _ _ => true
  | .compiling job => job.isUncounted
  | _ => false

/-- Whether the call has handed a request to the pool, and that is not counted yet. -/
def isHandingOver (c : Call α β) : Bool :=
  match c.stage with
  | .queued => true
  | _ => false

/-- Whether the call was granted a request, and hands it on next. -/
def isPromoting (c : Call α β) : Bool :=
  match c.stage with
  | .promoting _ _ => true
  | _ => false

/-- Whether the call was not made while its thread is unwinding, and so no error of its compilation
was taken for a panic. -/
def isCalm (c : Call α β) : Bool :=
  !c.unwinding && c.job?.all (·.isCalm)

end Call

namespace Work

def isOpen : Work α β → Bool
  | call c => c.isOpen
  | job _ | queued _ => false

def isStarted : Work α β → Bool
  | call c => c.job?.any (·.isStarted)
  | job j => j.isStarted
  | queued _ => false

def isHandingOver : Work α β → Bool
  | call c => c.isHandingOver
  | job _ | queued _ => false

/-- Whether the pool has the request, and it is not counted yet how its compilation ends. -/
def isPending : Work α β → Bool
  | call _ => false
  | job j => j.isUncounted
  | queued _ => true

/-- Whether a call compiles the request inline, and it is not counted yet how that ends. -/
def isInline : Work α β → Bool
  | call c => c.job?.any (·.isUncounted)
  | job _ | queued _ => false

def mayCompile : Work α β → Bool
  | call c => c.mayCompile
  | job j => j.isUncounted
  | queued _ => true

def maySupersede : Work α β → Bool
  | call c => c.job?.any (·.maySupersede)
  | job j => j.maySupersede
  | queued _ => false

def isCalm : Work α β → Bool
  | call c => c.isCalm
  | job j => j.isCalm
  | queued _ => true

end Work

/-! ## Kinds of bumps -/

namespace Bump

/-- Whether the bump ends its call's account: the call runs, or has failed to compile inline. -/
def endsCall (b : Bump) : Bool :=
  b.meter.isRun || (b.meter = .failures && !b.pooled)

def isOutcome (b : Bump) : Bool :=
  b.meter.isOutcome

def isPooledOutcome (b : Bump) : Bool :=
  b.meter.isOutcome && b.pooled

def isInlineOutcome (b : Bump) : Bool :=
  b.meter.isOutcome && !b.pooled

end Bump

/-! ## What a step does to a job -/

/-- A step of a job: whether it calls the compiler, the job before, the meter it moves on, and the
job after. -/
structure CompileJob.Exchange (started : Bool) (job : CompileJob α) (k? : Option Meter)
    (next : CompileJob α) : Prop where
  calm : next.isCalm = true
  run : k?.any (·.isRun) = false
  queued : k?.any (· = .queued) = false
  failed : (!job.hasFailed).toNat = (k?.any (· = .failures)).toNat + (!next.hasFailed).toNat
  uncounted : job.isUncounted.toNat = (k?.any (·.isOutcome)).toNat + next.isUncounted.toNat
  compiles : started.toNat + job.isStarted.toNat =
    (k?.any (·.isOutcome)).toNat + next.isStarted.toNat
  superseded : (k?.any (· = .superseded)).toNat + next.maySupersede.toNat ≤
    (k?.any (· = .compilations .l1)).toNat + job.maySupersede.toNat

/-- No artifact of `l2` is refused. -/
theorem CompilationCache.place_fst_l2 (cache : CompilationCache α) (m : MethodId) (artifact : α) :
    (cache.place m ⟨.l2, artifact⟩).1 = true := by
  rw [place_fst]
  cases cache.lookup m with
  | none => rfl
  | some current =>
    obtain ⟨tier, _⟩ := current
    cases tier <;> rfl

namespace CompileJob

theorem exchange_advance (job : CompileJob α) (d : Dispatcher α) (h : job.turn = .dispatcher)
    (hcalm : job.isCalm = true) : Exchange false job job.meter? (job.advance false d).1 := by
  obtain ⟨⟨m, tier⟩, stage⟩ := job
  cases stage with
  | holding | compiling | done _ => cases h
  | charged _ => cases hcalm
  | compiled artifact | counted artifact =>
    cases tier <;> exact ⟨rfl, rfl, rfl, rfl, rfl, rfl, le_rfl⟩
  | recorded artifact =>
    simp only [advance]
    split
    · exact ⟨rfl, rfl, rfl, rfl, rfl, rfl, Nat.zero_le _⟩
    · rename_i hrefused
      cases tier with
      | l1 => exact ⟨rfl, rfl, rfl, rfl, rfl, rfl, le_rfl⟩
      | l2 => exact absurd (d.cache.place_fst_l2 m artifact) hrefused
  | superseded | failed _ => exact ⟨rfl, rfl, rfl, rfl, rfl, rfl, le_rfl⟩
  | released cause => cases cause <;> exact ⟨rfl, rfl, rfl, rfl, rfl, rfl, le_rfl⟩

theorem exchange_begin (job : CompileJob α) (h : job.turn = .compiler)
    (hidle : job.isCompiling = false) : Exchange true job none job.begin := by
  obtain ⟨r, stage⟩ := job
  cases stage with
  | holding => exact ⟨rfl, rfl, rfl, rfl, rfl, rfl, le_rfl⟩
  | compiling => cases hidle
  | _ => cases h

theorem exchange_conclude (job : CompileJob α) (outcome : Outcome α) (h : job.turn = .compiler)
    (hbusy : job.isCompiling = true) : Exchange false job none (job.conclude outcome) := by
  obtain ⟨r, stage⟩ := job
  cases stage with
  | holding => cases hbusy
  | compiling => cases outcome <;> exact ⟨rfl, rfl, rfl, rfl, rfl, rfl, le_rfl⟩
  | _ => cases h

end CompileJob

/-! ## What a step does to a call -/

/-- A step of a call: whether it makes the call, whether it calls the compiler, the call before,
the meter it moves on, the call after, and whether it hands a request to the pool. -/
structure Call.Exchange (started : Bool) (c : Call α β) (k? : Option Meter) (next : Call α β)
    (submitted : Bool) : Prop where
  calm : next.isCalm = true
  calls : c.isOpen.toNat =
    (k?.any fun k => k.isRun || k = .failures).toNat + next.isOpen.toNat
  compiles : started.toNat + (c.job?.any (·.isStarted)).toNat =
    (k?.any (·.isOutcome)).toNat + (next.job?.any (·.isStarted)).toNat
  pooled : (k?.any (· = .queued)).toNat + next.isHandingOver.toNat =
    submitted.toNat + c.isHandingOver.toNat
  superseded : (k?.any (· = .superseded)).toNat + (next.job?.any (·.maySupersede)).toNat ≤
    (k?.any (· = .compilations .l1)).toNat + (c.job?.any (·.maySupersede)).toNat
  bounded : (k?.any (·.isOutcome)).toNat + next.mayCompile.toNat + submitted.toNat ≤
    c.mayCompile.toNat
  kept : (k?.any (·.isOutcome)).toNat + (next.job?.any (·.isUncounted)).toNat ≤
    (c.job?.any (·.isUncounted)).toNat + (c.isPromoting && !submitted).toNat

namespace Call

/-- What happens to the job of a call that compiles inline happens to the call. -/
theorem exchange_compiling {started : Bool} {job next : CompileJob α} {k? : Option Meter}
    (m : MethodId) (h : job.Exchange started k? next) :
    Exchange (β := β) started ⟨m, false, .compiling job⟩ k? ⟨m, false, .compiling next⟩ false := by
  obtain ⟨hcalm, hrun, hqueued, hfailed, huncounted, hcompiles, hsuperseded⟩ := h
  refine ⟨hcalm, ?_, hcompiles, ?_, hsuperseded, huncounted.ge, huncounted.ge⟩
  · cases k? with
    | none => exact hfailed
    | some k =>
      rw [Option.any_some] at hrun hfailed ⊢
      rwa [hrun, Bool.false_or]
  · rw [hqueued]
    rfl

theorem isCalm_iff {c : Call α β} :
    c.isCalm = true ↔ c.unwinding = false ∧ ∀ job ∈ c.job?, job.isCalm = true := by
  simp [isCalm, Option.all_eq_true]

theorem stage_of_isPromoting {c : Call α β} (h : c.isPromoting = true) :
    ∃ tier count, c.stage = .promoting tier count := by
  obtain ⟨m, unwinding, stage⟩ := c
  cases stage with
  | promoting tier count => exact ⟨tier, count, rfl⟩
  | _ => cases h

theorem turn_of_isPromoting {c : Call α β} (h : c.isPromoting = true) : c.turn = .dispatcher := by
  obtain ⟨tier, count, hstage⟩ := stage_of_isPromoting h
  rw [turn, hstage]

theorem exchange_beginCompile {c : Call α β} {job : CompileJob α} (h : c.turn = .compiler job)
    (hidle : job.isCompiling = false) (hcalm : c.isCalm = true) :
    Exchange true c none c.beginCompile false := by
  obtain ⟨m, unwinding, stage⟩ := c
  obtain rfl : unwinding = false := (isCalm_iff.mp hcalm).1
  obtain ⟨rfl, hturn⟩ := stage_of_turn_compiler h
  exact exchange_compiling m (job.exchange_begin hturn hidle)

theorem exchange_concludeCompile {c : Call α β} {job : CompileJob α} (outcome : Outcome α)
    (h : c.turn = .compiler job) (hbusy : job.isCompiling = true) (hcalm : c.isCalm = true) :
    Exchange false c none (c.concludeCompile outcome) false := by
  obtain ⟨m, unwinding, stage⟩ := c
  obtain rfl : unwinding = false := (isCalm_iff.mp hcalm).1
  obtain ⟨rfl, hturn⟩ := stage_of_turn_compiler h
  exact exchange_compiling m (job.exchange_conclude outcome hturn hbusy)

theorem exchange_concludeRun {c : Call α β} {found : Option (CompiledMethod α)}
    (outcome : Outcome β) (h : c.turn = .engine found) (hcalm : c.isCalm = true) :
    Exchange false c none (c.concludeRun outcome) false := by
  obtain ⟨m, unwinding, stage⟩ := c
  obtain rfl := stage_of_turn_engine h
  exact ⟨hcalm, rfl, rfl, rfl, le_rfl, le_rfl, le_rfl⟩

theorem exchange_advance (c : Call α β) (d : Dispatcher α) (h : c.turn = .dispatcher)
    (hcalm : c.isCalm = true) :
    Exchange false c c.meter? (c.advance d).1 (c.submits? d).isSome := by
  obtain ⟨stage, hnext, hstep⟩ := c.exists_stageStep d h
  rw [hnext]
  obtain ⟨m, unwinding, before⟩ := c
  obtain rfl : unwinding = false := (isCalm_iff.mp hcalm).1
  cases hstep with
  | run found => cases found <;> exact ⟨rfl, rfl, rfl, rfl, le_rfl, le_rfl, le_rfl⟩
  | rest | deny => exact ⟨rfl, rfl, rfl, rfl, le_rfl, Nat.zero_le _, le_rfl⟩
  | send tier count hsend =>
    rw [submits?_of_send hsend]
    exact ⟨rfl, rfl, rfl, rfl, le_rfl, le_rfl, le_rfl⟩
  | hold tier count hnone =>
    rw [submits?_of_hold hnone]
    exact ⟨rfl, rfl, rfl, rfl, le_rfl, le_rfl, le_rfl⟩
  | job hjob => exact exchange_compiling m (CompileJob.exchange_advance _ d hjob hcalm)
  | _ => exact ⟨rfl, rfl, rfl, rfl, le_rfl, le_rfl, le_rfl⟩

end Call

/-! ## What a step does to all work -/

/-- A step: whether it makes a call, whether it calls the compiler, the work before, the bump it
makes, and the work after. -/
structure Exchange (d : Dispatcher α) (made started : Bool) (before : Multiset (Work α β))
    (b? : Option Bump) (after : Multiset (Work α β)) : Prop where
  calm : ∀ w ∈ after, w.isCalm = true
  /-- Calls made come to the engine, fail to compile, or are still open. -/
  calls : made.toNat + before.countP (·.isOpen) =
    (b?.any (·.endsCall)).toNat + after.countP (·.isOpen)
  /-- Compile calls made are counted, or will be. -/
  compiles : started.toNat + before.countP (·.isStarted) =
    (b?.any (·.isOutcome)).toNat + after.countP (·.isStarted)
  /-- Requests handed over are pending, or it is counted how they ended. -/
  pooled : (b?.any (·.meter = .queued)).toNat + after.countP (·.isHandingOver) +
      before.countP (·.isPending) =
    (b?.any (·.isPooledOutcome)).toNat + after.countP (·.isPending) +
      before.countP (·.isHandingOver)
  /-- Only artifacts of `l1` are superseded, and they are counted first. -/
  superseded : (b?.any (·.meter = .superseded)).toNat + after.countP (·.maySupersede) ≤
    (b?.any (·.meter = .compilations .l1)).toNat + before.countP (·.maySupersede)
  /-- A call compiles once at most. -/
  bounded : (b?.any (·.isOutcome)).toNat + after.countP (·.mayCompile) ≤
    made.toNat + before.countP (·.mayCompile)
  /-- Only a job of the pool makes a bump of the pool. -/
  site : ∀ b ∈ b?, b.pooled = true → ∃ job, .job job ∈ before
  /-- A call compiles inline only if it cannot hand its request over. -/
  kept : (∀ c, .call c ∈ before → c.isPromoting = true → (c.submits? d).isSome = true) →
    (b?.any (·.isInlineOutcome)).toNat + after.countP (·.isInline) ≤ before.countP (·.isInline)

namespace Exchange

variable {d : Dispatcher α}

/-- What a call leaves behind, with the request it may have handed to the pool. -/
theorem countP_after (p : Work α β → Bool) (next : Call α β) (r? : Option Request) :
    Multiset.countP (p ·) ({.call next} + Multiset.ofList (r?.map .queued).toList) =
      (p (.call next)).toNat + (r?.any fun r => p (.queued r)).toNat := by
  rw [Multiset.countP_add, countP_one]
  cases r? with
  | none => rfl
  | some r =>
    rw [Option.map_some, Option.toList_some, Multiset.coe_singleton, countP_one, Option.any_some]

/-- A step of a call, and the request it may hand to the pool. -/
theorem of_call {started : Bool} {c next : Call α β} {k? : Option Meter} {r? : Option Request}
    (h : c.Exchange started k? next r?.isSome)
    (hr : c.isPromoting = true → (c.submits? d).isSome = true → r?.isSome = true) :
    Exchange d false started {.call c} (k?.map (⟨·, false⟩))
      ({.call next} + Multiset.ofList (r?.map .queued).toList) := by
  obtain ⟨hcalm, hcalls, hcompiles, hpooled, hsuperseded, hbounded, hkept⟩ := h
  constructor
  case calm =>
    intro w hw
    obtain hw | hw := Multiset.mem_add.mp hw
    · rwa [Multiset.mem_singleton.mp hw]
    · rw [Multiset.mem_coe, Option.mem_toList] at hw
      obtain ⟨r, -, rfl⟩ := Option.map_eq_some_iff.mp hw
      rfl
  case site =>
    intro b hb hpool
    obtain ⟨k, -, rfl⟩ := Option.map_eq_some_iff.mp hb
    cases hpool
  case kept =>
    intro hready
    have hhands : (c.isPromoting && !r?.isSome) = false := by
      cases hpromoting : c.isPromoting with
      | false => rfl
      | true =>
        rw [hr hpromoting (hready c (Multiset.mem_singleton_self _) hpromoting)]
        rfl
    rw [hhands, Bool.toNat_false] at hkept
    simp only [countP_one, countP_after, Option.any_map]
    simp only [Work.isInline, Option.any_false, Bump.isInlineOutcome, Bool.not_false, Bool.and_true,
      Bool.toNat_false]
    omega
  all_goals
    simp only [countP_one, countP_after, Option.any_map]
    simp only [Work.isOpen, Work.isStarted, Work.isHandingOver, Work.isPending, Work.maySupersede,
      Work.mayCompile, Option.any_false, Option.any_true, Bump.endsCall, Bump.isOutcome,
      Bump.isPooledOutcome, Bool.and_false, Bool.not_false, Bool.and_true, Bool.toNat_false]
    omega

/-- A step of a call that has nothing to hand to the pool. -/
theorem of_call_alone {started : Bool} {c next : Call α β} {k? : Option Meter}
    (h : c.Exchange started k? next false) (hturn : c.turn ≠ .dispatcher) :
    Exchange d false started {.call c} (k?.map (⟨·, false⟩)) {.call next} := by
  have hpromoting : c.isPromoting ≠ true := fun htrue => hturn (Call.turn_of_isPromoting htrue)
  have hcall : Exchange d false started {.call c} (k?.map (⟨·, false⟩))
      ({.call next} + Multiset.ofList ((none : Option Request).map .queued).toList) :=
    of_call h fun htrue => absurd htrue hpromoting
  rwa [Option.map_none, Option.toList_none, Multiset.coe_nil, add_zero] at hcall

/-- A step of a job of the pool. -/
theorem of_job {started : Bool} {job next : CompileJob α} {k? : Option Meter}
    (h : job.Exchange started k? next) :
    Exchange (β := β) d false started {.job job} (k?.map (⟨·, true⟩)) {.job next} := by
  obtain ⟨hcalm, hrun, hqueued, hfailed, huncounted, hcompiles, hsuperseded⟩ := h
  constructor
  case calm =>
    intro w hw
    rwa [Multiset.mem_singleton.mp hw]
  case site => exact fun _ _ _ => ⟨job, Multiset.mem_singleton_self _⟩
  case kept =>
    intro _
    simp only [countP_one, Option.any_map]
    simp [Work.isInline, Bump.isInlineOutcome]
  all_goals
    simp only [countP_one, Option.any_map]
    simp only [Work.isOpen, Work.isStarted, Work.isHandingOver, Work.isPending, Work.maySupersede,
      Work.mayCompile, Bump.endsCall, Bump.isOutcome, Bump.isPooledOutcome, hrun, hqueued,
      Bool.and_false, Bool.or_false, Bool.not_true, Bool.and_true, Bool.toNat_false]
  case compiles | superseded => assumption
  all_goals omega

/-- A call is made. -/
theorem of_invoke (m : MethodId) :
    Exchange (β := β) d true false 0 none {.call (.arrive m false)} := by
  constructor
  case calm =>
    intro w hw
    rw [Multiset.mem_singleton.mp hw]
    rfl
  case site => exact fun _ hb => (nomatch hb)
  case kept => intro _; simp only [countP_one]; exact le_rfl
  all_goals
    simp only [countP_one, Multiset.countP_zero]
    rfl

/-- A worker takes a request. -/
theorem of_take (r : Request) :
    Exchange (β := β) d false false {.queued r} none {.job (.hold r)} := by
  constructor
  case calm =>
    intro w hw
    rw [Multiset.mem_singleton.mp hw]
    rfl
  case site => exact fun _ hb => (nomatch hb)
  case kept => intro _; simp only [countP_one]; exact le_rfl
  all_goals
    simp only [countP_one]
    rfl

/-- Work that is done goes. -/
theorem of_done {w : Work α β} (hopen : w.isOpen = false) (hstarted : w.isStarted = false)
    (hhanding : w.isHandingOver = false) (hpending : w.isPending = false) :
    Exchange d false false {w} none 0 := by
  constructor
  case calm => exact fun w hw => absurd hw (Multiset.notMem_zero w)
  case site => exact fun _ hb => (nomatch hb)
  case kept => exact fun _ => Nat.zero_le _
  all_goals
    simp only [countP_one, Multiset.countP_zero, hopen, hstarted, hhanding, hpending]
    first | rfl | exact Nat.zero_le _

/-- A step that changes no work. -/
theorem of_nothing : Exchange (β := β) d false false 0 none 0 := by
  constructor
  case calm => exact fun w hw => absurd hw (Multiset.notMem_zero w)
  case site => exact fun _ hb => (nomatch hb)
  case kept => exact fun _ => le_rfl
  all_goals rfl

end Exchange

theorem CompileJob.any_milestone? (job : CompileJob α) :
    job.milestone?.any (·.isCall) = false ∧ job.milestone?.any (·.isCompile) = false := by
  obtain ⟨r, stage⟩ := job
  cases stage <;> exact ⟨rfl, rfl⟩

/-- The dispatcher itself makes no call and calls no compiler. -/
theorem Call.any_milestone? (c : Call α β) (d : Dispatcher α) :
    (c.milestone? d).any (·.isCall) = false ∧ (c.milestone? d).any (·.isCompile) = false := by
  obtain ⟨m, unwinding, stage⟩ := c
  cases stage with
  | claiming tier count =>
    simp only [milestone?]
    split <;> exact ⟨rfl, rfl⟩
  | compiling job => exact job.any_milestone?
  | _ => exact ⟨rfl, rfl⟩

/-- **Every step is an exchange.** A move of a call or of a job exchanges one piece of work, and
moves one meter on at most. -/
theorem Move.exchange {μ? : Option (Milestone α)} {before after : Multiset (Work α β)}
    {d d' : Dispatcher α} (h : Move μ? before d after d') (hcalm : ∀ w ∈ before, w.isCalm = true)
    (hthread : ∀ c, .call c ∈ after → c.unwinding = false) :
    ∃ b? : Option Bump, d'.metrics = b?.elim d.metrics (d.metrics.bump ·.meter) ∧
      Exchange d (μ?.any (·.isCall)) (μ?.any (·.isCompile)) before b? after := by
  cases h with
  | invoke _ m unwinding =>
    obtain rfl : unwinding = false := hthread _ (Multiset.mem_singleton_self _)
    exact ⟨none, rfl, .of_invoke m⟩
  | @advance c _ hturn =>
    obtain ⟨hcall, hcompile⟩ := c.any_milestone? d
    refine ⟨c.meter?.map (⟨·, false⟩), ?_, ?_⟩
    · rw [c.metrics_advance]
      cases c.meter? <;> rfl
    · rw [hcall, hcompile]
      exact .of_call (c.exchange_advance d hturn (hcalm _ (Multiset.mem_singleton_self _)))
        fun _ hsome => hsome
  | @beginCompile c job _ hturn hidle =>
    have hcall := c.exchange_beginCompile hturn hidle (hcalm _ (Multiset.mem_singleton_self _))
    exact ⟨none, rfl, .of_call_alone hcall (by simp [hturn])⟩
  | @endCompile c job _ outcome hturn hbusy =>
    have hcall := c.exchange_concludeCompile outcome hturn hbusy
      (hcalm _ (Multiset.mem_singleton_self _))
    exact ⟨none, rfl, .of_call_alone hcall (by simp [hturn])⟩
  | @endRun c found _ outcome hturn =>
    have hcall := c.exchange_concludeRun outcome hturn (hcalm _ (Multiset.mem_singleton_self _))
    exact ⟨none, rfl, .of_call_alone hcall (by simp [hturn])⟩
  | @leave c result _ hturn =>
    obtain ⟨m, unwinding, stage⟩ := c
    obtain rfl := Call.stage_of_turn_ended hturn
    exact ⟨none, rfl, .of_done rfl rfl rfl rfl⟩
  | take _ r pool => exact ⟨none, rfl, .of_take r⟩
  | @beginJob job _ pool hturn hidle => exact ⟨none, rfl, .of_job (job.exchange_begin hturn hidle)⟩
  | @endJob job _ pool outcome hturn hbusy =>
    exact ⟨none, rfl, .of_job (job.exchange_conclude outcome hturn hbusy)⟩
  | @advanceJob job _ pool hturn =>
    obtain ⟨hcall, hcompile⟩ := job.any_milestone?
    refine ⟨job.meter?.map (⟨·, true⟩), ?_, ?_⟩
    · change (job.advance false d).2.metrics = _
      rw [job.metrics_advance]
      cases job.meter? <;> rfl
    · rw [hcall, hcompile]
      exact .of_job (job.exchange_advance d hturn (hcalm _ (Multiset.mem_singleton_self _)))
  | @finish job failure _ worker hturn =>
    refine ⟨none, ?_, ?_⟩
    · unfold Dispatcher.finishJob
      split <;> rfl
    · obtain ⟨r, rfl⟩ := CompileJob.exists_done_of_turn hturn
      exact .of_done rfl rfl rfl rfl
  | repool _ pool => exact ⟨none, rfl, .of_nothing⟩

end TieredDispatch

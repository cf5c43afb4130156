import TieredDispatch.Proofs.Ledger
import TieredDispatch.Proofs.Work

/-!
# The outline of a system

The **outline** of a system keeps what matters for requests: the **positions** of the work on its
way from an invocation to a published artifact, and the ledger. Every milestone moves one position
and updates the ledger (`Progress`); the steps that are no milestones change nothing
(`outline_step`).

`Reach` is the relation between the histories and the outlines that milestones lead to, from an
outline with no work. Every run of a system stays within it (`reach_of_run`), so an invariant is an
induction on `Reach`, with one case for each milestone.
-/

namespace TieredDispatch

variable {α β : Type}

/-! ## Positions -/

/-- Where a call or a request stands on the way from an invocation to a published artifact. -/
inductive Position (α : Type)
  /-- A call that is not counted yet. -/
  | arriving (m : MethodId)
  /-- A call that has its count; the requested tiers come next. -/
  | counted (m : MethodId) (count : UInt64)
  /-- A call that has read the requested tiers; it decides next. -/
  | inspecting (m : MethodId) (count : UInt64) (requested : RequestSet)
  /-- A call that wants a compilation. -/
  | claiming (r : Request) (count : UInt64)
  /-- A granted request whose compiler has not been called, with a caller, in the queue or with a
  worker. -/
  | waiting (r : Request)
  /-- The compiler is at work. -/
  | compiling (r : Request)
  /-- The compiler failed; the request is still to be given back. -/
  | failing (r : Request)
  /-- The compiler succeeded; the artifact is still to be offered to the cache. -/
  | publishing (r : Request) (artifact : α)

namespace Position

/-- The position holds the request: it was granted, and neither given back nor compiled. -/
def holds (r : Request) : Position α → Bool
  | waiting q | compiling q | failing q => q = r
  | _ => false

/-- The compiler is at work on the request. -/
def compiles (r : Request) : Position α → Bool
  | compiling q => q = r
  | _ => false

/-- The compilation of the request failed, and the request is still to be given back. -/
def fails (r : Request) : Position α → Bool
  | failing q => q = r
  | _ => false

/-- A call of the method that is not counted yet. -/
def arrives (m : MethodId) : Position α → Bool
  | arriving k => k = m
  | _ => false

end Position

/-- The position of a job, until its request is given back or its artifact is offered. -/
def CompileJob.position? (job : CompileJob α) : Option (Position α) :=
  match job.stage with
  | .holding => some (.waiting job.request)
  | .compiling => some (.compiling job.request)
  | .compiled artifact | .counted artifact | .recorded artifact =>
    some (.publishing job.request artifact)
  | .failed _ => some (.failing job.request)
  | .superseded | .released _ | .charged _ | .done _ => none

/-- The position of a call, until it has nothing more to do with compilations. -/
def Call.position? (c : Call α β) : Option (Position α) :=
  match c.stage with
  | .arriving | .unseen | .seen => some (.arriving c.method)
  | .counted count => some (.counted c.method count)
  | .inspecting count requested => some (.inspecting c.method count (requested.getD {}))
  | .claiming tier count => some (.claiming ⟨c.method, tier⟩ count)
  | .promoting tier _ => some (.waiting ⟨c.method, tier⟩)
  | .compiling job => job.position?
  | .denied _ _ | .queued | .selecting | .entering _ | .running _ | .returned _ => none

/-- The position of a piece of work, if it has one. -/
def Work.position? : Work α β → Option (Position α)
  | call c => c.position?
  | job j => j.position?
  | queued r => some (.waiting r)

/-- The positions of some work. -/
def Work.positions (w : Multiset (Work α β)) : Multiset (Position α) :=
  w.filterMap position?

/-- All positions in a system. -/
def System.positions (s : System α β) : Multiset (Position α) :=
  Work.positions s.work

/-! ## What a milestone does to a position -/

/-- A milestone: the position before, the ledger, the position after and the ledger after. -/
inductive Progress : Milestone α → Multiset (Position α) → Ledger α →
    Multiset (Position α) → Ledger α → Prop
  | invoked (m : MethodId) (l : Ledger α) :
      Progress (.invoked m) 0 l {.arriving m} l
  | counted (m : MethodId) (l : Ledger α) :
      Progress (.counted m) {.arriving m} l {.counted m (saturatingAdd (l.counts m) 1)} (l.count m)
  | inspected (m : MethodId) (count : UInt64) (l : Ledger α) :
      Progress (.inspected m) {.counted m count} l {.inspecting m count (l.requested m)} l
  | wanting {m : MethodId} {count : UInt64} {requested : RequestSet} {tier : Tier} {l : Ledger α}
      (h : (l.policy.decide count requested.l1 requested.l2).tier = some tier) :
      Progress (.decided m) {.inspecting m count requested} l {.claiming ⟨m, tier⟩ count} l
  | content {m : MethodId} {count : UInt64} {requested : RequestSet} {l : Ledger α}
      (h : (l.policy.decide count requested.l1 requested.l2).tier = none) :
      Progress (.decided m) {.inspecting m count requested} l 0 l
  | granted {r : Request} {count : UInt64} {l : Ledger α}
      (h : (l.requested r.method).grants r.tier) :
      Progress (.granted r) {.claiming r count} l {.waiting r} (l.mark r)
  | denied {r : Request} {count : UInt64} {l : Ledger α}
      (h : (l.requested r.method).grants r.tier = false) :
      Progress (.denied r) {.claiming r count} l 0 l
  | started (r : Request) (l : Ledger α) :
      Progress (.started r) {.waiting r} l {.compiling r} l
  | succeeded (r : Request) (artifact : α) (l : Ledger α) :
      Progress (.ended r (.value artifact)) {.compiling r} l {.publishing r artifact} l
  | failed (r : Request) {outcome : Outcome α} (l : Ledger α) (h : outcome.value? = none) :
      Progress (.ended r outcome) {.compiling r} l {.failing r} l
  | released (r : Request) (l : Ledger α) :
      Progress (.released r) {.failing r} l 0 (l.unmark r)
  | recorded (r : Request) (artifact : α) (l : Ledger α) :
      Progress (.recorded r) {.publishing r artifact} l {.publishing r artifact} (l.mark r)
  | placed (r : Request) (artifact : α) (l : Ledger α) :
      Progress (.placed r artifact) {.publishing r artifact} l 0 (l.place r artifact)

/-- A step that may be a milestone: if it is none, nothing changes. -/
def Advances (μ? : Option (Milestone α)) (before : Option (Position α)) (l : Ledger α)
    (after : Multiset (Position α)) (l' : Ledger α) : Prop :=
  match μ? with
  | none => after = Multiset.ofList before.toList ∧ l' = l
  | some μ => Progress μ (Multiset.ofList before.toList) l after l'

/-- A step of the dispatcher on a job. -/
theorem CompileJob.advances (job : CompileJob α) (unwinding : Bool) (d : Dispatcher α)
    (h : job.turn = .dispatcher) :
    Advances job.milestone? job.position? d.ledger
      (Multiset.ofList (job.advance unwinding d).1.position?.toList)
      (job.advance unwinding d).2.ledger := by
  rw [job.ledger_advance]
  generalize d.ledger = l
  obtain ⟨r, stage⟩ := job
  cases stage with
  | holding | compiling | done _ => cases h
  | compiled artifact => exact ⟨rfl, rfl⟩
  | counted artifact => exact .recorded r artifact l
  | recorded artifact =>
    simp only [advance]
    split
    · exact .placed r artifact l
    · exact .placed r artifact l
  | superseded => exact ⟨rfl, rfl⟩
  | failed cause => exact .released r l
  | released cause =>
    cases cause with
    | error reason =>
      simp only [advance]
      split
      · exact ⟨rfl, rfl⟩
      · exact ⟨rfl, rfl⟩
    | panic payload => exact ⟨rfl, rfl⟩
  | charged reason => exact ⟨rfl, rfl⟩

/-- The compiler is called for a job. -/
theorem CompileJob.advances_begin (job : CompileJob α) (l : Ledger α) (h : job.turn = .compiler)
    (hidle : job.isCompiling = false) :
    Advances (some (.started job.request)) job.position? l
      (Multiset.ofList job.begin.position?.toList) l := by
  obtain ⟨r, stage⟩ := job
  cases stage with
  | holding => exact .started r l
  | compiling => cases hidle
  | _ => cases h

/-- The compiler's call for a job ends. -/
theorem CompileJob.advances_conclude (job : CompileJob α) (l : Ledger α) (outcome : Outcome α)
    (h : job.turn = .compiler) (hbusy : job.isCompiling = true) :
    Advances (some (.ended job.request outcome)) job.position? l
      (Multiset.ofList (job.conclude outcome).position?.toList) l := by
  obtain ⟨r, stage⟩ := job
  cases stage with
  | holding => cases hbusy
  | compiling =>
    cases outcome with
    | value artifact => exact .succeeded r artifact l
    | error reason => exact .failed r l rfl
    | panic payload => exact .failed r l rfl
  | _ => cases h

/-- A call that compiles inline is where its job is. -/
theorem Call.position?_of_turn {c : Call α β} {job : CompileJob α} (h : c.turn = .compiler job) :
    c.position? = job.position? ∧ c.beginCompile.position? = job.begin.position? ∧
      ∀ outcome, (c.concludeCompile outcome).position? = (job.conclude outcome).position? := by
  obtain ⟨m, unwinding, stage⟩ := c
  obtain ⟨rfl, -⟩ := stage_of_turn_compiler h
  exact ⟨rfl, rfl, fun _ => rfl⟩

/-- A step of the dispatcher on a call. -/
theorem Call.advances (c : Call α β) (d : Dispatcher α) (h : c.turn = .dispatcher) :
    Advances (c.milestone? d) c.position? d.ledger
      (Multiset.ofList (c.advance d).1.position?.toList +
        Multiset.ofList ((c.submits? d).map .waiting).toList)
      (c.advance d).2.ledger := by
  obtain ⟨stage, hnext, hstep⟩ := c.exists_stageStep d h
  rw [c.ledger_advance, hnext]
  obtain ⟨m, unwinding, before⟩ := c
  cases hstep with
  | count => exact .counted m d.ledger
  | inspect count =>
    have hprogress := Progress.inspected m count d.ledger
    rwa [show d.ledger.requested m = _ from (d.cache.requested?_getD m).symm] at hprogress
  | want hwants =>
    simp only [TierState.l1Requested_ofEntry, TierState.l2Requested_ofEntry] at hwants
    exact .wanting hwants
  | rest hrests =>
    simp only [TierState.l1Requested_ofEntry, TierState.l2Requested_ofEntry] at hrests
    exact .content hrests
  | grant tier count hgrants =>
    simp only [milestone?, hgrants, if_true]
    exact .granted (r := ⟨m, tier⟩) hgrants
  | deny tier count hdenies =>
    simp only [milestone?, hdenies, if_false, Bool.false_eq_true]
    exact .denied (r := ⟨m, tier⟩) hdenies
  | send tier count hsend =>
    rw [submits?_of_send hsend]
    exact ⟨rfl, rfl⟩
  | hold tier count hnone =>
    rw [submits?_of_hold hnone]
    exact ⟨rfl, rfl⟩
  | @job job hjob =>
    rw [show Multiset.ofList (Option.map Position.waiting (submits? _ d)).toList = 0 from rfl,
      add_zero]
    have hadvances := job.advances unwinding d hjob
    rwa [job.ledger_advance] at hadvances
  | _ => exact ⟨rfl, rfl⟩

/-! ## What a move does to the positions -/

theorem Work.positions_add (v w : Multiset (Work α β)) :
    positions (v + w) = positions v + positions w :=
  Multiset.filterMap_add position? v w

theorem Work.positions_singleton (w : Work α β) :
    positions {w} = Multiset.ofList w.position?.toList := by
  change Multiset.ofList ([w].filterMap position?) = _
  cases h : w.position? <;> simp [h]

theorem Work.positions_queued (r : Option Request) :
    positions (Multiset.ofList (r.map (queued (α := α) (β := β))).toList) =
      Multiset.ofList (r.map .waiting).toList := by
  cases r <;> rfl

/-- A move of a piece of work moves its position. -/
theorem Move.advances {μ? : Option (Milestone α)} {before after : Multiset (Work α β)}
    {d d' : Dispatcher α} (h : Move μ? before d after d') :
    ∃ position : Option (Position α), Work.positions before = Multiset.ofList position.toList ∧
      Advances μ? position d.ledger (Work.positions after) d'.ledger := by
  cases h with
  | invoke _ m unwinding =>
    refine ⟨none, rfl, ?_⟩
    rw [Work.positions_singleton]
    exact .invoked m d.ledger
  | @advance c _ hturn =>
    refine ⟨_, Work.positions_singleton _, ?_⟩
    rw [Work.positions_add, Work.positions_singleton, Work.positions_queued]
    exact c.advances d hturn
  | @beginCompile c job _ hturn hidle =>
    obtain ⟨hbefore, hafter, -⟩ := Call.position?_of_turn hturn
    refine ⟨c.position?, Work.positions_singleton _, ?_⟩
    rw [Work.positions_singleton, Work.position?, hbefore, hafter]
    exact job.advances_begin _ (Call.stage_of_turn_compiler hturn).2 hidle
  | @endCompile c job _ outcome hturn hbusy =>
    obtain ⟨hbefore, -, hafter⟩ := Call.position?_of_turn hturn
    refine ⟨c.position?, Work.positions_singleton _, ?_⟩
    rw [Work.positions_singleton, Work.position?, hbefore, hafter]
    exact job.advances_conclude _ outcome (Call.stage_of_turn_compiler hturn).2 hbusy
  | @endRun c found _ outcome hturn =>
    obtain ⟨m, unwinding, stage⟩ := c
    obtain rfl := Call.stage_of_turn_engine hturn
    exact ⟨none, Work.positions_singleton _, Work.positions_singleton _, rfl⟩
  | @leave c result _ hturn =>
    obtain ⟨m, unwinding, stage⟩ := c
    obtain rfl := Call.stage_of_turn_ended hturn
    exact ⟨none, Work.positions_singleton _, rfl, rfl⟩
  | take _ r pool => exact ⟨_, Work.positions_singleton _, Work.positions_singleton _, rfl⟩
  | @beginJob job _ pool hturn hidle =>
    refine ⟨job.position?, Work.positions_singleton _, ?_⟩
    rw [Work.positions_singleton]
    exact job.advances_begin _ hturn hidle
  | @endJob job _ pool outcome hturn hbusy =>
    refine ⟨job.position?, Work.positions_singleton _, ?_⟩
    rw [Work.positions_singleton]
    exact job.advances_conclude _ outcome hturn hbusy
  | @advanceJob job _ pool hturn =>
    refine ⟨job.position?, Work.positions_singleton _, ?_⟩
    rw [Work.positions_singleton, Dispatcher.ledger_set_pool]
    exact job.advances false d hturn
  | @finish job failure _ worker hturn =>
    obtain ⟨r, rfl⟩ := CompileJob.exists_done_of_turn hturn
    exact ⟨none, Work.positions_singleton _, rfl, d.ledger_finishJob worker r failure⟩
  | repool _ pool => exact ⟨none, rfl, rfl, rfl⟩

/-! ## Outlines -/

/-- What matters of a system for requests. -/
structure Outline (α : Type) where
  positions : Multiset (Position α)
  ledger : Ledger α

/-- Positions that hold a request. -/
def Outline.held (o : Outline α) (r : Request) : Nat :=
  o.positions.countP (·.holds r)

/-- The outline before anything was done. -/
def Outline.initial (policy : TierPolicy) : Outline α :=
  ⟨0, .initial policy⟩

/-- A milestone moves one position, and the others stay. -/
inductive Outline.Step : Milestone α → Outline α → Outline α → Prop
  | intro {μ : Milestone α} {before after : Multiset (Position α)} {l l' : Ledger α}
      (frame : Multiset (Position α)) (h : Progress μ before l after l') :
      Step μ ⟨before + frame, l⟩ ⟨after + frame, l'⟩

/-- The outline of a system. -/
def System.outline (s : System α β) : Outline α :=
  ⟨s.positions, s.dispatcher.ledger⟩

/-- How often a request is outstanding: granted, and neither given back nor compiled, with a call
in progress, in the queue or in flight. -/
def System.outstanding (s : System α β) (r : Request) : Nat :=
  s.outline.held r

/-- **Milestones are the only steps that matter.** A step that is no milestone leaves the outline
alone. -/
theorem System.outline_step {s t : System α β} {label : Label α β} (hown : label.isOwn)
    (h : s.step label = some t) :
    match s.milestone? label with
    | none => t.outline = s.outline
    | some μ => Outline.Step μ s.outline t.outline := by
  obtain ⟨before, after, frame, hbefore, hafter, hmove⟩ := step_work hown h
  obtain ⟨position, hposition, hadvances⟩ := hmove.advances
  have hs : s.positions = Work.positions before + Work.positions frame := by
    rw [positions, hbefore, Work.positions_add]
  have ht : t.positions = Work.positions after + Work.positions frame := by
    rw [positions, hafter, Work.positions_add]
  rw [outline, outline, hs, ht, hposition]
  cases hμ : s.milestone? label with
  | none =>
    rw [hμ] at hadvances
    obtain ⟨hsame, hledger⟩ := hadvances
    rw [hsame, hledger]
  | some μ =>
    rw [hμ] at hadvances
    exact .intro _ hadvances

/-! ## Runs -/

/-- The histories that milestones make from nothing, each with the outline it leads to. -/
inductive Reach (policy : TierPolicy) : History α → Outline α → Prop
  | start : Reach policy [] (.initial policy)
  | step {h : History α} {μ : Milestone α} {o o' : Outline α} (hreach : Reach policy h o)
      (hstep : Outline.Step μ o o') : Reach policy (h ++ [μ]) o'

/-- Everything that was reached before, when a history goes on. -/
theorem Reach.of_prefix {policy : TierPolicy} {h k : History α} {o : Outline α}
    (hreach : Reach policy h o) (hk : k <+: h) : ∃ o', Reach policy k o' := by
  induction hreach with
  | start =>
    obtain rfl := List.prefix_nil.mp hk
    exact ⟨_, .start⟩
  | step hreach hstep ih =>
    rcases List.prefix_concat_iff.mp hk with rfl | hk
    · exact ⟨_, .step hreach hstep⟩
    · exact ih hk

/-- What was reached before a milestone of a history, with the step that the milestone is. -/
theorem Reach.of_prefix_concat {policy : TierPolicy} {h k : History α} {μ : Milestone α}
    {o : Outline α} (hreach : Reach policy h o) (hk : k ++ [μ] <+: h) :
    ∃ before after, Reach policy k before ∧ Outline.Step μ before after := by
  obtain ⟨after, hafter⟩ := hreach.of_prefix hk
  generalize hh : k ++ [μ] = h' at hafter
  cases hafter with
  | start => simp at hh
  | step hbefore hstep =>
    obtain ⟨rfl, hμ⟩ := List.append_inj' hh rfl
    obtain rfl := List.singleton_inj.mp hμ
    exact ⟨_, _, hbefore, hstep⟩

/-- A step goes on where a run ends. -/
theorem System.reach_step {policy : TierPolicy} {h : History α} {s t : System α β}
    {label : Label α β} (hreach : Reach policy h s.outline) (hown : label.isOwn)
    (hstep : s.step label = some t) :
    Reach policy (h ++ (s.milestone? label).toList) t.outline := by
  have houtline := outline_step hown hstep
  cases hμ : s.milestone? label with
  | none =>
    rw [hμ] at houtline
    rw [Option.toList_none, List.append_nil, houtline]
    exact hreach
  | some μ =>
    rw [hμ] at houtline
    exact .step hreach houtline

/-- Runs go on where other runs end. -/
theorem System.reach_run {policy : TierPolicy} {h : History α} {s t : System α β}
    {labels : List (Label α β)} (hreach : Reach policy h s.outline)
    (hown : ∀ label ∈ labels, label.isOwn) (hrun : s.run labels = some t) :
    Reach policy (h ++ s.history labels) t.outline :=
  history_induction (P := fun h s => Reach policy h s.outline)
    (fun hmem hstep hreach => reach_step hreach (hown _ hmem) hstep) hrun hreach

/-! ## The start of a dispatcher -/

namespace Dispatcher

/-- A dispatcher starts with an accepted configuration only. -/
theorem validate_of_start {config : TierConfig} {d : Dispatcher α} (h : start config = .ok d) :
    config.validate = .ok () := by
  unfold start at h
  cases hvalid : config.validate with
  | error e => simp [hvalid, bind, Except.bind] at h
  | ok => rfl

/-- A dispatcher that starts has at most the warning in its log. -/
theorem exists_log_of_start {config : TierConfig} {d : Dispatcher α} (h : start config = .ok d) :
    ∃ log, d = { ofConfig config with log } ∧ ∀ event ∈ log, event.request? = none := by
  have hvalid := validate_of_start h
  unfold start at h
  rw [hvalid] at h
  by_cases hinverted : config.hasInvertedThresholds
  · simp only [hinverted, if_true] at h
    exact ⟨_, (Except.ok.inj h).symm, List.forall_mem_singleton.mpr rfl⟩
  · simp only [hinverted, Bool.false_eq_true, if_false] at h
    exact ⟨[], (Except.ok.inj h).symm, List.forall_mem_nil _⟩

theorem eq_of_start {config : TierConfig} {d : Dispatcher α} (h : start config = .ok d) :
    ∃ log, d = { ofConfig config with log } := by
  obtain ⟨log, hd, -⟩ := exists_log_of_start h
  exact ⟨log, hd⟩

/-- At the start nothing about any method is in the log. -/
theorem request?_of_mem_log_start {config : TierConfig} {d : Dispatcher α}
    (h : start config = .ok d) : ∀ event ∈ d.log, event.request? = none := by
  obtain ⟨log, rfl, hlog⟩ := exists_log_of_start h
  exact hlog

/-- A dispatcher starts with an empty ledger. -/
theorem ledger_of_start {config : TierConfig} {d : Dispatcher α} (h : start config = .ok d) :
    d.ledger = .initial (.ofConfig config) := by
  obtain ⟨log, rfl⟩ := eq_of_start h
  have hcounts : (UsageCounter.withShards config.shards.toNat).get = fun _ => 0 :=
    funext fun m => UsageCounter.get_withShards _ m
  have hrequested :
      (CompilationCache.withShards config.shards.toNat : CompilationCache α).requested =
        fun _ => {} := by
    funext m
    rw [CompilationCache.requested, CompilationCache.entry_withShards]
  have hactive :
      (CompilationCache.withShards config.shards.toNat : CompilationCache α).lookup =
        fun _ => none := by
    funext m
    rw [CompilationCache.lookup, CompilationCache.entry_withShards]
  rw [ledger_mk, CompilationCache.ledger, ofConfig, hcounts, hrequested, hactive, Ledger.initial]

/-- A dispatcher starts with no work. -/
theorem work_of_start {config : TierConfig} {d : Dispatcher α} (h : start config = .ok d) :
    (d.work : Multiset (Work α β)) = 0 := by
  obtain ⟨log, rfl⟩ := eq_of_start h
  cases hmode : config.mode with
  | synchronous => simp [work, ofConfig, hmode]
  | background => simp [work, ofConfig, hmode, Pool.start, Pool.work, List.flatMap_replicate]

end Dispatcher

theorem System.work_of_start {config : TierConfig} {d : Dispatcher α}
    (h : Dispatcher.start config = .ok d) (callers : Nat) :
    (System.start d callers : System α β).work = 0 := by
  rw [work, start, Dispatcher.work_of_start h]
  simp [List.flatMap_replicate]

/-- A system starts with an empty outline. -/
theorem System.outline_of_start {config : TierConfig} {d : Dispatcher α}
    (h : Dispatcher.start config = .ok d) (callers : Nat) :
    (System.start d callers : System α β).outline = .initial (.ofConfig config) := by
  rw [outline, positions, work_of_start h, start, Dispatcher.ledger_of_start h]
  rfl

theorem System.reach_start {config : TierConfig} {d : Dispatcher α}
    (h : Dispatcher.start config = .ok d) (callers : Nat) :
    Reach (.ofConfig config) [] (System.start d callers : System α β).outline := by
  rw [outline_of_start h]
  exact .start

/-- **Runs stay within reach.** Whatever the host and the schedule do, a run of a system from the
start of its dispatcher leads to an outline within the reach of its history. -/
theorem System.reach_of_run {config : TierConfig} {d : Dispatcher α} {callers : Nat}
    {labels : List (Label α β)} {s : System α β} (hstart : Dispatcher.start config = .ok d)
    (hown : ∀ label ∈ labels, label.isOwn) (hrun : (System.start d callers).run labels = some s) :
    Reach (.ofConfig config) ((System.start d callers).history labels) s.outline :=
  reach_run (reach_start hstart callers) hown hrun

/-! ## Quiet systems -/

/-- Whether a call has returned. -/
def Call.hasReturned (c : Call α β) : Bool :=
  match c.stage with
  | .returned _ => true
  | _ => false

/-- Whether nothing is queued or in flight. -/
def Pool.isIdle {J : Type} (pool : Pool J) : Bool :=
  pool.queue.isEmpty && pool.workers.all (·.job?.isNone)

/-- Whether all calls have returned and nothing is queued or in flight. -/
def System.isQuiet (s : System α β) : Bool :=
  s.callers.all (·.all (·.hasReturned)) && s.dispatcher.pool.all (·.isIdle)

theorem Pool.work_of_isIdle {pool : Pool (CompileJob α)} (h : pool.isIdle) :
    (pool.work : Multiset (Work α β)) = 0 := by
  rw [isIdle, Bool.and_eq_true, List.isEmpty_iff, List.all_eq_true] at h
  obtain ⟨hqueue, hworkers⟩ := h
  have hnone : pool.workers.flatMap (Worker.work (β := β)) = [] := by
    rw [List.flatMap_eq_nil_iff]
    intro worker hmem
    simp [Worker.work, Option.isNone_iff_eq_none.mp (hworkers worker hmem)]
  rw [work, hqueue, hnone]
  rfl

/-- A quiet system has no positions. -/
theorem System.positions_of_isQuiet {s : System α β} (h : s.isQuiet) : s.positions = 0 := by
  rw [isQuiet, Bool.and_eq_true, List.all_eq_true] at h
  obtain ⟨hcallers, hpool⟩ := h
  have hidle : (s.dispatcher.work : Multiset (Work α β)) = 0 := by
    cases hsome : s.dispatcher.pool with
    | none => simp [Dispatcher.work, hsome]
    | some pool =>
      rw [Dispatcher.work_of_pool hsome]
      exact Pool.work_of_isIdle (by simpa [hsome] using hpool)
  rw [positions, work, hidle, add_zero]
  refine Multiset.eq_zero_of_forall_notMem fun p hmem => ?_
  obtain ⟨w, hw, hp⟩ := (Multiset.mem_filterMap _ _).mp hmem
  obtain ⟨calls, hcalls, hin⟩ := List.mem_flatMap.mp (Multiset.mem_coe.mp hw)
  obtain ⟨c, hc, rfl⟩ := List.mem_map.mp hin
  have hreturned := List.all_eq_true.mp (hcallers calls hcalls) c hc
  obtain ⟨m, unwinding, stage⟩ := c
  cases stage <;> simp [Call.hasReturned, Work.position?, Call.position?] at hreturned hp

end TieredDispatch

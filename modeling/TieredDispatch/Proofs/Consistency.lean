import TieredDispatch.Proofs.Collecting

/-!
# The report on a workload

A report brings together what was gathered in three places: the callers count the calls that failed,
the dispatcher keeps its meters, and the main thread looks at the methods. Beside these the compiler
numbers its attempts, and settles by the numbers which of them fail.

**Theorem (`ThreadedWorkload.report_is_consistent`).** The report agrees with itself and with the
options, for any methods picked and for any interleaving of the threads.

What is kept by every step (`ThreadedWorkload.Kept`) relates all of them to one history of the run:
the books of the dispatcher, the attempts of the compiler, the calls made and still to be made, and
what the main thread has seen. When the report is complete, nothing is under way in synchronous
mode, and the history tells each of its numbers.
-/

namespace TieredDispatch

/-- How many of the first attempts fail for these options. -/
def Options.failuresAmong (options : Options) (attempts : Nat) : Nat :=
  match options.failEvery with
  | some n => if 0 < n then attempts / n.toNat else 0
  | none => 0

theorem SimulatedCompiler.failuresAmong_eq {compiler : SimulatedCompiler} {options : Options}
    (hevery : compiler.failEvery = options.failEvery.filter (0 < ·)) :
    compiler.failuresAmong = options.failuresAmong := by
  funext attempts
  rw [failuresAmong, hevery, Options.failuresAmong]
  cases options.failEvery with
  | none => rfl
  | some n => by_cases hn : 0 < n <;> simp [Option.filter, hn]

namespace ThreadedWorkload

variable {options : Options} {h : History SimArtifact} {w w' : ThreadedWorkload}
  {label : Label SimArtifact UInt64} {s : System SimArtifact UInt64}

/-! ## What every step keeps -/

/-- What every step of a workload keeps. -/
structure Kept (options : Options) (h : History SimArtifact) (w : ThreadedWorkload) : Prop where
  same : w.options = options
  host : w.compiler.failEvery = options.failEvery.filter (0 < ·)
  books : System.Books (.ofConfig options.tierConfig) h w.failedCalls w.system
  attempted : Attempted h w
  /-- Calls are made or still to be made. -/
  calls : h.calls + (w.picks.map List.length).sum =
    options.threads.toNat * options.callsPerThread.toNat
  picked : ∀ picks ∈ w.picks, ∀ m ∈ picks, m.val < options.methods
  invoked : ∀ m, 0 < h.invocations m → m.val < options.methods
  collected : Collected w
  pooled : w.system.dispatcher.pool.isSome ↔ options.tierConfig.mode = .background

/-- A step takes a pick for the call that it makes, if it makes one. -/
structure Takes (w : ThreadedWorkload) (μ? : Option (Milestone SimArtifact))
    (picks : List (List MethodId)) : Prop where
  fewer : (μ?.any (·.isCall)).toNat + (picks.map List.length).sum = (w.picks.map List.length).sum
  among : ∀ left ∈ picks, ∀ m ∈ left, ∃ before ∈ w.picks, m ∈ before
  invoked : ∀ m, μ?.any (·.isInvocation m) → ∃ before ∈ w.picks, m ∈ before
  waits : w.isDone → picks = w.picks

/-- A step that makes no call takes no pick. -/
theorem takes_none {μ? : Option (Milestone SimArtifact)} (hnone : ∀ μ ∈ μ?, μ.isCall = false) :
    w.Takes μ? w.picks where
  fewer := by
    rw [(Option.any_eq_false _ _).mpr fun μ hμ => by simp [hnone μ hμ]]
    exact Nat.zero_add _
  among left hleft m hm := ⟨left, hleft, hm⟩
  invoked m hm := by
    obtain ⟨μ, hμ, hinvocation⟩ := (Option.any_eq_true _ _).mp hm
    have hcall := hnone μ hμ
    cases μ with
    | invoked k => cases hcall
    | _ => cases hinvocation
  waits _ := rfl

/-- The call that is made is the one picked. -/
theorem takes_invoke {i : Nat} {m : MethodId} {rest : List MethodId}
    (hpicks : w.picks[i]? = some (m :: rest)) :
    w.Takes (some (.invoked m)) (w.picks.set i rest) where
  fewer := by
    have hsum := sum_map_set List.length hpicks rest
    simp only [List.length_cons] at hsum
    simp only [Option.any_some, Milestone.isCall, Bool.toNat_true]
    omega
  among left hleft k hk := by
    obtain hleft | rfl := List.mem_or_eq_of_mem_set hleft
    · exact ⟨left, hleft, hk⟩
    · exact ⟨_, List.mem_of_getElem? hpicks, List.mem_cons_of_mem m hk⟩
  invoked k hk := by
    obtain rfl : m = k := by simpa [Milestone.isInvocation] using hk
    exact ⟨_, List.mem_of_getElem? hpicks, List.mem_cons_self⟩
  waits hdone := absurd hdone (not_isDone_of_picks hpicks)

/-- A step of the system keeps what is to be kept, if it keeps the attempts. -/
theorem Kept.go {compiler : SimulatedCompiler} {picks : List (List MethodId)}
    {answers : List (Mover × Except String SimArtifact)} {failed : Nat} (hkept : Kept options h w)
    (hgoes : w.Goes label s) (htakes : w.Takes (w.system.milestone? label) picks)
    (hhost : compiler.failEvery = w.compiler.failEvery)
    (hfailed : failed = w.failedCalls + (w.system.givesUp label).toNat)
    (hattempted : Attempted (h ++ (w.system.milestone? label).toList)
      { w with system := s, compiler, picks, answers, failedCalls := failed }) :
    Kept options (h ++ (w.system.milestone? label).toList)
      { w with system := s, compiler, picks, answers, failedCalls := failed } where
  same := hkept.same
  host := hhost.trans hkept.host
  books := hfailed ▸ hkept.books.step hgoes.plain hgoes.step
  attempted := hattempted
  calls := by
    have hcalls := hkept.calls
    have hfewer := htakes.fewer
    rw [History.calls, countP_concat_toList]
    simp only [History.calls] at hcalls
    change _ + (picks.map List.length).sum = _
    omega
  picked left hleft m hm := by
    obtain ⟨before, hbefore, hm⟩ := htakes.among left hleft m hm
    exact hkept.picked before hbefore m hm
  invoked m hm := by
    rw [History.invocations, countP_concat_toList] at hm
    by_cases hnew : (w.system.milestone? label).any (·.isInvocation m)
    · obtain ⟨before, hbefore, hm⟩ := htakes.invoked m hnew
      exact hkept.picked before hbefore m hm
    · refine hkept.invoked m ?_
      rwa [Bool.not_eq_true _ |>.mp hnew, Bool.toNat_false, Nat.add_zero] at hm
  collected := hkept.collected.go hgoes.step hgoes.active htakes.waits ⟨rfl, rfl, rfl, rfl, rfl⟩
  pooled := by
    rw [← hkept.pooled, ← System.isSome_pool_step hgoes.step]

/-- The main thread keeps what is to be kept: it moves nothing but what it has seen itself. -/
theorem Kept.collect {looked loaded : Nat} {tiers : TierCounts} {snapshot : Metrics}
    (hkept : Kept options h w)
    (hcollected : Collected { w with looked, tiers, loaded, snapshot }) :
    Kept options (h ++ (none : Option (Milestone SimArtifact)).toList)
      { w with looked, tiers, loaded, snapshot } := by
  rw [Option.toList_none, List.append_nil]
  exact { hkept with
    attempted := ⟨hkept.attempted.number, hkept.attempted.answered, hkept.attempted.failed⟩
    collected := hcollected }

/-- **What a step of a workload keeps.** -/
theorem Kept.step (hkept : Kept options h w)
    (hfew : options.threads.toNat * options.callsPerThread.toNat < 2 ^ 64) (hstep : Step w w') :
    ∃ μ? : Option (Milestone SimArtifact), Kept options (h ++ μ?.toList) w' := by
  cases hstep with
  | @invoke i m rest s hpicks hstep =>
    have hmilestone : w.system.milestone? (.caller i (.invoke m false)) = some (.invoked m) := by
      obtain ⟨calls, hcalls, -⟩ := Option.bind_eq_some_iff.mp hstep
      simp [System.milestone?, hcalls, CallerMove.milestone?]
    have hgoes : w.Goes (.caller i (.invoke m false)) s :=
      ⟨rfl, hstep, fun hdone => absurd hdone (not_isDone_of_picks hpicks)⟩
    refine ⟨_, hkept.go hgoes ?_ rfl rfl ?_⟩
    · rw [hmilestone]
      exact takes_invoke hpicks
    · refine hkept.attempted.keep ?_ rfl rfl
      rw [hmilestone]
      rintro μ ⟨⟩
      exact ⟨rfl, rfl⟩
  | @ask mover label r s hgoes hstays hmilestone =>
    have hbooks := (hkept.books.step hgoes.plain hgoes.step).compiles_le
    have hnocall : ∀ μ ∈ w.system.milestone? label, μ.isCall = false := by
      rw [hmilestone]
      rintro μ ⟨⟩
      rfl
    refine ⟨_, hkept.go hgoes (takes_none hnocall) ?_ (by rw [hstays]; rfl) ?_⟩
    · change (w.compiler.compile r).2.failEvery = _
      rw [w.compiler.compile_snd]
    · rw [hmilestone] at hbooks ⊢
      refine hkept.attempted.ask ?_
      have hcalls := hkept.calls
      simp only [History.compiles, History.calls, countP_concat_toList, Option.any_some,
        Milestone.isCompile, Milestone.isCall, Bool.toNat_true, Bool.toNat_false] at hbooks hcalls ⊢
      omega
  | @hear mover label r answer s hgoes hstays hanswer hmilestone =>
    have hnocall : ∀ μ ∈ w.system.milestone? label, μ.isCall = false := by
      rw [hmilestone]
      rintro μ ⟨⟩
      rfl
    refine ⟨_, hkept.go hgoes (takes_none hnocall) rfl (by rw [hstays]; rfl) ?_⟩
    rw [hmilestone]
    exact hkept.attempted.hear hanswer
  | @go label s hgoes hstays hminor =>
    have hkinds : ∀ μ ∈ w.system.milestone? label,
        μ.isCall = false ∧ μ.isCompile = false ∧ μ.ending? = none := by
      intro μ hμ
      simpa [Milestone.isMinor, and_assoc] using hminor μ hμ
    refine ⟨_, hkept.go hgoes (takes_none fun μ hμ => (hkinds μ hμ).1) rfl (by rw [hstays]; rfl) ?_⟩
    exact hkept.attempted.keep (fun μ hμ => (hkinds μ hμ).2) rfl rfl
  | @leave i c outer result s hcalls hturn hgoes =>
    have hmilestone : w.system.milestone? (.caller i .leave) = none := by
      simp [System.milestone?, hcalls, CallerMove.milestone?]
    have hgives : w.system.givesUp (.caller i .leave) = c.isFailing := by
      simp [System.givesUp, CallerMove.givesUp, System.callsOf, hcalls]
    have hnone : ∀ μ ∈ w.system.milestone? (.caller i .leave), μ.isCall = false := by
      rw [hmilestone]
      rintro μ ⟨⟩
    have hquiet : ∀ μ ∈ w.system.milestone? (.caller i .leave),
        μ.isCompile = false ∧ μ.ending? = none := by
      rw [hmilestone]
      rintro μ ⟨⟩
    have hstage := Call.stage_of_turn_ended hturn
    cases result with
    | failed error =>
      refine ⟨_, hkept.go hgoes (takes_none hnone) rfl ?_ (hkept.attempted.keep hquiet rfl rfl)⟩
      rw [hgives, Call.isFailing, hstage]
      rfl
    | output | panicked =>
      refine ⟨_, hkept.go hgoes (takes_none hnone) rfl ?_ (hkept.attempted.keep hquiet rfl rfl)⟩
      rw [hgives, Call.isFailing, hstage]
      rfl
  | look hdone hleft => exact ⟨none, hkept.collect (hkept.collected.look hdone hleft)⟩
  | load hdone hall hload =>
    have hcollected := hkept.collected.load hdone hall hload
    obtain ⟨entry, -, hw⟩ := Option.bind_eq_some_iff.mp hload
    obtain rfl := Option.some.inj hw
    exact ⟨none, hkept.collect hcollected⟩

/-! ## Whole runs -/

/-- A workload starts with options that make sense. -/
theorem eq_of_startWorkload {d : Dispatcher SimArtifact} (hstart : startWorkload options = .ok d) :
    options.methods ≠ 0 ∧ options.threads.toNat * options.callsPerThread.toNat < 2 ^ 64 ∧
      Dispatcher.start options.tierConfig = .ok d := by
  unfold startWorkload at hstart
  split at hstart
  · cases hstart
  · split at hstart
    · cases hstart
    · split at hstart
      · cases hstart
      · rename_i hmethods hfew
        refine ⟨hmethods, Nat.lt_of_not_le hfew, ?_⟩
        cases hdispatcher : Dispatcher.start (α := SimArtifact) options.tierConfig with
        | error e => simp [hdispatcher, Except.mapError] at hstart
        | ok d' => simpa [hdispatcher, Except.mapError] using hstart

theorem kept_start {d : Dispatcher SimArtifact} {picks : List (List MethodId)}
    (hstart : Dispatcher.start options.tierConfig = .ok d) (hpicks : options.admits picks) :
    Kept options [] (start options d picks) := by
  rw [Options.admits, Bool.and_eq_true, decide_eq_true_eq, List.all_eq_true] at hpicks
  obtain ⟨hthreads, hall⟩ := hpicks
  have heach : ∀ methods ∈ picks, methods.length = options.callsPerThread.toNat ∧
      ∀ m ∈ methods, m.val < options.methods := by
    intro methods hmethods
    simpa using hall methods hmethods
  constructor
  case same => rfl
  case host => rfl
  case books => exact System.books_start hstart _
  case attempted => exact attempted_start options d picks
  case calls =>
    show 0 + (picks.map List.length).sum = _
    rw [List.map_congr_left fun methods hmethods => (heach methods hmethods).1, List.map_const',
      List.sum_replicate_nat, hthreads, Nat.zero_add]
  case picked => exact fun methods hmethods => (heach methods hmethods).2
  case invoked => exact fun m hm => absurd hm (Nat.lt_irrefl 0)
  case collected => exact collected_start options d picks
  case pooled => exact System.isSome_pool_start hstart

/-- What is kept all the way, by a history of the run. -/
theorem kept_run {schedule : List Mover} (hkept : Kept options h w)
    (hfew : options.threads.toNat * options.callsPerThread.toNat < 2 ^ 64)
    (hrun : w.run schedule = some w') : ∃ h', Kept options h' w' := by
  induction schedule generalizing w h with
  | nil =>
    obtain rfl := Option.some.inj hrun
    exact ⟨h, hkept⟩
  | cons mover schedule ih =>
    obtain ⟨w₁, hstep, hrest⟩ := Option.bind_eq_some_iff.mp hrun
    obtain ⟨μ?, hkept₁⟩ := hkept.step hfew (step_cases hstep)
    exact ih hkept₁ hrest

/-! ## When everything is collected -/

/-- Everything that is reported was collected when the callers were done. -/
theorem Collected.isDone (hcollected : Collected w) (hreported : w.isReported) :
    w.isDone ∧ w.looked = w.options.methods.toNat ∧ w.loaded = 8 := by
  have hloaded : w.loaded = 8 := by
    rw [isReported, decide_eq_true_eq] at hreported
    exact hreported
  refine ⟨?_, hcollected.inOrder (by omega), hloaded⟩
  by_contra hbusy
  have hnone := (hcollected.waits (Bool.not_eq_true _ ▸ hbusy)).2
  omega

/-- Without a pool, what is reported is what the dispatcher shows at the end. -/
theorem Collected.eq_of_isReported (hcollected : Collected w) (hreported : w.isReported)
    (hpool : w.system.dispatcher.pool.isSome = false) :
    w.snapshot = w.system.dispatcher.metrics ∧
      w.tiers = w.system.dispatcher.tiersBelow w.options.methods.toNat := by
  obtain ⟨-, hlooked, hloaded⟩ := hcollected.isDone hreported
  refine ⟨Metrics.toList_injective (List.ext_getElem? fun j => ?_), ?_⟩
  · by_cases hj : j < 8
    · exact hcollected.shown j (by omega) (.inl hpool)
    · rw [List.getElem?_eq_none (Nat.le_of_not_lt hj), List.getElem?_eq_none (Nat.le_of_not_lt hj)]
  · rw [← hlooked]
    exact hcollected.seen hpool

/-- In any case, the runs that are reported are those that the dispatcher shows at the end. -/
theorem Collected.runs_of_isReported (hcollected : Collected w) (hreported : w.isReported) :
    w.snapshot.interpretations = w.system.dispatcher.metrics.interpretations ∧
      w.snapshot.executions = w.system.dispatcher.metrics.executions := by
  obtain ⟨-, -, hloaded⟩ := hcollected.isDone hreported
  have hfirst := hcollected.shown 0 (by omega) (.inr Nat.zero_lt_two)
  have hsecond := hcollected.shown 1 (by omega) (.inr Nat.one_lt_two)
  exact ⟨congrArg Prod.snd (Option.some.inj hfirst), congrArg Prod.snd (Option.some.inj hsecond)⟩

end ThreadedWorkload

/-! ## The methods by their tiers -/

/-- With nothing under way, the tier of a method is the best that it was compiled at. -/
theorem System.tierOf_eq {α β : Type} {policy : TierPolicy} {h : History α} {s : System α β}
    (hreach : Reach policy h s.outline) (hnone : s.outline.positions = 0) (m : MethodId) :
    s.dispatcher.cache.tierOf m =
      if 0 < h.successes ⟨m, .l2⟩ then some .l2
      else if 0 < h.successes ⟨m, .l1⟩ then some .l1
      else none := by
  rw [← h.tier_best? m, ← hreach.published.active_eq_best? hnone m]
  rfl

/-- With nothing under way, the methods at `l2` are the compilations there, and the compilations at
`l1` are the methods that are still there and some of those at `l2`. -/
theorem System.tiersBelow_of_reach {α β : Type} {policy : TierPolicy} {h : History α}
    {s : System α β} (hreach : Reach policy h s.outline) (hnone : s.outline.positions = 0) {n : Nat}
    (hn : n ≤ UInt64.size) (hbelow : ∀ m, 0 < h.invocations m → m.val.toNat < n) :
    let tiers := s.dispatcher.tiersBelow n
    tiers.l2Compiled = h.endings (.compilations .l2) ∧
      tiers.l1Compiled ≤ h.endings (.compilations .l1) ∧
      h.endings (.compilations .l1) ≤ tiers.l1Compiled + tiers.l2Compiled := by
  intro tiers
  have htierOf := System.tierOf_eq hreach hnone
  simp only [tiers, s.dispatcher.tiersBelow_eq, hreach.endings_eq_countP hn hbelow]
  refine ⟨?_, ?_, ?_⟩
  · refine List.countP_congr fun i _ => ?_
    rw [htierOf]
    split_ifs <;> simp_all
  · refine List.countP_mono_left fun i _ htier => ?_
    rw [htierOf] at htier
    split_ifs at htier <;> simp_all
  · -- A method compiled at `l1` is at `l2` by now, or else it is still at `l1`.
    rw [List.countP_eq_countP_filter_add _ _ fun i =>
      s.dispatcher.cache.tierOf ⟨UInt64.ofNat i⟩ = some .l2, Nat.add_comm]
    refine Nat.add_le_add ?_ ?_
    · rw [List.countP_filter]
      refine List.countP_mono_left fun i _ hboth => ?_
      rw [htierOf] at hboth ⊢
      split_ifs at hboth ⊢ <;> simp_all
    · rw [List.countP_filter]
      exact List.countP_mono_left fun i _ hboth => (Bool.and_eq_true _ _ ▸ hboth).2

/-! ## Main result -/

theorem toNat_saturatingAdd {a b : UInt64} (hfew : a.toNat + b.toNat < 2 ^ 64) :
    (saturatingAdd a b).toNat = a.toNat + b.toNat := by
  have hsum : (a + b).toNat = a.toNat + b.toNat := by
    rw [UInt64.toNat_add]
    exact Nat.mod_eq_of_lt hfew
  rw [saturatingAdd, if_neg, hsum]
  rw [UInt64.lt_iff_toNat_lt, hsum]
  omega

/-- A report in which the calls, the attempts to compile and the methods agree. -/
structure WorkloadReport.Balanced (options : Options) (report : WorkloadReport) : Prop where
  failed : report.failedCalls = report.metrics.compilationFailures.toNat
  calls : report.metrics.invocations.toNat + report.failedCalls = report.totalCalls
  /-- Failures are those expected among all attempts. -/
  failures : report.metrics.compilationFailures.toNat = options.failuresAmong
    (report.metrics.l1Compilations.toNat + report.metrics.l2Compilations.toNat +
      report.metrics.compilationFailures.toNat)
  l2 : report.tiers.l2Compiled = report.metrics.l2Compilations.toNat
  l1_le : report.tiers.l1Compiled ≤ report.metrics.l1Compilations.toNat
  le_l1 : report.metrics.l1Compilations.toNat ≤
    report.tiers.l1Compiled + report.tiers.l2Compiled

namespace ThreadedWorkload

variable {options : Options} {h : History SimArtifact} {w : ThreadedWorkload}

section Reported

variable (hkept : Kept options h w) (hreported : w.isReported)
  (hfew : options.threads.toNat * options.callsPerThread.toNat < 2 ^ 64)

include hkept hreported

/-- All calls were made and left. -/
theorem Kept.isClear :
    w.system.isClear ∧ h.calls = options.threads.toNat * options.callsPerThread.toNat := by
  obtain ⟨hdone, -, -⟩ := hkept.collected.isDone hreported
  obtain ⟨hmade, hclear⟩ := isDone_iff.mp hdone
  refine ⟨hclear, ?_⟩
  have hnone : (w.picks.map List.length).sum = 0 := by
    rw [List.sum_eq_zero_iff_forall_eq_nat]
    intro n hn
    obtain ⟨picks, hpicks, rfl⟩ := List.mem_map.mp hn
    rw [hmade picks hpicks]
    rfl
  rw [← hkept.calls, hnone, Nat.add_zero]

include hfew

theorem Kept.balanced (hmode : options.tierConfig.mode = .synchronous) :
    w.report.Balanced options := by
  obtain ⟨hclear, hcalls⟩ := hkept.isClear hreported
  have hpool : w.system.dispatcher.pool.isSome = false := by
    rw [Bool.eq_false_iff, ne_eq, hkept.pooled, hmode]
    decide
  obtain ⟨hsnapshot, htiers⟩ := hkept.collected.eq_of_isReported hreported hpool
  obtain ⟨hfailed, hmade, hcompiles, hendings, hnone⟩ :=
    hkept.books.synchronous hclear (hcalls ▸ hfew) hpool
  rw [hkept.same] at htiers
  obtain ⟨hl2, hl1, hl1'⟩ := System.tiersBelow_of_reach hkept.books.reach hnone
    (Nat.le_of_lt options.methods.toNat_lt) fun m hm => hkept.invoked m hm
  rw [← htiers, ← hendings _ rfl] at hl2 hl1 hl1'
  rw [← hsnapshot] at hfailed hmade hcompiles hl2 hl1 hl1'
  have hended := hkept.books.reach.compiles_eq
  rw [hnone, Multiset.countP_zero, Nat.add_zero] at hended
  have hanswered := hkept.attempted.answered
  obtain hanswers : w.answers = [] := List.eq_nil_of_length_eq_zero (by omega)
  have hattempts := hkept.attempted.failed
  rw [SimulatedCompiler.failuresAmong_eq hkept.host, hanswers, List.countP_nil, Nat.add_zero,
    ← hendings .failures rfl, ← hsnapshot] at hattempts
  constructor
  case failed => exact hfailed
  case calls =>
    show (saturatingAdd w.snapshot.interpretations w.snapshot.executions).toNat + w.failedCalls =
      w.options.threads.toNat * w.options.callsPerThread.toNat
    rw [toNat_saturatingAdd (by omega), hmade, hcalls, hkept.same]
  case failures =>
    rw [hcompiles] at hattempts
    exact hattempts.symm
  case l2 => exact hl2
  case l1_le => exact hl1
  case le_l1 => exact hl1'

theorem Kept.background (hmode : options.tierConfig.mode = .background) :
    w.report.failedCalls = 0 ∧ w.report.metrics.invocations.toNat = w.report.totalCalls := by
  obtain ⟨hclear, hcalls⟩ := hkept.isClear hreported
  obtain ⟨hinterpretations, hexecutions⟩ := hkept.collected.runs_of_isReported hreported
  obtain ⟨hnone, hruns⟩ :=
    hkept.books.background hclear (hcalls ▸ hfew) (hkept.pooled.mpr hmode)
  rw [← hinterpretations, ← hexecutions, hcalls] at hruns
  refine ⟨hnone, ?_⟩
  show (saturatingAdd w.snapshot.interpretations w.snapshot.executions).toNat =
    w.options.threads.toNat * w.options.callsPerThread.toNat
  rw [toNat_saturatingAdd (hruns ▸ hfew), hruns, hkept.same]

end Reported

/-- **Reports are consistent.** Whatever methods the threads pick, and however their steps and those
of the workers are interleaved, a report that is collected shows all calls and all methods. In
synchronous mode the calls that failed are the failures counted, and with the runs they make up all
calls; failures are those expected among all attempts to compile; the methods at `l2` are the
compilations there, and those at `l1` the compilations there except for methods that went on to
`l2`. In background mode no call failed, and the runs are the calls. -/
theorem report_is_consistent {d : Dispatcher SimArtifact} {picks : List (List MethodId)}
    {schedule : List Mover} (hstart : startWorkload options = .ok d) (hpicks : options.admits picks)
    (hrun : (start options d picks).run schedule = some w) (hreported : w.isReported) :
    w.report.totalCalls = options.threads.toNat * options.callsPerThread.toNat ∧
    w.report.tiers.total = options.methods.toNat ∧
    (options.tierConfig.mode = .synchronous → w.report.Balanced options) ∧
    (options.tierConfig.mode = .background →
      w.report.failedCalls = 0 ∧ w.report.metrics.invocations.toNat = w.report.totalCalls) := by
  obtain ⟨-, hfew, hdispatcher⟩ := eq_of_startWorkload hstart
  obtain ⟨h, hkept⟩ := kept_run (kept_start hdispatcher hpicks) hfew hrun
  obtain ⟨-, hlooked, -⟩ := hkept.collected.isDone hreported
  refine ⟨?_, ?_, hkept.balanced hreported hfew, hkept.background hreported hfew⟩
  · rw [report, hkept.same]
  · rw [report, hkept.collected.total, hlooked, hkept.same]

/-- Two threads that take turns, step by step. The third attempt to compile fails, two methods are
compiled at both tiers, one at `l1`, and one not at all. -/
theorem report_is_consistent_taking_turns :
    let options : Options :=
      { threads := 2, methods := 4, callsPerThread := 3, work := 1, l1Threshold := 1,
        l2Threshold := 2, shards := 1, failEvery := some 3 }
    let picks : List (List MethodId) := [[⟨0⟩, ⟨1⟩, ⟨0⟩], [⟨0⟩, ⟨2⟩, ⟨1⟩]]
    let schedule : List Mover := (List.replicate 41 [.thread 0, .thread 1]).flatten ++
      List.replicate 12 (.thread 1) ++ List.replicate 12 .main
    ∃ d w, startWorkload options = .ok d ∧ options.admits picks ∧
      (start options d picks).run schedule = some w ∧ w.isReported ∧
      w.report.tiers.total = 4 ∧ w.report.Balanced options := by
  intro options picks schedule
  have hends : ((startWorkload options).toOption.bind fun d =>
      (start options d picks).run schedule).any (·.isReported) := by
    decide +kernel
  obtain ⟨w, hw, hreported⟩ := (Option.any_eq_true _ _).mp hends
  obtain ⟨d, hd, hrun⟩ := Option.bind_eq_some_iff.mp hw
  have hstart : startWorkload options = .ok d := by
    cases hstart : startWorkload options with
    | error e => simp [hstart, Except.toOption] at hd
    | ok d' => simpa [hstart, Except.toOption] using hd
  have hpicks : options.admits picks := by decide
  obtain ⟨-, htiers, hbalanced, -⟩ := report_is_consistent hstart hpicks hrun hreported
  exact ⟨d, w, hstart, hpicks, hrun, hreported, htiers, hbalanced rfl⟩

end ThreadedWorkload

end TieredDispatch

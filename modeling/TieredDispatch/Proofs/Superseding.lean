import Mathlib.Data.Set.Card
import TieredDispatch.Proofs.Audit
import TieredDispatch.Proofs.Nesting
import TieredDispatch.Proofs.Schedule

/-!
# Superseded artifacts

**Theorem (`superseded_counts_late_methods`).** The meter of superseded artifacts shows for how many
methods both tiers were compiled and the artifact for `l1` was published after the one for `l2`.

An artifact is refused exactly when one of a higher tier was offered before it
(`Reach.refuses_iff`), and no request is offered twice, because none is compiled twice. So the log
and the jobs tell of a request that it was superseded once if its artifact came too late, and
otherwise never (`System.Tallied`); and the meter shows what is in the log.

Where the compiler makes no calls of its own, one request at most is under way. While one for `l1`
is on its way its method has no artifact for `l2` (`Outline.Fresh`), and nothing comes too late.
-/

namespace TieredDispatch

variable {α β : Type} {policy : TierPolicy} {h : History α} {o : Outline α}

/-! ## Artifacts that are offered -/

/-- The only tier below another one is `l1`. -/
theorem Tier.eq_of_lt {low high : Tier} : low < high → low = .l1 ∧ high = .l2 := by
  cases low <;> cases high <;> decide

/-- The artifact of the request is offered to the cache. -/
def Milestone.isPlacement (r : Request) : Milestone α → Bool
  | placed q _ => q = r
  | _ => false

/-- An artifact of the request is on its way into the cache. -/
def Position.publishes (r : Request) : Position α → Bool
  | publishing q _ => q = r
  | _ => false

namespace History

/-- How often an artifact of the request was offered to the cache. -/
def placements (h : History α) (r : Request) : Nat :=
  h.countP (·.isPlacement r)

/-- An artifact of a higher tier was offered for the method. -/
def Outdone (h : History α) (r : Request) : Prop :=
  ∃ tier better, r.tier < tier ∧ .placed ⟨r.method, tier⟩ better ∈ h

/-- An artifact of the request was offered after one of a higher tier. -/
def Overtaken (h : History α) (r : Request) : Prop :=
  ∃ k artifact, k ++ [.placed r artifact] <+: h ∧ Outdone k r

/-- Both tiers of the method were compiled, and the artifact for `l1` was published after the one
for `l2`. -/
structure IsLate (h : History α) (m : MethodId) : Prop where
  compiled : ∀ tier, 0 < h.successes ⟨m, tier⟩
  late : ∃ k artifact better, k ++ [.placed ⟨m, .l1⟩ artifact] <+: h ∧ .placed ⟨m, .l2⟩ better ∈ k

theorem outdone_concat {μ : Milestone α} {r : Request} :
    Outdone (h ++ [μ]) r ↔
      h.Outdone r ∨ ∃ tier better, r.tier < tier ∧ μ = .placed ⟨r.method, tier⟩ better := by
  simp only [Outdone, List.mem_append, List.mem_singleton]
  constructor
  · rintro ⟨tier, better, hlt, hmem | rfl⟩
    · exact .inl ⟨tier, better, hlt, hmem⟩
    · exact .inr ⟨tier, better, hlt, rfl⟩
  · rintro (⟨tier, better, hlt, hmem⟩ | ⟨tier, better, hlt, rfl⟩)
    · exact ⟨tier, better, hlt, .inl hmem⟩
    · exact ⟨tier, better, hlt, .inr rfl⟩

theorem overtaken_concat {μ : Milestone α} {r : Request} :
    Overtaken (h ++ [μ]) r ↔
      h.Overtaken r ∨ (∃ artifact, μ = .placed r artifact) ∧ h.Outdone r := by
  constructor
  · rintro ⟨k, artifact, hk, hbetter⟩
    rcases List.prefix_concat_iff.mp hk with heq | hk
    · obtain ⟨rfl, hμ⟩ := List.append_inj' heq rfl
      exact .inr ⟨⟨artifact, (List.singleton_inj.mp hμ).symm⟩, hbetter⟩
    · exact .inl ⟨k, artifact, hk, hbetter⟩
  · rintro (⟨k, artifact, hk, hbetter⟩ | ⟨⟨artifact, rfl⟩, hbetter⟩)
    · exact ⟨k, artifact, hk.trans (List.prefix_append h [μ]), hbetter⟩
    · exact ⟨h, artifact, List.prefix_rfl, hbetter⟩

/-- What was overtaken was offered. -/
theorem Overtaken.placements_pos {r : Request} (hover : h.Overtaken r) : 0 < h.placements r := by
  obtain ⟨k, artifact, hk, -⟩ := hover
  refine List.countP_pos_iff.mpr ⟨.placed r artifact, ?_, by simp [Milestone.isPlacement]⟩
  exact hk.subset (List.mem_append_right k List.mem_cons_self)

/-- There is no tier above `l2`. -/
theorem not_outdone_l2 (h : History α) (m : MethodId) : ¬ h.Outdone ⟨m, .l2⟩ := by
  rintro ⟨tier, better, hlt, -⟩
  cases (Tier.eq_of_lt hlt).1

theorem not_overtaken_l2 (h : History α) (m : MethodId) : ¬ h.Overtaken ⟨m, .l2⟩ := by
  rintro ⟨k, artifact, -, hbetter⟩
  exact not_outdone_l2 k m hbetter

end History

/-- What was compiled was offered to the cache, or will be. -/
theorem Reach.successes_eq (hreach : Reach policy h o) (r : Request) :
    h.successes r = h.placements r + o.positions.countP (·.publishes r) := by
  have hbalance := hreach.balance (·.publishes r) (·.isSuccess r) (·.isPlacement r)
    (fun _ => false) fun hprogress => ?_
  · simpa [History.successes, History.placements] using hbalance
  · cases hprogress <;> simp only [countP_one, Multiset.countP_zero] <;>
      simp [Position.publishes, Milestone.isSuccess, Milestone.isPlacement, *]

/-- No request is offered twice. -/
theorem Reach.placements_le_one (hreach : Reach policy h o) (r : Request) :
    h.placements r ≤ 1 := by
  have hbalance := hreach.successes_eq r
  rcases (hreach.gated r).set_or_clear with ⟨-, hone⟩ | ⟨-, hnone⟩ <;> omega

/-- What was offered was compiled. -/
theorem Reach.successes_pos (hreach : Reach policy h o) {r : Request} {artifact : α}
    (hmem : .placed r artifact ∈ h) : 0 < h.successes r := by
  have hplaced : 0 < h.placements r :=
    List.countP_pos_iff.mpr ⟨_, hmem, by simp [Milestone.isPlacement]⟩
  have hbalance := hreach.successes_eq r
  omega

/-- After an offer something of a higher tier is published if it was so before, or was offered. -/
theorem Ledger.any_active_place (l : Ledger α) (r q : Request) (artifact : α) :
    ((l.place q artifact).active r.method).any (r.tier < ·.tier) ↔
      (l.active r.method).any (r.tier < ·.tier) ∨ q.method = r.method ∧ r.tier < q.tier := by
  obtain ⟨m, tier⟩ := r
  obtain ⟨k, other⟩ := q
  have htrans : ∀ {low high : Tier}, tier < low → low < high → tier < high := Nat.lt_trans
  rw [active_place]
  split
  · rename_i hhigher
    refine ⟨.inl, fun hany => hany.elim id ?_⟩
    rintro ⟨rfl, hlt⟩
    obtain ⟨compiled, hactive, hcompiled⟩ := (Option.any_eq_true _ _).mp hhigher
    simpa [hactive] using htrans hlt (of_decide_eq_true hcompiled)
  · rename_i hlower
    by_cases hkm : k = m
    · subst hkm
      simp only [Function.update_self, Option.any_some, decide_eq_true_eq, true_and]
      refine ⟨.inr, fun hany => hany.elim (fun hold => ?_) id⟩
      obtain ⟨compiled, hactive, hcompiled⟩ := (Option.any_eq_true _ _).mp hold
      have hlower : ¬ other < compiled.tier := by simpa [hactive] using hlower
      have hle : compiled.tier ≤ other := Nat.le_of_not_lt hlower
      exact Nat.lt_of_lt_of_le (of_decide_eq_true hcompiled) hle
    · simp [Function.update_of_ne (Ne.symm hkm), hkm]

/-- **Artifacts are refused after better ones.** Something of a higher tier is published exactly
when something of a higher tier was offered. -/
theorem Reach.refuses_iff (hreach : Reach policy h o) (r : Request) :
    (o.ledger.active r.method).any (r.tier < ·.tier) ↔ h.Outdone r := by
  induction hreach with
  | start =>
    refine ⟨fun hnone => (nomatch hnone), ?_⟩
    rintro ⟨tier, better, -, hmem⟩
    cases hmem
  | @step h μ o o' hreach hstep ih =>
    rw [History.outdone_concat, ← ih]
    cases hstep with
    | intro frame hprogress =>
      cases hprogress with
      | placed q artifact =>
        rw [Ledger.any_active_place]
        refine or_congr_right ⟨?_, ?_⟩
        · rintro ⟨hmethod, hlt⟩
          exact ⟨q.tier, artifact, hlt, by rw [← hmethod]⟩
        · rintro ⟨tier, better, hlt, heq⟩
          obtain rfl := (Milestone.placed.inj heq).1
          exact ⟨rfl, hlt⟩
      | _ => exact (or_iff_left (fun ⟨_, _, _, heq⟩ => (nomatch heq))).symm

/-- A method is late exactly when its artifact for `l1` was overtaken. -/
theorem Reach.isLate_iff (hreach : Reach policy h o) (m : MethodId) :
    h.IsLate m ↔ h.Overtaken ⟨m, .l1⟩ := by
  constructor
  · rintro ⟨-, k, artifact, better, hk, hbetter⟩
    exact ⟨k, artifact, hk, .l2, better, Nat.lt_succ_self _, hbetter⟩
  · rintro ⟨k, artifact, hk, tier, better, hlt, hbetter⟩
    obtain rfl := (Tier.eq_of_lt hlt).2
    have hplaced : .placed ⟨m, .l1⟩ artifact ∈ h :=
      hk.subset (List.mem_append_right k List.mem_cons_self)
    have hother : .placed ⟨m, .l2⟩ better ∈ h := hk.subset (List.mem_append_left _ hbetter)
    refine ⟨fun tier => ?_, k, artifact, better, hk, hbetter⟩
    cases tier with
    | l1 => exact hreach.successes_pos hplaced
    | l2 => exact hreach.successes_pos hother

/-! ## What a step reports as superseded -/

/-- Whether the job was refused its place, and that is still to be counted and reported. -/
def CompileJob.supersedes (r : Request) (job : CompileJob α) : Bool :=
  match job.stage with
  | .superseded => job.request = r
  | _ => false

/-- Whether an artifact of the request is refused by the cache. -/
def Milestone.isRefusal (cache : CompilationCache α) (r : Request) : Milestone α → Bool
  | placed q artifact => q = r && !(cache.place q.method ⟨q.tier, artifact⟩).1
  | _ => false

theorem CompileJob.superseding_advance (job : CompileJob α) (unwinding : Bool) (d : Dispatcher α)
    (r : Request) :
    (job.milestone?.any (·.isRefusal d.cache r)).toNat + (job.supersedes r).toNat =
      (job.report? unwinding d).toList.count (.superseded r) +
        ((job.advance unwinding d).1.supersedes r).toNat := by
  obtain ⟨q, stage⟩ := job
  cases stage with
  | recorded artifact =>
    by_cases htaken : (d.cache.place q.method ⟨q.tier, artifact⟩).1
    · simp [milestone?, Milestone.isRefusal, supersedes, report?, advance, htaken]
    · simp [milestone?, Milestone.isRefusal, supersedes, report?, advance, htaken]
  | superseded =>
    by_cases hq : q = r <;> simp [milestone?, supersedes, report?, advance, hq]
  | released cause =>
    cases cause with
    | error reason => cases unwinding <;> simp [milestone?, supersedes, report?, advance]
    | panic payload => simp [milestone?, supersedes, report?, advance]
  | _ => simp [milestone?, Milestone.isRefusal, supersedes, report?, advance]

/-- A job that begins or ends its compile call was not refused a place. -/
theorem CompileJob.supersedes_compiler {job : CompileJob α} (h : job.turn = .compiler)
    (r : Request) :
    job.supersedes r = false ∧ job.begin.supersedes r = false ∧
      ∀ outcome, (job.conclude outcome).supersedes r = false := by
  obtain ⟨q, stage⟩ := job
  cases stage with
  | holding => exact ⟨rfl, rfl, fun _ => rfl⟩
  | compiling => exact ⟨rfl, rfl, fun outcome => by cases outcome <;> rfl⟩
  | _ => cases h

/-- A call has nothing to say about superseded artifacts until it has a job. -/
theorem Call.superseded_notMem_reports {c : Call α β} (hnone : c.job? = none) (d : Dispatcher α)
    (r : Request) : .superseded r ∉ c.reports d := by
  obtain ⟨m, unwinding, stage⟩ := c
  cases stage with
  | compiling job => cases hnone
  | _ => simp [reports]

theorem Call.isRefusal_milestone? {c : Call α β} (hnone : c.job? = none) (d : Dispatcher α)
    (r : Request) : (c.milestone? d).any (·.isRefusal d.cache r) = false := by
  obtain ⟨m, unwinding, stage⟩ := c
  cases stage with
  | compiling job => cases hnone
  | claiming tier count =>
    simp only [milestone?]
    split <;> rfl
  | _ => rfl

/-- **Refusals are reported once.** A step adds the artifacts that it is refused to those that are
reported as superseded, or still to be reported. -/
theorem JobStep.superseding {d : Dispatcher α} {μ? : Option (Milestone α)}
    {job? next? : Option (CompileJob α)} {k? : Option Meter} {events : List Event}
    (h : JobStep d μ? job? k? events next?) (r : Request) :
    (μ?.any (·.isRefusal d.cache r)).toNat + (job?.any (CompileJob.supersedes r)).toNat =
      events.count (.superseded r) + (next?.any (CompileJob.supersedes r)).toNat := by
  cases h with
  | still μ? hμ =>
    cases μ? with
    | none => rfl
    | some μ =>
      have hcall := hμ μ rfl
      cases μ with
      | invoked m => rfl
      | _ => cases hcall
  | call c hbefore hafter =>
    rw [Call.isRefusal_milestone? hbefore,
      List.count_eq_zero.mpr (Call.superseded_notMem_reports hbefore d r)]
    rfl
  | keep c hstage =>
    have hnone : c.job? = none := by rw [Call.job?, hstage]
    rw [List.count_eq_zero.mpr (Call.superseded_notMem_reports hnone d r)]
    rfl
  | take q => rfl
  | begin hturn hidle =>
    obtain ⟨hjob, hnext, -⟩ := CompileJob.supersedes_compiler hturn r
    rw [Option.any_some, Option.any_some, Option.any_some, hjob, hnext]
    rfl
  | conclude outcome hturn hbusy =>
    obtain ⟨hjob, -, hnext⟩ := CompileJob.supersedes_compiler hturn r
    rw [Option.any_some, Option.any_some, Option.any_some, hjob, hnext]
    rfl
  | @advance job unwinding hturn => exact job.superseding_advance unwinding d r
  | @finish job failure events hturn hevents =>
    have hsilent : events.count (.superseded r) = 0 := by
      rw [List.count_eq_zero]
      intro hmem
      obtain ⟨payload, heq⟩ := hevents _ hmem
      cases heq
    obtain ⟨q, rfl⟩ := CompileJob.exists_done_of_turn hturn
    rw [hsilent]
    rfl

/-! ## Runs -/

namespace System

variable {s t : System α β} {label : Label α β} {labels : List (Label α β)}

/-- How often an artifact of the request was reported as superseded, or is still to be. -/
def tally (s : System α β) (r : Request) : Nat :=
  s.dispatcher.log.count (.superseded r) + s.jobs.countP (·.supersedes r)

/-- Artifacts that came too late are superseded, each once, and no others. -/
structure Tallied (h : History α) (s : System α β) : Prop where
  once : ∀ r, s.tally r ≤ 1
  late : ∀ r, 0 < s.tally r ↔ h.Overtaken r

theorem tally_step (hstep : s.step label = some t) (r : Request) :
    t.tally r =
      s.tally r + ((s.milestone? label).any (·.isRefusal s.dispatcher.cache r)).toNat := by
  obtain ⟨job?, k?, events, next?, others, hjob, hbefore, hafter, -, hlog⟩ :=
    jobStep_of_step hstep
  have hbalance := hjob.superseding r
  rw [tally, tally, hlog, hbefore, hafter, countP_toList_add, countP_toList_add, List.count_append]
  omega

/-- An artifact is refused in the step in which it is overtaken. -/
theorem isRefusal_iff (hreach : Reach policy h s.outline) (r : Request) :
    (s.milestone? label).any (·.isRefusal s.dispatcher.cache r) ↔
      (∃ artifact, s.milestone? label = some (.placed r artifact)) ∧ h.Outdone r := by
  have hrefuses : (s.dispatcher.cache.lookup r.method).any (r.tier < ·.tier) ↔ h.Outdone r :=
    hreach.refuses_iff r
  cases s.milestone? label with
  | none => simp
  | some μ =>
    cases μ with
    | placed q artifact =>
      by_cases hq : q = r
      · subst hq
        simpa [Milestone.isRefusal, CompilationCache.place_fst] using hrefuses
      · simp [Milestone.isRefusal, hq]
    | _ => simp [Milestone.isRefusal]

theorem overtaken_step (hreach : Reach policy h s.outline) (r : Request) :
    History.Overtaken (h ++ (s.milestone? label).toList) r ↔
      h.Overtaken r ∨ (s.milestone? label).any (·.isRefusal s.dispatcher.cache r) := by
  rw [isRefusal_iff hreach]
  cases s.milestone? label with
  | none => simp
  | some μ => simp [History.overtaken_concat]

theorem tallied_step (hreach : Reach policy h s.outline) (hown : label.isOwn)
    (hstep : s.step label = some t) (htallied : Tallied h s) :
    Tallied (h ++ (s.milestone? label).toList) t := by
  have hboth : ∀ r, t.tally r ≤ 1 ∧
      (0 < t.tally r ↔ History.Overtaken (h ++ (s.milestone? label).toList) r) := by
    intro r
    have hlate := htallied.late r
    have honce := htallied.once r
    rw [tally_step hstep, overtaken_step hreach]
    by_cases hrefused : (s.milestone? label).any (·.isRefusal s.dispatcher.cache r)
    · -- The request is offered now, so it was not before, and nothing was overtaken.
      obtain ⟨⟨artifact, hplaced⟩, -⟩ := (isRefusal_iff hreach r).mp hrefused
      have hfirst : h.placements r + 1 ≤ 1 := by
        simpa [hplaced, History.placements, History.countP_concat, Milestone.isPlacement] using
          (reach_step hreach hown hstep).placements_le_one r
      have hfresh : ¬ h.Overtaken r := fun hover => by
        have hpos := hover.placements_pos
        omega
      have hnone : s.tally r = 0 := by
        by_contra hsome
        exact hfresh (hlate.mp (Nat.pos_of_ne_zero hsome))
      simp [hnone, hrefused]
    · rw [Bool.not_eq_true] at hrefused
      simpa [hrefused] using ⟨honce, hlate⟩
  exact ⟨fun r => (hboth r).1, fun r => (hboth r).2⟩

theorem tallied_start {config : TierConfig} {d : Dispatcher α}
    (hstart : Dispatcher.start config = .ok d) (callers : Nat) :
    Tallied [] (start d callers : System α β) := by
  have hnone : ∀ r, (start d callers : System α β).tally r = 0 := by
    intro r
    have hlog : d.log.count (.superseded r) = 0 := by
      rw [List.count_eq_zero]
      intro hmem
      cases Dispatcher.request?_of_mem_log_start hstart _ hmem
    rw [tally, jobs_of_start hstart, start, hlog]
    rfl
  refine ⟨fun r => ?_, fun r => ?_⟩
  · rw [hnone]
    exact Nat.zero_le 1
  · rw [hnone]
    refine ⟨fun hlt => absurd hlt (Nat.lt_irrefl 0), ?_⟩
    rintro ⟨k, artifact, hk, -⟩
    exact absurd (List.prefix_nil.mp hk) (by simp)

theorem tallied_run (hreach : Reach policy h s.outline) (hown : ∀ label ∈ labels, label.isOwn)
    (hrun : s.run labels = some t) (htallied : Tallied h s) :
    Tallied (h ++ s.history labels) t := by
  refine (history_induction (P := fun h s => Reach policy h s.outline ∧ Tallied h s)
    ?_ hrun ⟨hreach, htallied⟩).2
  rintro h s t label hmem hstep ⟨hreach, htallied⟩
  exact ⟨reach_step hreach (hown label hmem) hstep,
    tallied_step hreach (hown label hmem) hstep htallied⟩

end System

/-! ## Late methods -/

/-- The requests whose artifacts were reported as superseded. -/
def Event.superseded? : Event → Option Request
  | superseded r => some r
  | _ => none

theorem Event.superseded?_eq_some {event : Event} {r : Request} :
    event.superseded? = some r ↔ event = .superseded r := by
  cases event <;> simp [superseded?]

/-- A log that tells of each late method once, and of nothing else as superseded, has as many of
these events as there are late methods. -/
theorem countP_superseded_eq_ncard {log : List Event} {late : Set MethodId}
    (honce : ∀ r, log.count (.superseded r) ≤ 1)
    (hlate : ∀ r, .superseded r ∈ log ↔ r.tier = .l1 ∧ r.method ∈ late) :
    late.Finite ∧ log.countP (Meter.counts .superseded) = late.ncard := by
  let requests := log.filterMap (·.superseded?)
  have hmem : ∀ r, r ∈ requests ↔ .superseded r ∈ log := by
    intro r
    simp [requests, Event.superseded?_eq_some]
  have hnodup : requests.Nodup := by
    refine List.nodup_iff_count_le_one.mpr fun r => ?_
    have hcount : requests.count r = log.count (.superseded r) := by
      rw [List.count_filterMap, List.count_eq_countP]
      exact List.countP_congr fun event _ => by simp [Event.superseded?_eq_some]
    rw [hcount]
    exact honce r
  have himage : (fun m => (⟨m, .l1⟩ : Request)) '' late = ↑requests.toFinset := by
    ext ⟨m, tier⟩
    simp [hmem, hlate, eq_comm, and_comm]
  have hinj : Function.Injective fun m => (⟨m, .l1⟩ : Request) :=
    fun m k heq => (Request.mk.inj heq).1
  have hlength : requests.length = log.countP (Meter.counts .superseded) := by
    rw [List.length_filterMap_eq_countP]
    exact List.countP_congr fun event _ => by
      cases event <;> simp [Event.superseded?, Meter.counts]
  refine ⟨Set.Finite.of_finite_image (himage ▸ Finset.finite_toSet _) hinj.injOn, ?_⟩
  rw [← Set.ncard_image_of_injective late hinj, himage, Set.ncard_coe_finset,
    List.toFinset_card_of_nodup hnodup, hlength]

/-! ## A compiler that makes no calls -/

/-- The request that is on its way to its compile call, or into the cache. -/
def Position.request? : Position α → Option Request
  | waiting r | compiling r | failing r | publishing r _ => some r
  | arriving _ | counted _ _ | inspecting _ _ _ | claiming _ _ => none

/-- A request that is on its way after a milestone was so before, or is granted. -/
theorem Progress.request? {μ : Milestone α} {before after : Multiset (Position α)}
    {l l' : Ledger α} (hprogress : Progress μ before l after l') {p : Position α} (hp : p ∈ after)
    {r : Request} (hr : p.request? = some r) :
    (∃ q ∈ before, q.request? = some r) ∨
      μ = .granted r ∧ (l.requested r.method).grants r.tier := by
  cases hprogress <;> simp only [Multiset.mem_singleton, Multiset.notMem_zero] at hp <;>
    subst hp <;> simp only [Position.request?, Option.some.injEq, reduceCtorEq] at hr
  case granted q count hgrants =>
    subst hr
    exact .inr ⟨rfl, hgrants⟩
  all_goals
    subst hr
    exact .inl ⟨_, Multiset.mem_singleton_self _, rfl⟩

/-- A compile call that succeeds was on its way. -/
theorem Progress.of_isSuccess {μ : Milestone α} {before after : Multiset (Position α)}
    {l l' : Ledger α} (hprogress : Progress μ before l after l') {r : Request}
    (hsuccess : μ.isSuccess r) : ∃ q ∈ before, q.request? = some r := by
  cases hprogress <;> simp only [Milestone.isSuccess, Bool.false_eq_true] at hsuccess
  case succeeded q artifact =>
    rw [Bool.and_eq_true, decide_eq_true_eq] at hsuccess
    obtain ⟨rfl, -⟩ := hsuccess
    exact ⟨_, Multiset.mem_singleton_self _, rfl⟩
  case failed q outcome hnone => simp [hnone] at hsuccess

namespace Outline

/-- One request at most is on its way. -/
def IsSequential (o : Outline α) : Prop :=
  ∀ p ∈ o.positions, ∀ q ∈ o.positions, p.request?.isSome → q.request?.isSome → p = q

/-- While a request for `l1` is on its way, its method was not compiled for `l2`. -/
def Fresh (h : History α) (o : Outline α) : Prop :=
  ∀ p ∈ o.positions, ∀ m, p.request? = some ⟨m, .l1⟩ → h.successes ⟨m, .l2⟩ = 0

theorem Step.fresh {μ : Milestone α} {o' : Outline α} (hstep : Outline.Step μ o o')
    (hgated : ∀ r, Gated h o r) (hone : o.IsSequential) (hfresh : o.Fresh h) :
    o'.Fresh (h ++ [μ]) := by
  cases hstep with
  | @intro before after l l' frame hprogress =>
    intro p hp m hr
    have hsource : (∃ q ∈ before + frame, q.request? = some ⟨m, .l1⟩) ∨
        μ = .granted ⟨m, .l1⟩ ∧ (l.requested m).grants .l1 := by
      rcases Multiset.mem_add.mp hp with hafter | hframe
      · exact (hprogress.request? hafter hr).imp_left fun ⟨q, hq, hqr⟩ =>
          ⟨q, Multiset.mem_add.mpr (.inl hq), hqr⟩
      · exact .inl ⟨p, Multiset.mem_add.mpr (.inr hframe), hr⟩
    rw [History.successes, History.countP_concat]
    rcases hsource with ⟨q, hq, hqr⟩ | ⟨rfl, hgrants⟩
    · have hnone : μ.isSuccess ⟨m, .l2⟩ = false := by
        rw [Bool.eq_false_iff]
        intro hsuccess
        obtain ⟨q', hq', hqr'⟩ := hprogress.of_isSuccess hsuccess
        have hsame :=
          hone q hq q' (Multiset.mem_add.mpr (.inl hq')) (by simp [hqr]) (by simp [hqr'])
        rw [hsame, hqr'] at hqr
        cases hqr
      rw [hnone]
      exact hfresh q hq m hqr
    · rw [Ledger.grants_l1, Bool.and_eq_true, Bool.not_eq_true', Bool.not_eq_true'] at hgrants
      have hbit := (hgated ⟨m, .l2⟩).bit
      rw [hgrants.2, Bool.toNat_false] at hbit
      change h.successes ⟨m, .l2⟩ + 0 = 0
      omega

end Outline

/-- Whether the step is no call that the compiler makes. -/
def System.compilerIsSilent (s : System α β) : Label α β → Bool
  | .caller i (.invoke _ _) => (s.callsOf i).head?.all (·.compiling?.isNone)
  | _ => true

/-- The only caller of a synchronous dispatcher, whose calls are made by the engine at most. -/
structure System.Unnested (s : System α β) : Prop where
  single : s.callers.length = 1
  poolless : s.dispatcher.pool.isSome = false
  below : ∀ c ∈ (s.callsOf 0).tail, ∃ found, c.stage = .running found

theorem StackStep.below {d d' : Dispatcher α} {move : CallerMove α β}
    {calls calls' : List (Call α β)} (h : StackStep d move calls calls' d')
    (hsilent : ∀ m unwinding, move = .invoke m unwinding →
      ∀ c ∈ calls.head?, c.compiling? = none)
    (hbelow : ∀ c ∈ calls.tail, ∃ found, c.stage = .running found) :
    ∀ c ∈ calls'.tail, ∃ found, c.stage = .running found := by
  cases h with
  | invoke m unwinding hmay =>
    cases calls with
    | nil => exact List.forall_mem_nil _
    | cons k outer =>
      exact List.forall_mem_cons.mpr
        ⟨Call.stage_of_isWithHost (hmay k rfl) (hsilent m unwinding rfl k rfl), hbelow⟩
  | leave => exact fun c hc => hbelow c (List.mem_of_mem_tail hc)
  | _ => exact hbelow

namespace System

variable {s t : System α β} {label : Label α β} {labels : List (Label α β)}

theorem unnested_step (hsilent : s.compilerIsSilent label) (hstep : s.step label = some t)
    (h : s.Unnested) : t.Unnested where
  single := (length_callers_step hstep).trans h.single
  poolless := (isSome_pool_step hstep).trans h.poolless
  below := by
    obtain ⟨move, rfl, hmove⟩ | ⟨-, hsame⟩ := step_of_caller 0 hstep
    · refine hmove.below ?_ h.below
      rintro m unwinding rfl c hc
      simpa [compilerIsSilent, Option.mem_def.mp hc] using hsilent
    · rw [hsame]
      exact h.below

/-- Only the innermost call has a request on its way. -/
theorem Unnested.isSequential (h : s.Unnested) : s.outline.IsSequential := by
  have hinnermost : ∀ p ∈ s.outline.positions,
      ∃ c outer, s.callsOf 0 = c :: outer ∧ c.position? = some p := by
    intro p hp
    obtain ⟨w, hw, hwp⟩ := (Multiset.mem_filterMap _ _).mp hp
    cases w with
    | job _ | queued _ =>
      have hpool := isSome_pool_of_mem_work hw nofun
      rw [h.poolless] at hpool
      cases hpool
    | call c =>
      obtain ⟨i, hc⟩ := call_mem_work.mp hw
      obtain rfl := eq_zero_of_mem_callsOf h.single hc
      cases hcalls : s.callsOf 0 with
      | nil =>
        rw [hcalls] at hc
        cases hc
      | cons k outer =>
        have hbelow := h.below
        rw [hcalls] at hc hbelow
        obtain rfl | hc := List.mem_cons.mp hc
        · exact ⟨c, outer, rfl, hwp⟩
        · obtain ⟨found, hstage⟩ := hbelow c hc
          rw [Work.position?, Call.position?, hstage] at hwp
          cases hwp
  intro p hp q hq _ _
  obtain ⟨c, outer, hcalls, hcp⟩ := hinnermost p hp
  obtain ⟨c', outer', hcalls', hcq⟩ := hinnermost q hq
  obtain ⟨rfl, -⟩ := List.cons.inj (hcalls.symm.trans hcalls')
  exact Option.some.inj (hcp.symm.trans hcq)

/-- Where the compiler makes no calls, no artifact comes too late. -/
theorem not_overtaken_step (hreach : Reach policy h s.outline) (hfresh : s.outline.Fresh h)
    (hown : label.isOwn) (hstep : s.step label = some t) (hnone : ∀ r, ¬ h.Overtaken r)
    (r : Request) : ¬ History.Overtaken (h ++ (s.milestone? label).toList) r := by
  rw [overtaken_step hreach, isRefusal_iff hreach]
  rintro (hover | ⟨⟨artifact, hplaced⟩, tier, better, hlt, hbetter⟩)
  · exact hnone r hover
  · have houtline := outline_step hown hstep
    rw [hplaced] at houtline
    have hpublishing : .publishing r artifact ∈ s.outline.positions := by
      generalize s.outline = o, t.outline = o' at houtline
      cases houtline with
      | intro frame hprogress =>
        cases hprogress
        exact Multiset.mem_add.mpr (.inl (Multiset.mem_singleton_self _))
    obtain ⟨m, own⟩ := r
    obtain ⟨rfl, rfl⟩ : own = .l1 ∧ tier = .l2 := Tier.eq_of_lt hlt
    have hsuccess := hreach.successes_pos hbetter
    rw [hfresh _ hpublishing m rfl] at hsuccess
    exact Nat.lt_irrefl 0 hsuccess

end System

namespace System

variable {s t : System α β} {labels : List (Label α β)}

/-- What holds of a run in which the compiler makes no calls. -/
structure Orderly (policy : TierPolicy) (h : History α) (s : System α β) : Prop where
  reach : Reach policy h s.outline
  unnested : s.Unnested
  fresh : s.outline.Fresh h
  timely : ∀ r, ¬ h.Overtaken r

theorem orderly_step {label : Label α β} (hown : label.isOwn) (hsilent : s.compilerIsSilent label)
    (hstep : s.step label = some t) (h' : Orderly policy h s) :
    Orderly policy (h ++ (s.milestone? label).toList) t where
  reach := reach_step h'.reach hown hstep
  unnested := unnested_step hsilent hstep h'.unnested
  timely := not_overtaken_step h'.reach h'.fresh hown hstep h'.timely
  fresh := by
    have houtline := outline_step hown hstep
    cases hμ : s.milestone? label with
    | none =>
      rw [hμ] at houtline
      rw [houtline, Option.toList_none, List.append_nil]
      exact h'.fresh
    | some μ =>
      rw [hμ] at houtline
      exact houtline.fresh h'.reach.gated h'.unnested.isSequential h'.fresh

theorem orderly_start {config : TierConfig} {d : Dispatcher α}
    (hstart : Dispatcher.start config = .ok d) (hmode : config.mode = .synchronous) :
    Orderly (.ofConfig config) [] (start d 1 : System α β) where
  reach := reach_start hstart 1
  unnested := by
    refine ⟨rfl, ?_, ?_⟩
    · rw [start, pool_eq_none_start hstart hmode, Option.isSome_none]
    · rw [callsOf_start]
      exact List.forall_mem_nil _
  fresh p hp := by
    rw [outline_of_start hstart] at hp
    exact absurd hp (Multiset.notMem_zero p)
  timely r := by
    rintro ⟨k, artifact, hk, -⟩
    exact absurd (List.prefix_nil.mp hk) (by simp)

theorem orderly_run {config : TierConfig} {d : Dispatcher α}
    (hstart : Dispatcher.start config = .ok d) (hmode : config.mode = .synchronous)
    (hown : ∀ label ∈ labels, label.isOwn) (hobeys : (start d 1).obeys compilerIsSilent labels)
    (hrun : (start d 1).run labels = some s) :
    Orderly (.ofConfig config) ((start d 1).history labels) s :=
  obeys_induction (fun hmem hrule hstep hs => orderly_step (hown _ hmem) hrule hstep hs) hobeys hrun
    (orderly_start hstart hmode)

/-- The meter shows what the log tells. -/
theorem Audited.superseded_eq (h : s.Audited) :
    s.dispatcher.metrics.supersededPublishes =
      UInt64.ofNat (s.dispatcher.log.countP (Meter.counts .superseded)) := by
  have hnone : s.jobs.countP (·.owes .superseded) = 0 := by
    refine Multiset.countP_eq_zero.mpr fun job _ => ?_
    unfold CompileJob.owes
    split <;> simp
  have hvalue := h .superseded rfl
  rwa [hnone, Nat.add_zero] at hvalue

/-- With nothing on its way into the cache, everything that was superseded is in the log. -/
theorem tally_eq (hsettled : ∀ job ∈ s.jobs, job.isPublishing = false) (r : Request) :
    s.tally r = s.dispatcher.log.count (.superseded r) := by
  have hnone : s.jobs.countP (·.supersedes r) = 0 := by
    refine Multiset.countP_eq_zero.mpr fun job hjob hsupersedes => ?_
    have hquiet := hsettled job hjob
    obtain ⟨q, stage⟩ := job
    cases stage with
    | superseded => cases hquiet
    | _ => cases hsupersedes
  rw [tally, hnone, Nat.add_zero]

end System

/-! ## Main result -/

/-- **Superseded publishes are counted exactly.** Take any run of a dispatcher, in either mode, with
any number of callers and workers, calls nested at any depth and any order of completion.

- Whenever no artifact is on its way into the cache, the meter of superseded artifacts shows the
  number of methods both tiers of which were compiled, and whose artifact for `l1` was published
  after the one for `l2`.
- At any time the log tells of each method at most once that its artifact for `l1` was superseded,
  and never of an artifact for `l2`; and with nothing on its way it tells exactly of the methods
  above.
- With a single caller of a synchronous dispatcher whose compiler makes no calls, the meter stays
  at zero. -/
theorem superseded_counts_late_methods {config : TierConfig} {d : Dispatcher α} {callers : Nat}
    {labels : List (Label α β)} {s : System α β} (hstart : Dispatcher.start config = .ok d)
    (hown : ∀ label ∈ labels, label.isOwn)
    (hrun : (System.start d callers).run labels = some s) :
    let h := (System.start d callers).history labels
    let superseded := s.dispatcher.metrics.supersededPublishes
    ((∀ job ∈ s.jobs, job.isPublishing = false) →
      {m | h.IsLate m}.Finite ∧ superseded = UInt64.ofNat {m | h.IsLate m}.ncard) ∧
    (∀ m, s.dispatcher.events.count (.superseded ⟨m, .l1⟩) ≤ 1 ∧
      .superseded ⟨m, .l2⟩ ∉ s.dispatcher.events ∧
      ((∀ job ∈ s.jobs, job.isPublishing = false) →
        (.superseded ⟨m, .l1⟩ ∈ s.dispatcher.events ↔ h.IsLate m))) ∧
    (config.mode = .synchronous → callers = 1 →
      (System.start d callers).obeys System.compilerIsSilent labels = true → superseded = 0) := by
  intro h superseded
  have hreach := System.reach_of_run hstart hown hrun
  have htallied : System.Tallied h s := System.tallied_run (System.reach_start hstart callers) hown
    hrun (System.tallied_start hstart callers)
  have hshown := (System.audited_of_run hstart hrun).superseded_eq
  have honce : ∀ r, s.dispatcher.log.count (.superseded r) ≤ 1 :=
    fun r => (Nat.le_add_right _ _).trans (htallied.once r)
  have hnever : ∀ r, ¬ h.Overtaken r → .superseded r ∉ s.dispatcher.log := by
    intro r htimely hmem
    refine htimely ((htallied.late r).mp (Nat.add_pos_left ?_ _))
    exact List.count_pos_iff.mpr hmem
  have htold : (∀ job ∈ s.jobs, job.isPublishing = false) →
      ∀ r, .superseded r ∈ s.dispatcher.log ↔ r.tier = .l1 ∧ h.IsLate r.method := by
    intro hsettled r
    rw [← List.count_pos_iff, ← System.tally_eq hsettled, htallied.late]
    obtain ⟨m, tier⟩ := r
    cases tier with
    | l1 => simp [hreach.isLate_iff, h]
    | l2 => simp [History.not_overtaken_l2]
  refine ⟨fun hsettled => ?_, fun m => ⟨?_, fun hmem => ?_, fun hsettled => ?_⟩, ?_⟩
  · obtain ⟨hfinite, hcount⟩ : {m | h.IsLate m}.Finite ∧ _ = {m | h.IsLate m}.ncard :=
      countP_superseded_eq_ncard honce (htold hsettled)
    exact ⟨hfinite, by rw [← hcount]; exact hshown⟩
  · rw [Dispatcher.events, List.count_reverse]
    exact honce _
  · exact hnever _ (History.not_overtaken_l2 h m) (List.mem_reverse.mp hmem)
  · rw [Dispatcher.events, List.mem_reverse, htold hsettled]
    simp
  · rintro hmode rfl hsilent
    have horderly := System.orderly_run hstart hmode hown hsilent hrun
    have hnone : s.dispatcher.log.countP (Meter.counts .superseded) = 0 := by
      refine List.countP_eq_zero.mpr fun event hmem hcounts => ?_
      cases event with
      | superseded r => exact hnever r (horderly.timely r) hmem
      | _ => cases hcounts
    exact hshown.trans (by rw [hnone]; rfl)

/-- The first caller is compiling at `l1` when the second one publishes `l2`, and comes too late. -/
def publishingLate : List (Label Nat Nat) :=
  publishing ++ .caller 0 (.endCompile (.value 7)) :: List.replicate 4 (.caller 0 .advance)

theorem superseded_counts_late_methods_publishing :
    let d : Dispatcher Nat := .ofConfig (.withThresholds 1 2)
    let h := (System.start d 2).history publishingLate
    (∃ s, (System.start d 2).run publishingLate = some s ∧ h.IsLate ⟨0⟩ ∧
      s.dispatcher.metrics.supersededPublishes = UInt64.ofNat {m | h.IsLate m}.ncard) ∧
    ∃ s, (System.start d 1).run retrying = some s ∧
      s.dispatcher.metrics.supersededPublishes = 0 := by
  intro d h
  have hstart : Dispatcher.start (.withThresholds 1 2) = .ok d := rfl
  refine ⟨?_, ?_⟩
  · have hruns : ((System.start d 2).run publishingLate).any fun s =>
        (∀ job ∈ s.jobs, job.isPublishing = false) &&
          (.superseded ⟨⟨0⟩, .l1⟩ : Event) ∈ s.dispatcher.events := by
      decide +kernel
    obtain ⟨s, hrun, hs⟩ := (Option.any_eq_true _ _).mp hruns
    rw [Bool.and_eq_true, decide_eq_true_eq, decide_eq_true_eq] at hs
    obtain ⟨hmeter, hlog, -⟩ := superseded_counts_late_methods hstart (by decide) hrun
    exact ⟨s, hrun, ((hlog ⟨0⟩).2.2 hs.1).mp hs.2, (hmeter hs.1).2⟩
  · have hruns : ((System.start d 1).run retrying).isSome := by decide +kernel
    obtain ⟨s, hrun⟩ := Option.isSome_iff_exists.mp hruns
    have hresult := superseded_counts_late_methods hstart (by decide) hrun
    exact ⟨s, hrun, hresult.2.2 rfl rfl (by decide +kernel)⟩

end TieredDispatch

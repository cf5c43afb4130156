import TieredDispatch.Proofs.Meter
import TieredDispatch.Proofs.Nesting
import TieredDispatch.Proofs.Reports

/-!
# A single caller

**Theorem (`wanted_is_granted`).** With a single caller, whatever the policy asks for is granted:
no request is ever denied, in either mode, at any depth of calls, and wherever the steps of the
workers fall.

The policy asks for what the gate would grant in the state that the call has read
(`TierPolicy.grants_of_decide`). Until the call claims it, no bit is set that was clear then
(`Position.Unopposed`): a bit is set by a grant, and of a single caller only the innermost call is
between reading and claiming; or it is set by the first half of a publication, where it is set
already.
-/

namespace TieredDispatch

variable {α β : Type} {policy : TierPolicy} {h : History α} {o o' : Outline α} {l l' : Ledger α}
  {p : Position α} {μ : Milestone α}

/-! ## Between reading and claiming -/

namespace Position

/-- A call has read the requested tiers, and has not claimed what it wants. -/
def isDeciding : Position α → Bool
  | inspecting _ _ _ | claiming _ _ => true
  | _ => false

/-- Nothing was requested since the call read the requested tiers, so that it is granted what it
wants. -/
def Unopposed (l : Ledger α) : Position α → Prop
  | inspecting m _ requested => ∀ tier, l.isRequested ⟨m, tier⟩ → requested.contains tier
  | claiming r _ => (l.requested r.method).grants r.tier
  | _ => True

/-- Clearing bits opposes nobody. -/
theorem Unopposed.mono (hclears : ∀ r, l'.isRequested r → l.isRequested r)
    (hunopposed : p.Unopposed l) : p.Unopposed l' := by
  cases p with
  | inspecting m count requested =>
    exact fun tier hset => hunopposed tier (hclears ⟨m, tier⟩ hset)
  | claiming r count =>
    rw [Unopposed, RequestSet.grants_iff] at hunopposed ⊢
    exact fun higher hle hset => hunopposed higher hle (hclears ⟨r.method, higher⟩ hset)
  | _ => trivial

theorem unopposed_of_not_isDeciding (hp : p.isDeciding = false) : p.Unopposed l := by
  cases p with
  | inspecting _ _ _ | claiming _ _ => cases hp
  | _ => trivial

end Position

namespace Progress

variable {before after : Multiset (Position α)}

/-- Only a grant sets bits, as what is published for is requested already. -/
theorem clears (hprogress : Progress μ before l after l')
    (hpublishing : ∀ r artifact, .publishing r artifact ∈ before → l.isRequested r) :
    (∀ r, l'.isRequested r → l.isRequested r) ∨ ∃ r count, before = {.claiming r count} := by
  cases hprogress with
  | @granted r count _ hgrants => exact .inr ⟨r, count, rfl⟩
  | counted m => exact .inl fun r hset => by rwa [l.isRequested_count] at hset
  | released q =>
    refine .inl fun r hset => ?_
    rw [l.isRequested_unmark, Bool.and_eq_true] at hset
    exact hset.2
  | recorded q artifact =>
    refine .inl fun r hset => ?_
    rw [l.isRequested_mark, Bool.or_eq_true, decide_eq_true_iff] at hset
    rcases hset with rfl | hset
    · exact hpublishing r artifact (Multiset.mem_singleton_self _)
    · exact hset
  | placed q artifact => exact .inl fun r hset => by rwa [l.isRequested_place] at hset
  | _ => exact .inl fun _ hset => hset

/-- What a call has read is what is requested now, and what the policy asks for would be granted. -/
theorem unopposed (hprogress : Progress μ before l after l')
    (hunopposed : ∀ p ∈ before, p.Unopposed l) : ∀ p ∈ after, p.Unopposed l' := by
  intro p hp
  cases hprogress with
  | inspected m count =>
    obtain rfl := Multiset.mem_singleton.mp hp
    exact fun tier hset => hset
  | @wanting m count requested tier _ hdecide =>
    obtain rfl := Multiset.mem_singleton.mp hp
    have hread : ∀ tier, l.isRequested ⟨m, tier⟩ → requested.contains tier :=
      hunopposed _ (Multiset.mem_singleton_self _)
    have hgrants := (requested.grants_iff tier).mp (TierPolicy.grants_of_decide hdecide)
    exact ((l.requested m).grants_iff tier).mpr fun higher hle hset =>
      hgrants higher hle (hread higher hset)
  | content | denied | released | placed => exact absurd hp (Multiset.notMem_zero p)
  | _ =>
    obtain rfl := Multiset.mem_singleton.mp hp
    trivial

/-- Who is unopposed is not denied. -/
theorem ne_denied (hprogress : Progress μ before l after l')
    (hunopposed : ∀ p ∈ before, p.Unopposed l) (r : Request) : μ ≠ .denied r := by
  rintro rfl
  cases hprogress with
  | denied hdenied =>
    have hgrants : (l.requested r.method).grants r.tier :=
      hunopposed _ (Multiset.mem_singleton_self _)
    rw [hdenied] at hgrants
    cases hgrants

end Progress

/-- As long as one call at most is between reading and claiming, it is unopposed. -/
theorem Outline.Step.unopposed (hstep : Outline.Step μ o o') (hgated : ∀ r, Gated h o r)
    (hone : o.positions.countP (·.isDeciding) ≤ 1)
    (hunopposed : ∀ p ∈ o.positions, p.Unopposed o.ledger) :
    (∀ p ∈ o'.positions, p.Unopposed o'.ledger) ∧ ∀ r, μ ≠ .denied r := by
  cases hstep with
  | @intro before after l l' frame hprogress =>
    have hbefore : ∀ p ∈ before, p.Unopposed l :=
      fun p hp => hunopposed p (Multiset.mem_add.mpr (.inl hp))
    refine ⟨fun p hp => ?_, hprogress.ne_denied hbefore⟩
    rcases Multiset.mem_add.mp hp with hafter | hframe
    · exact hprogress.unopposed hbefore p hafter
    · have hpublishing : ∀ r artifact, .publishing r artifact ∈ before → l.isRequested r :=
        fun r artifact hmem => (hgated r).of_artifact
          ((hgated r).source artifact (Multiset.mem_add.mpr (.inl hmem)))
      rcases hprogress.clears hpublishing with hclears | ⟨r, count, rfl⟩
      · exact (hunopposed p (Multiset.mem_add.mpr (.inr hframe))).mono hclears
      · -- The call that is granted its request is the one that decides, and all others do not.
        refine Position.unopposed_of_not_isDeciding (Bool.eq_false_iff.mpr fun hdeciding => ?_)
        have hother : 0 < frame.countP (·.isDeciding) := Multiset.countP_pos_of_mem hframe hdeciding
        have hclaiming : Multiset.countP (·.isDeciding) {Position.claiming (α := α) r count} = 1 :=
          rfl
        rw [Multiset.countP_add] at hone
        omega

/-! ## One call at most decides -/

theorem CompileJob.isDeciding_position? {job : CompileJob α} (hp : job.position? = some p) :
    p.isDeciding = false := by
  obtain ⟨r, stage⟩ := job
  cases stage <;> simp only [position?, Option.some.injEq, reduceCtorEq] at hp <;> subst hp <;> rfl

theorem Call.isDeciding_position? {c : Call α β} (hwith : c.isWithHost = true)
    (hp : c.position? = some p) : p.isDeciding = false := by
  obtain ⟨m, unwinding, stage⟩ := c
  cases stage with
  | compiling job => exact CompileJob.isDeciding_position? hp
  | running found => cases hp
  | _ => cases hwith

theorem countP_deciding_eq_zero {w : Multiset (Work α β)}
    (hnone : ∀ x ∈ w, ∀ p, x.position? = some p → p.isDeciding = false) :
    (Work.positions w).countP (·.isDeciding) = 0 := by
  refine Multiset.countP_eq_zero.mpr fun p hp => ?_
  obtain ⟨x, hx, hxp⟩ := (Multiset.mem_filterMap _ _).mp hp
  exact Bool.eq_false_iff.mp (hnone x hx p hxp)

/-- In the pool nothing decides. -/
theorem Dispatcher.countP_deciding_work (d : Dispatcher α) :
    (Work.positions (d.work : Multiset (Work α β))).countP (·.isDeciding) = 0 := by
  refine countP_deciding_eq_zero fun x hx p hp => ?_
  cases x with
  | call c => exact absurd hx (d.call_notMem_work c)
  | job job => exact CompileJob.isDeciding_position? hp
  | queued r =>
    obtain rfl := Option.some.inj hp
    rfl

/-- On a stack of calls the innermost one may be deciding, and no other. -/
theorem Stacked.countP_deciding_le_one {calls : List (Call α β)} (hstacked : Stacked calls) :
    (Work.positions (Multiset.ofList (calls.map .call))).countP (·.isDeciding) ≤ 1 := by
  cases calls with
  | nil => exact Nat.zero_le 1
  | cons c outer =>
    have houter :
        (Work.positions (Multiset.ofList (outer.map .call))).countP (·.isDeciding) = 0 := by
      refine countP_deciding_eq_zero fun x hx p hp => ?_
      obtain ⟨k, hk, rfl⟩ := List.mem_map.mp (Multiset.mem_coe.mp hx)
      exact Call.isDeciding_position? (hstacked.outer k hk) hp
    rw [List.map_cons, ← Multiset.cons_coe, ← Multiset.singleton_add, Work.positions_add,
      Work.positions_singleton, Multiset.countP_add, houter, Nat.add_zero]
    refine (Multiset.countP_le_card _ _).trans ?_
    rw [Multiset.coe_card]
    exact Option.length_toList_le

namespace System

variable {s t : System α β} {label : Label α β}

theorem countP_deciding_le_one (hcallers : s.callers.length = 1) (hstacked : s.IsStacked) :
    s.outline.positions.countP (·.isDeciding) ≤ 1 := by
  obtain ⟨calls, hcalls⟩ := List.length_eq_one_iff.mp hcallers
  have hstack := hstacked 0
  rw [callsOf, hcalls] at hstack
  rw [outline, positions, work, hcalls, List.flatMap_singleton, Work.positions_add,
    Multiset.countP_add, s.dispatcher.countP_deciding_work, Nat.add_zero]
  exact hstack.countP_deciding_le_one

end System

/-! ## Denials -/

/-- The call was denied its request, and next that is counted. -/
def Call.isDenied (c : Call α β) : Bool :=
  match c.stage with
  | .denied _ _ => true
  | _ => false

/-- The event tells of a denial. -/
def Event.isDenial : Event → Bool
  | alreadyRequested _ _ => true
  | _ => false

theorem Event.isDenial_of_isEnd {event : Event} {r : Request} (hend : event.isEnd r) :
    event.isDenial = false := by
  cases event with
  | alreadyRequested _ _ => cases hend
  | _ => rfl

theorem CompileJob.meter?_ne_denials (job : CompileJob α) : job.meter? ≠ some .denials := by
  obtain ⟨r, stage⟩ := job
  cases stage <;> simp [meter?]

theorem Call.meter?_ne_denials (c : Call α β) (hc : c.isDenied = false) :
    c.meter? ≠ some .denials := by
  obtain ⟨m, unwinding, stage⟩ := c
  cases stage with
  | denied tier count => cases hc
  | compiling job => exact job.meter?_ne_denials
  | entering found => cases found <;> simp [meter?, Meter.ofRun]
  | _ => simp [meter?]

/-- No denial was counted or reported. -/
structure Dispatcher.Undenied (d : Dispatcher α) : Prop where
  counted : d.metrics.requestsDenied = 0
  reported : ∀ event ∈ d.log, event.isDenial = false

namespace Dispatcher.Undenied

variable {d d' : Dispatcher α}

/-- A step that moves on another meter than that of the denials, and reports no denial. -/
theorem step (hundenied : d.Undenied) {k? : Option Meter} {events : List Event}
    (hmetrics : d'.metrics = k?.elim d.metrics d.metrics.bump) (hk : k? ≠ some .denials)
    (hlog : d'.log = events ++ d.log) (hevents : ∀ event ∈ events, event.isDenial = false) :
    d'.Undenied where
  counted := by
    rw [hmetrics]
    cases k? with
    | none => exact hundenied.counted
    | some k =>
      have hother : k ≠ .denials := fun heq => hk (congrArg some heq)
      exact ((d.metrics.value_bump k .denials).trans (if_neg hother)).trans hundenied.counted
  reported event hmem := by
    rw [hlog] at hmem
    rcases List.mem_append.mp hmem with hnew | hold
    · exact hevents event hnew
    · exact hundenied.reported event hold

theorem job_advance (hundenied : d.Undenied) (job : CompileJob α) (unwinding : Bool) :
    (job.advance unwinding d).2.Undenied := by
  refine hundenied.step (job.metrics_advance unwinding d) job.meter?_ne_denials
    (job.log_advance unwinding d) fun event hmem => ?_
  exact Event.isDenial_of_isEnd (CompileJob.isEnd_of_report? (Option.mem_toList.mp hmem))

theorem call_advance (hundenied : d.Undenied) {c : Call α β} (hc : c.isDenied = false) :
    (c.advance d).2.Undenied := by
  refine hundenied.step (c.metrics_advance d) (c.meter?_ne_denials hc) (c.log_advance d) ?_
  intro event hmem
  obtain ⟨m, unwinding, stage⟩ := c
  cases stage with
  | denied tier count => cases hc
  | promoting tier count =>
    simp only [Call.reports, List.mem_append, List.mem_ite_nil_right, List.mem_singleton] at hmem
    rcases hmem with ⟨-, rfl⟩ | rfl <;> rfl
  | compiling job =>
    exact Event.isDenial_of_isEnd (CompileJob.isEnd_of_report? (Option.mem_toList.mp hmem))
  | _ => cases hmem

theorem finishJob (hundenied : d.Undenied) (worker : Nat) (r : Request)
    (failure : Option CompileFailure) : (d.finishJob worker r failure).Undenied := by
  unfold Dispatcher.finishJob
  split
  · exact ⟨hundenied.counted, List.forall_mem_cons.mpr ⟨rfl, hundenied.reported⟩⟩
  · exact ⟨hundenied.counted, hundenied.reported⟩

end Dispatcher.Undenied

/-- A dispatcher starts with nothing about any method in its log. -/
theorem Dispatcher.undenied_of_start {config : TierConfig} {d : Dispatcher α}
    (h : start config = .ok d) : d.Undenied where
  counted := by
    obtain ⟨log, rfl⟩ := eq_of_start h
    rfl
  reported event hmem := by
    have hnone := request?_of_mem_log_start h event hmem
    cases event with
    | alreadyRequested => cases hnone
    | _ => rfl

/-- A call is denied its request at the milestone that says so. -/
theorem Call.isDenied_advance {c : Call α β} {d : Dispatcher α} (hturn : c.turn = .dispatcher)
    (hgranted : ∀ r, c.milestone? d ≠ some (.denied r)) : (c.advance d).1.isDenied = false := by
  obtain ⟨stage, hnext, hstep⟩ := c.exists_stageStep d hturn
  rw [hnext]
  obtain ⟨m, unwinding, before⟩ := c
  cases hstep with
  | deny tier count hdenies =>
    refine absurd ?_ (hgranted ⟨m, tier⟩)
    simp [milestone?, hdenies]
  | _ => rfl

/-- A move in which nobody is denied a request, and no denial is still to be counted. -/
theorem Move.undenied {μ? : Option (Milestone α)} {before after : Multiset (Work α β)}
    {d d' : Dispatcher α} (hmove : Move μ? before d after d')
    (hgranted : ∀ r, μ? ≠ some (.denied r)) (hcalls : ∀ c, .call c ∈ before → c.isDenied = false)
    (hundenied : d.Undenied) :
    (∀ c, .call c ∈ after → c.isDenied = false) ∧ d'.Undenied := by
  have hrepool : ∀ pool, ({ d with pool } : Dispatcher α).Undenied :=
    fun _ => ⟨hundenied.counted, hundenied.reported⟩
  have hjob : ∀ (job : CompileJob α) (c : Call α β),
      .call c ∈ ({.job job} : Multiset (Work α β)) → c.isDenied = false := by
    intro job c hc
    cases Multiset.mem_singleton.mp hc
  cases hmove with
  | invoke _ m unwinding =>
    refine ⟨fun c hc => ?_, hundenied⟩
    obtain rfl := Work.call.inj (Multiset.mem_singleton.mp hc)
    rfl
  | @advance c _ hturn =>
    refine ⟨fun k hk => ?_, hundenied.call_advance (hcalls c (Multiset.mem_singleton_self _))⟩
    rcases Multiset.mem_add.mp hk with hnext | hqueued
    · obtain rfl := Work.call.inj (Multiset.mem_singleton.mp hnext)
      exact Call.isDenied_advance hturn hgranted
    · rw [Multiset.mem_coe, Option.mem_toList] at hqueued
      obtain ⟨r, -, hr⟩ := Option.map_eq_some_iff.mp hqueued
      cases hr
  | @beginCompile c job _ hturn hidle =>
    refine ⟨fun k hk => ?_, hundenied⟩
    obtain rfl := Work.call.inj (Multiset.mem_singleton.mp hk)
    rw [Call.beginCompile, (Call.stage_of_turn_compiler hturn).1]
    rfl
  | @endCompile c job _ outcome hturn hbusy =>
    refine ⟨fun k hk => ?_, hundenied⟩
    obtain rfl := Work.call.inj (Multiset.mem_singleton.mp hk)
    rw [Call.concludeCompile, (Call.stage_of_turn_compiler hturn).1]
    rfl
  | @endRun c found _ outcome hturn =>
    refine ⟨fun k hk => ?_, hundenied⟩
    obtain rfl := Work.call.inj (Multiset.mem_singleton.mp hk)
    rw [Call.concludeRun, Call.stage_of_turn_engine hturn]
    rfl
  | leave => exact ⟨fun c hc => absurd hc (Multiset.notMem_zero _), hundenied⟩
  | take _ r pool | beginJob _ pool hturn hidle | endJob _ pool outcome hturn hbusy =>
    exact ⟨hjob _, hrepool pool⟩
  | @advanceJob job _ pool hturn =>
    have hadvanced := hundenied.job_advance job false
    exact ⟨hjob _, hadvanced.counted, hadvanced.reported⟩
  | @finish job failure _ worker hturn =>
    exact ⟨fun c hc => absurd hc (Multiset.notMem_zero _), hundenied.finishJob worker _ failure⟩
  | repool _ pool => exact ⟨fun c hc => absurd hc (Multiset.notMem_zero _), hrepool pool⟩

/-! ## Runs of a single caller -/

/-- There is a single caller, it is unopposed, and no denial was ever made, counted or reported. -/
structure System.Unopposed (h : History α) (s : System α β) : Prop where
  single : s.callers.length = 1
  stacked : s.IsStacked
  deciding : ∀ p ∈ s.outline.positions, p.Unopposed s.outline.ledger
  granted : ∀ r, .denied r ∉ h
  calls : ∀ c, .call c ∈ s.work → c.isDenied = false
  undenied : s.dispatcher.Undenied

namespace System

variable {s t : System α β} {label : Label α β} {labels : List (Label α β)}

theorem unopposed_step (hreach : Reach policy h s.outline) (hown : label.isOwn)
    (hstep : s.step label = some t) (hunopposed : s.Unopposed h) :
    t.Unopposed (h ++ (s.milestone? label).toList) := by
  obtain ⟨hdeciding, hgranted⟩ : (∀ p ∈ t.outline.positions, p.Unopposed t.outline.ledger) ∧
      ∀ r, s.milestone? label ≠ some (.denied r) := by
    have houtline := outline_step hown hstep
    cases hμ : s.milestone? label with
    | none =>
      rw [hμ] at houtline
      rw [houtline]
      exact ⟨hunopposed.deciding, nofun⟩
    | some μ =>
      rw [hμ] at houtline
      obtain ⟨hdeciding, hgranted⟩ := houtline.unopposed hreach.gated
        (countP_deciding_le_one hunopposed.single hunopposed.stacked) hunopposed.deciding
      exact ⟨hdeciding, fun r heq => hgranted r (Option.some.inj heq)⟩
  obtain ⟨before, after, frame, hbefore, hafter, hmove⟩ := step_work hown hstep
  obtain ⟨hcalls, hundenied⟩ := hmove.undenied hgranted
    (fun c hc => hunopposed.calls c (hbefore ▸ Multiset.mem_add.mpr (.inl hc))) hunopposed.undenied
  refine ⟨(length_callers_step hstep).trans hunopposed.single,
    isStacked_step hstep hunopposed.stacked, hdeciding, fun r hmem => ?_, fun c hc => ?_, hundenied⟩
  · rcases List.mem_append.mp hmem with hearlier | hnow
    · exact hunopposed.granted r hearlier
    · exact hgranted r (Option.mem_toList.mp hnow)
  · rw [hafter] at hc
    rcases Multiset.mem_add.mp hc with hmoved | hframe
    · exact hcalls c hmoved
    · exact hunopposed.calls c (hbefore ▸ Multiset.mem_add.mpr (.inr hframe))

theorem unopposed_run (hreach : Reach policy h s.outline) (hown : ∀ label ∈ labels, label.isOwn)
    (hrun : s.run labels = some t) (hunopposed : s.Unopposed h) :
    t.Unopposed (h ++ s.history labels) := by
  refine (history_induction (P := fun h s => Reach policy h s.outline ∧ s.Unopposed h)
    ?_ hrun ⟨hreach, hunopposed⟩).2
  rintro h s t label hmem hstep ⟨hreach, hunopposed⟩
  exact ⟨reach_step hreach (hown label hmem) hstep,
    unopposed_step hreach (hown label hmem) hstep hunopposed⟩

/-- A single caller starts unopposed. -/
theorem unopposed_start {config : TierConfig} {d : Dispatcher α}
    (hstart : Dispatcher.start config = .ok d) : (start d 1 : System α β).Unopposed [] where
  single := rfl
  stacked := isStacked_start d 1
  deciding p hp := by
    rw [outline_of_start hstart] at hp
    exact absurd hp (Multiset.notMem_zero p)
  granted r := List.not_mem_nil
  calls c hc := by
    rw [work_of_start hstart] at hc
    exact absurd hc (Multiset.notMem_zero _)
  undenied := Dispatcher.undenied_of_start hstart

theorem Unopposed.position {i : Nat} {c : Call α β} (hunopposed : s.Unopposed h)
    (hc : c ∈ s.callsOf i) (hp : c.position? = some p) : p.Unopposed s.dispatcher.ledger :=
  hunopposed.deciding p ((Multiset.mem_filterMap _ _).mpr ⟨.call c, call_mem_work.mpr ⟨i, hc⟩, hp⟩)

end System

/-! ## Main result -/

/-- **What is wanted is granted.** Take any run of a single caller, in either mode, with calls
nested at any depth, any outcomes and the workers' steps anywhere. A call that has read the
requested tiers is granted whatever the policy asks for, now and when it claims it, and goes on
to compile it or to hand it over. So no request was denied, no denial was counted, and none was
reported. -/
theorem wanted_is_granted {config : TierConfig} {d : Dispatcher α} {labels : List (Label α β)}
    {s : System α β} (hstart : Dispatcher.start config = .ok d)
    (hown : ∀ label ∈ labels, label.isOwn) (hrun : (System.start d 1).run labels = some s) :
    (∀ c ∈ s.callsOf 0, ∀ count requested tier, c.stage = .inspecting count requested →
      (s.dispatcher.policy.decide count (requested.getD {}).l1 (requested.getD {}).l2).tier =
        some tier →
      (s.dispatcher.cache.request c.method tier).1) ∧
    (∀ c ∈ s.callsOf 0, ∀ tier count, c.stage = .claiming tier count →
      (s.dispatcher.cache.request c.method tier).1 ∧
        (c.advance s.dispatcher).1.stage = .promoting tier count) ∧
    (∀ c ∈ s.callsOf 0, ∀ tier count, c.stage ≠ .denied tier count) ∧
    (∀ r, .denied r ∉ (System.start d 1).history labels) ∧
    s.dispatcher.metrics.requestsDenied = 0 ∧
    ∀ r count, .alreadyRequested r count ∉ s.dispatcher.events := by
  have hunopposed : s.Unopposed ((System.start d 1).history labels) :=
    System.unopposed_run (System.reach_start hstart 1) hown hrun (System.unopposed_start hstart)
  refine ⟨fun c hc count requested tier hstage hdecide => ?_, fun c hc tier count hstage => ?_,
    fun c hc tier count hstage => ?_, hunopposed.granted, hunopposed.undenied.counted,
    fun r count hmem => ?_⟩
  · have hposition : c.position? = some (.inspecting c.method count (requested.getD {})) := by
      rw [Call.position?, hstage]
    have hread : ∀ tier, (s.dispatcher.cache.requested c.method).contains tier →
        (requested.getD {}).contains tier := hunopposed.position hc hposition
    have hgrants := ((requested.getD {}).grants_iff tier).mp (TierPolicy.grants_of_decide hdecide)
    rw [CompilationCache.request_fst, RequestSet.grants_iff]
    exact fun higher hle hset => hgrants higher hle (hread higher hset)
  · have hposition : c.position? = some (.claiming ⟨c.method, tier⟩ count) := by
      rw [Call.position?, hstage]
    have hgrants : (s.dispatcher.cache.requested c.method).grants tier :=
      hunopposed.position hc hposition
    refine ⟨by rwa [CompilationCache.request_fst], ?_⟩
    simp only [Call.advance, hstage, CompilationCache.request_fst, hgrants, if_true]
  · have hdenied := hunopposed.calls c (System.call_mem_work.mpr ⟨0, hc⟩)
    rw [Call.isDenied, hstage] at hdenied
    cases hdenied
  · cases hunopposed.undenied.reported _ (List.mem_reverse.mp hmem)

/-- In background mode a second call wants `l2` while the compilation for `l1` that the first one
asked for fails and is given back. -/
def overlapping : List (Label Nat Nat) :=
  let advances (n : Nat) : List (Label Nat Nat) := List.replicate n (.caller 0 .advance)
  [.caller 0 (.invoke ⟨0⟩ false)] ++ advances 10 ++ [.caller 0 (.endRun (.value 1)),
    .caller 0 .leave, .worker 0 .take, .worker 0 .beginCompile,
    .caller 0 (.invoke ⟨0⟩ false)] ++ advances 4 ++
    [.worker 0 (.endCompile (.error "out of registers")), .worker 0 .advance]

theorem wanted_is_granted_overlapping :
    let d : Dispatcher Nat := .ofConfig ((TierConfig.withThresholds 1 2).inBackground 1)
    ∃ s, (System.start d 1).run overlapping = some s ∧
      s.callsOf 0 = [⟨⟨0⟩, false, .claiming .l2 2⟩] ∧ (s.dispatcher.cache.request ⟨0⟩ .l2).1 ∧
      s.dispatcher.metrics.requestsDenied = 0 := by
  intro d
  have hstart : Dispatcher.start ((TierConfig.withThresholds 1 2).inBackground 1) = .ok d := rfl
  have hcalls : ((System.start d 1).run overlapping).map (·.callsOf 0) =
      some [⟨⟨0⟩, false, .claiming .l2 2⟩] := by decide +kernel
  obtain ⟨s, hrun, hclaiming⟩ := Option.map_eq_some_iff.mp hcalls
  have hresult := wanted_is_granted hstart (by decide) hrun
  have hmem : ⟨⟨0⟩, false, .claiming .l2 2⟩ ∈ s.callsOf 0 := by
    rw [hclaiming]
    exact List.mem_singleton_self _
  exact ⟨s, hrun, hclaiming, (hresult.2.1 _ hmem .l2 2 rfl).1, hresult.2.2.2.2.1⟩

end TieredDispatch

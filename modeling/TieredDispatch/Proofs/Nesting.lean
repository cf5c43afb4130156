import Mathlib.Algebra.Order.BigOperators.Group.Finset
import TieredDispatch.Proofs.Account
import TieredDispatch.Proofs.Forward
import TieredDispatch.Proofs.RequestGate

/-!
# Nested compilations

**Theorem (`reentrant_compiles_nest`).** One caller of a synchronous dispatcher whose compiler and
engine call back as they like: of the compile calls in progress at any moment, there is for each
method at most one for each tier, and `l2` is nested inside `l1`. If such a nested `l2` succeeds and
then the outer `l1` does, the artifact for `l2` stays, and the outer call runs it.

What is compiled on a stack of calls is held there, and the requests held on a stack are nested
(`Shaped`): the bit of every request held is set, so a new request of the same method is granted
for `l2` only, and only while `l1` alone is held. Each method with a request on the stack was
invoked, which bounds the number of compile calls.

For the second part, with the host everywhere on the stack nothing is about to be published, so an
artifact for `l2` that was compiled is in the cache; and there it stays (`System.lookup_l2_run`).
-/

namespace TieredDispatch

variable {α β : Type} {policy : TierPolicy} {h : History α} {i : Nat}

/-! ## Compile calls in progress -/

/-- The request the compiler is at work on for a call, if it is. -/
def Call.compiling? (c : Call α β) : Option Request :=
  match c.stage with
  | .compiling job => if job.isCompiling then some job.request else none
  | _ => none

/-- The compile calls in progress on a stack of calls, the innermost first. -/
def compilesInProgress (calls : List (Call α β)) : List Request :=
  calls.filterMap (·.compiling?)

/-- The method that is invoked, if one is. -/
def Milestone.invocation? : Milestone α → Option MethodId
  | invoked m => some m
  | _ => none

/-- The methods that were invoked. -/
def History.methods (h : History α) : Finset MethodId :=
  (h.filterMap (·.invocation?)).toFinset

theorem Call.compiling?_eq_some {c : Call α β} {r : Request} :
    c.compiling? = some r ↔
      ∃ job, c.stage = .compiling job ∧ job.isCompiling ∧ job.request = r := by
  unfold compiling?
  split
  · rename_i job hstage
    simp [hstage]
  · rename_i hstage
    simpa using fun job hjob => absurd hjob (hstage job)

theorem CompileJob.eq_of_isCompiling {job : CompileJob α} (hbusy : job.isCompiling) :
    job = ⟨job.request, .compiling⟩ := by
  obtain ⟨r, stage⟩ := job
  cases stage with
  | compiling => rfl
  | _ => cases hbusy

theorem Call.isWithHost_of_compiling? {c : Call α β} {r : Request} (hc : c.compiling? = some r) :
    c.isWithHost = true := by
  obtain ⟨job, hstage, hbusy, -⟩ := compiling?_eq_some.mp hc
  rw [isWithHost, hstage]
  exact hbusy

/-- The host is at work for a call as its compiler or as its engine. -/
theorem Call.stage_of_isWithHost {c : Call α β} (hhost : c.isWithHost = true)
    (hsilent : c.compiling? = none) : ∃ found, c.stage = .running found := by
  obtain ⟨m, unwinding, stage⟩ := c
  cases stage with
  | running found => exact ⟨found, rfl⟩
  | compiling job =>
    change job.isCompiling = true at hhost
    simp [compiling?, hhost] at hsilent
  | _ => cases hhost

theorem Call.turn_of_compiling? {c : Call α β} {r : Request} (hc : c.compiling? = some r) :
    c.turn = .compiler ⟨r, .compiling⟩ := by
  obtain ⟨job, hstage, hbusy, rfl⟩ := compiling?_eq_some.mp hc
  rw [CompileJob.eq_of_isCompiling hbusy] at hstage
  simp [turn, hstage, CompileJob.turn]

theorem History.mem_methods {m : MethodId} : m ∈ h.methods ↔ .invoked m ∈ h := by
  have hone : ∀ μ : Milestone α, μ.invocation? = some m ↔ μ = .invoked m := by
    intro μ
    cases μ <;> simp [Milestone.invocation?]
  simp [methods, hone]

/-! ## Requests held on a stack of calls -/

/-- The request that a position holds, if it does. -/
def Position.held? : Position α → Option Request
  | waiting r | compiling r | failing r => some r
  | _ => none

/-- The request that a call holds: granted, and neither given back nor compiled. -/
def Call.held? (c : Call α β) : Option Request :=
  c.position?.bind (·.held?)

theorem Position.holds_of_held? {p : Position α} {r : Request} (hp : p.held? = some r) :
    p.holds r := by
  cases p <;> simp_all [held?, holds]

theorem Call.held?_of_compiling? {c : Call α β} {r : Request} (hc : c.compiling? = some r) :
    c.held? = some r := by
  obtain ⟨job, hstage, hbusy, rfl⟩ := compiling?_eq_some.mp hc
  rw [CompileJob.eq_of_isCompiling hbusy] at hstage
  simp [held?, position?, hstage, CompileJob.position?, Position.held?]

/-- The compiler is called back inside: two requests of one method are for `l2` within `l1`. -/
def Request.Inside (inner outer : Request) : Prop :=
  inner.method = outer.method → inner.tier = .l2 ∧ outer.tier = .l1

/-- A request that is granted goes inside one that is held. -/
theorem Request.inside_of_grants {l : Ledger α} {inner outer : Request}
    (hgrants : (l.requested inner.method).grants inner.tier) (hheld : l.isRequested outer) :
    inner.Inside outer := by
  intro hmethod
  obtain ⟨m, tier⟩ := inner
  obtain ⟨k, other⟩ := outer
  obtain rfl : m = k := hmethod
  cases tier with
  | l1 =>
    rw [Ledger.grants_l1] at hgrants
    cases other <;> simp [hheld] at hgrants
  | l2 =>
    rw [Ledger.grants_l2] at hgrants
    cases other with
    | l1 => exact ⟨rfl, rfl⟩
    | l2 => simp [hheld] at hgrants

/-- What is held after a milestone was held before, or is granted. -/
theorem Progress.held {μ : Milestone α} {before after : Multiset (Position α)} {l l' : Ledger α}
    (hprogress : Progress μ before l after l') {p : Position α} (hp : p ∈ after) {r : Request}
    (hheld : p.held? = some r) :
    (∃ q ∈ before, q.held? = some r) ∨ (l.requested r.method).grants r.tier := by
  cases hprogress <;> simp only [Multiset.mem_singleton, Multiset.notMem_zero] at hp <;>
    subst hp <;> simp only [Position.held?, Option.some.injEq, reduceCtorEq] at hheld
  case granted q count hgrants =>
    subst hheld
    exact .inr hgrants
  all_goals
    subst hheld
    exact .inl ⟨_, Multiset.mem_singleton_self _, rfl⟩

theorem Advances.held {μ? : Option (Milestone α)} {before : Option (Position α)} {l l' : Ledger α}
    {after : Multiset (Position α)} (hadvances : Advances μ? before l after l') {p : Position α}
    (hp : p ∈ after) {r : Request} (hheld : p.held? = some r) :
    before.bind (·.held?) = some r ∨ (l.requested r.method).grants r.tier := by
  cases μ? with
  | none =>
    obtain ⟨rfl, -⟩ := hadvances
    rw [Multiset.mem_coe, Option.mem_toList] at hp
    exact .inl (Option.bind_eq_some_iff.mpr ⟨p, hp, hheld⟩)
  | some μ =>
    rcases Progress.held hadvances hp hheld with ⟨q, hq, hheld'⟩ | hgrants
    · rw [Multiset.mem_coe, Option.mem_toList] at hq
      exact .inl (Option.bind_eq_some_iff.mpr ⟨q, hq, hheld'⟩)
    · exact .inr hgrants

/-- A position that a call has moved to. -/
theorem Call.held?_of_advances {c c' : Call α β} {μ? : Option (Milestone α)} {l l' : Ledger α}
    {sent : Multiset (Position α)}
    (hadvances : Advances μ? c.position? l (Multiset.ofList c'.position?.toList + sent) l')
    {r : Request} (hheld : c'.held? = some r) :
    c.held? = some r ∨ (l.requested r.method).grants r.tier := by
  obtain ⟨p, hp, hheld⟩ := Option.bind_eq_some_iff.mp hheld
  refine hadvances.held (Multiset.mem_add.mpr (.inl ?_)) hheld
  rw [Multiset.mem_coe, Option.mem_toList]
  exact hp

/-- The methods of the calls on a stack were invoked, and the requests held there are nested. -/
structure Shaped (h : History α) (calls : List (Call α β)) : Prop where
  invoked : ∀ c ∈ calls, .invoked c.method ∈ h
  nested : (calls.filterMap (·.held?)).Pairwise Request.Inside

namespace Shaped

variable {c c' : Call α β} {calls calls' outer : List (Call α β)}

theorem append (hshaped : Shaped h calls) (k : History α) : Shaped (h ++ k) calls where
  invoked c hc := List.mem_append_left k (hshaped.invoked c hc)
  nested := hshaped.nested

theorem leave (hshaped : Shaped h (c :: outer)) : Shaped h outer where
  invoked k hk := hshaped.invoked k (List.mem_cons_of_mem c hk)
  nested := by
    have hnested := hshaped.nested
    rw [List.filterMap_cons] at hnested
    split at hnested
    · exact hnested
    · exact hnested.of_cons

/-- The innermost call moves on, to nothing that it did not hold before or is granted now. -/
theorem replace {l : Ledger α} (hshaped : Shaped h (c :: outer)) (hmethod : c'.method = c.method)
    (hgate : ∀ k ∈ outer, ∀ r, k.held? = some r → l.isRequested r)
    (hheld : ∀ r, c'.held? = some r → c.held? = some r ∨ (l.requested r.method).grants r.tier) :
    Shaped h (c' :: outer) where
  invoked := by
    refine List.forall_mem_cons.mpr ⟨?_, hshaped.leave.invoked⟩
    rw [hmethod]
    exact hshaped.invoked c List.mem_cons_self
  nested := by
    rw [List.filterMap_cons]
    split
    · exact hshaped.leave.nested
    · rename_i r hr
      refine List.pairwise_cons.mpr ⟨?_, hshaped.leave.nested⟩
      intro q hq
      rcases hheld r hr with hsame | hgrants
      · have hnested := hshaped.nested
        rw [List.filterMap_cons, hsame] at hnested
        exact List.rel_of_pairwise_cons hnested hq
      · obtain ⟨k, hk, hkq⟩ := List.mem_filterMap.mp hq
        exact Request.inside_of_grants hgrants (hgate k hk q hkq)

end Shaped

/-- A move of a caller keeps the shape of its calls, as the bit of a request that is held is set. -/
theorem StackStep.shaped {d d' : Dispatcher α} {move : CallerMove α β}
    {calls calls' : List (Call α β)} (hstep : StackStep d move calls calls' d')
    (hgate : ∀ c ∈ calls, ∀ r, c.held? = some r → d.ledger.isRequested r)
    (hshaped : Shaped h calls) : Shaped (h ++ (move.milestone? d calls).toList) calls' := by
  cases hstep with
  | invoke m unwinding hmay =>
    refine ⟨List.forall_mem_cons.mpr ⟨?_, (hshaped.append _).invoked⟩, ?_⟩
    · exact List.mem_append_right h List.mem_cons_self
    · exact hshaped.nested
  | @advance c outer hturn =>
    refine (hshaped.append _).replace (c.method_advance d hturn)
      (fun k hk => hgate k (List.mem_cons_of_mem c hk)) ?_
    intro r hr
    exact Call.held?_of_advances (c.advances d hturn) hr
  | @beginCompile c job outer hturn hidle =>
    obtain ⟨hbefore, hafter, -⟩ := Call.position?_of_turn hturn
    have hadvances := job.advances_begin d.ledger (Call.stage_of_turn_compiler hturn).2 hidle
    rw [← hbefore, ← hafter, ← add_zero (Multiset.ofList _)] at hadvances
    refine (hshaped.append _).replace (by rw [c.beginCompile_eq])
      (fun k hk => hgate k (List.mem_cons_of_mem c hk)) ?_
    intro r hr
    exact Call.held?_of_advances hadvances hr
  | @endCompile c job outcome outer hturn hbusy =>
    obtain ⟨hbefore, -, hafter⟩ := Call.position?_of_turn hturn
    have hadvances :=
      job.advances_conclude d.ledger outcome (Call.stage_of_turn_compiler hturn).2 hbusy
    rw [← hbefore, ← hafter, ← add_zero (Multiset.ofList _)] at hadvances
    refine (hshaped.append _).replace (by rw [c.concludeCompile_eq])
      (fun k hk => hgate k (List.mem_cons_of_mem c hk)) ?_
    intro r hr
    exact Call.held?_of_advances hadvances hr
  | @endRun c found outcome outer hturn =>
    have hstage := Call.stage_of_turn_engine hturn
    refine (hshaped.append _).replace (by rw [c.concludeRun_eq])
      (fun k hk => hgate k (List.mem_cons_of_mem c hk)) ?_
    intro r hr
    simp [Call.held?, Call.position?, Call.concludeRun, hstage] at hr
  | leave outer hturn => exact (hshaped.append _).leave

namespace System

variable {s t : System α β} {labels : List (Label α β)}

/-- A request that a call holds was never compiled, and its bit is set. -/
theorem of_held (hreach : Reach policy h s.outline) {c : Call α β} (hc : c ∈ s.callsOf i)
    {r : Request} (hheld : c.held? = some r) :
    h.successes r = 0 ∧ s.dispatcher.ledger.isRequested r := by
  obtain ⟨p, hp, hr⟩ := Option.bind_eq_some_iff.mp hheld
  have hmem : p ∈ s.outline.positions :=
    (Multiset.mem_filterMap _ _).mpr ⟨.call c, call_mem_work.mpr ⟨i, hc⟩, hp⟩
  exact ((hreach.gated r).of_held (Outline.held_pos hmem (Position.holds_of_held? hr))).2

theorem milestone?_caller {move : CallerMove α β} (hstep : s.step (.caller i move) = some t) :
    s.milestone? (.caller i move) = move.milestone? s.dispatcher (s.callsOf i) := by
  obtain ⟨calls, hcalls, -⟩ := Option.bind_eq_some_iff.mp hstep
  simp [milestone?, callsOf, hcalls]

theorem shaped_step {label : Label α β} (hreach : Reach policy h s.outline)
    (hstep : s.step label = some t) (hshaped : Shaped h (s.callsOf i)) :
    Shaped (h ++ (s.milestone? label).toList) (t.callsOf i) := by
  obtain ⟨move, rfl, hmove⟩ | ⟨-, hsame⟩ := step_of_caller i hstep
  · rw [milestone?_caller hstep]
    exact hmove.shaped (fun c hc r hr => (of_held hreach hc hr).2) hshaped
  · rw [hsame]
    exact hshaped.append _

/-- The calls of a caller stay shaped. -/
theorem shaped_run (hreach : Reach policy h s.outline) (hown : ∀ label ∈ labels, label.isOwn)
    (hrun : s.run labels = some t) (hshaped : Shaped h (s.callsOf i)) :
    Shaped (h ++ s.history labels) (t.callsOf i) := by
  refine (history_induction (P := fun h s => Reach policy h s.outline ∧ Shaped h (s.callsOf i))
    ?_ hrun ⟨hreach, hshaped⟩).2
  rintro h s t label hmem hstep ⟨hreach, hshaped⟩
  exact ⟨reach_step hreach (hown label hmem) hstep, shaped_step hreach hstep hshaped⟩

end System

/-- Compile calls in progress are nested. -/
theorem Shaped.pairwise_compiles {calls : List (Call α β)} (hshaped : Shaped h calls) :
    (compilesInProgress calls).Pairwise Request.Inside := by
  have hnested := hshaped.nested
  rw [List.pairwise_filterMap] at hnested
  rw [compilesInProgress, List.pairwise_filterMap]
  refine hnested.imp ?_
  intro inner outer hinside r hr q hq
  exact hinside r (Call.held?_of_compiling? hr) q (Call.held?_of_compiling? hq)

theorem nodup_of_inside {requests : List Request} (hnested : requests.Pairwise Request.Inside) :
    requests.Nodup := by
  refine hnested.imp ?_
  rintro r _ hinside rfl
  obtain ⟨hl2, hl1⟩ := hinside rfl
  cases hl2.symm.trans hl1

/-- There are no more than two different requests for each of the given methods. -/
theorem length_le_of_nodup {requests : List Request} (hnodup : requests.Nodup)
    {methods : Finset MethodId} (hmethods : ∀ r ∈ requests, r.method ∈ methods) :
    requests.length ≤ 2 * methods.card := by
  rw [← List.toFinset_card_of_nodup hnodup]
  refine Finset.card_le_mul_card_image_of_maps_to (f := Request.method) ?_ 2 ?_
  · intro r hr
    exact hmethods r (List.mem_toFinset.mp hr)
  · intro m _
    refine (Finset.card_le_card ?_).trans (Finset.card_le_two (a := ⟨m, .l1⟩) (b := ⟨m, .l2⟩))
    rintro ⟨k, tier⟩ hr
    obtain rfl : k = m := (Finset.mem_filter.mp hr).2
    cases tier <;> simp

theorem Shaped.length_compiles_le {calls : List (Call α β)} (hshaped : Shaped h calls)
    (hstacked : Stacked calls) : (compilesInProgress calls).length ≤ 2 * h.methods.card := by
  refine length_le_of_nodup (nodup_of_inside hshaped.pairwise_compiles) ?_
  intro r hr
  obtain ⟨c, hc, hcr⟩ := List.mem_filterMap.mp hr
  obtain ⟨job, hstage, -, rfl⟩ := Call.compiling?_eq_some.mp hcr
  rw [History.mem_methods, hstacked.own c hc job hstage]
  exact hshaped.invoked c hc

/-! ## An artifact for `l2` stays -/

namespace System

variable {s t : System α β} {labels : List (Label α β)} {m : MethodId} {artifact : α}

/-- What is published for `l2` is what was compiled for it. -/
theorem lookup_of_artifact (hreach : Reach policy h s.outline)
    (hartifact : h.artifact? ⟨m, .l2⟩ = some artifact)
    (hle : .ofTier (some .l2) ≤ pathOf (s.dispatcher.cache.lookup m)) :
    s.dispatcher.cache.lookup m = some ⟨.l2, artifact⟩ := by
  obtain ⟨⟨tier, other⟩, hfound, htier⟩ := le_pathOf_iff.mp hle
  obtain rfl : tier = .l2 := by
    cases tier with
    | l1 => exact absurd htier (show ¬ Tier.l2 ≤ Tier.l1 by decide)
    | l2 => rfl
  have hcompiled := hreach.published.compiled hfound
  rw [hartifact] at hcompiled
  rw [hfound, Option.some.inj hcompiled]

/-- Once an artifact for `l2` is published, it stays. -/
theorem lookup_l2_run (hreach : Reach policy h s.outline) (hown : ∀ label ∈ labels, label.isOwn)
    (hrun : s.run labels = some t) (hfound : s.dispatcher.cache.lookup m = some ⟨.l2, artifact⟩) :
    t.dispatcher.cache.lookup m = some ⟨.l2, artifact⟩ := by
  have hartifact := hreach.published.compiled hfound
  refine lookup_of_artifact (reach_run hreach hown hrun)
    (History.artifact?_append_of_some hartifact _) ?_
  have hforward := forward_run hrun m
  rwa [hfound] at hforward

theorem length_callers_step {label : Label α β} (hstep : s.step label = some t) :
    t.callers.length = s.callers.length := by
  cases systemStep_of_step hstep with
  | caller => exact List.length_set
  | worker | direct | close | lose => rfl

theorem length_callers_run (hrun : s.run labels = some t) :
    t.callers.length = s.callers.length :=
  run_induction (P := fun u => u.callers.length = s.callers.length)
    (fun hstep h => (length_callers_step hstep).trans h) hrun rfl

/-- While the host has all calls of the only caller, and there is no pool, nothing is about to be
published. -/
theorem not_publishing (hpool : s.dispatcher.pool.isSome = false) (hcallers : s.callers.length = 1)
    (hhost : ∀ c ∈ s.callsOf 0, c.isWithHost = true) (r : Request) :
    .publishing r artifact ∉ s.outline.positions := by
  intro hmem
  obtain ⟨w, hw, hposition⟩ := (Multiset.mem_filterMap _ _).mp hmem
  cases w with
  | job _ | queued _ => simp [isSome_pool_of_mem_work hw nofun] at hpool
  | call c =>
    obtain ⟨i, hc⟩ := call_mem_work.mp hw
    obtain rfl := eq_zero_of_mem_callsOf hcallers hc
    have hwith := hhost c hc
    obtain ⟨m, unwinding, stage⟩ := c
    cases stage with
    | compiling job =>
      rw [CompileJob.eq_of_isCompiling hwith] at hposition
      cases hposition
    | running found => cases hposition
    | _ => cases hwith

/-- What was compiled for `l2` is published when the host has all calls of the only caller. -/
theorem lookup_of_withHost (hreach : Reach policy h s.outline)
    (hpool : s.dispatcher.pool.isSome = false) (hcallers : s.callers.length = 1)
    (hhost : ∀ c ∈ s.callsOf 0, c.isWithHost = true)
    (hartifact : h.artifact? ⟨m, .l2⟩ = some artifact) :
    s.dispatcher.cache.lookup m = some ⟨.l2, artifact⟩ := by
  refine lookup_of_artifact hreach hartifact ?_
  rcases hreach.published.offered hartifact with hmem | ⟨compiled, hactive, hle⟩
  · exact absurd hmem (not_publishing hpool hcallers hhost _)
  · exact le_pathOf_iff.mpr ⟨compiled, hactive, hle⟩

end System

/-! ## What a call finds -/

/-- What a call has found that has looked its method up, and has not returned. -/
def Call.found? (c : Call α β) : Option (Option (CompiledMethod α)) :=
  match c.stage with
  | .entering found | .running found => some found
  | _ => none

/-- A step of the dispatcher finds what is published. -/
theorem Call.found?_advance {c : Call α β} {d : Dispatcher α} (h : c.turn = .dispatcher)
    {found : Option (CompiledMethod α)} (hfound : (c.advance d).1.found? = some found) :
    c.found? = some found ∨ found = d.cache.lookup c.method := by
  obtain ⟨stage, hnext, hstep⟩ := c.exists_stageStep d h
  rw [hnext] at hfound
  obtain ⟨m, unwinding, before⟩ := c
  cases hstep with
  | select => exact .inr (Option.some.inj hfound).symm
  | run found' => exact .inl hfound
  | _ => cases hfound

/-- A call whose compilation has just succeeded has found nothing yet. -/
theorem Call.Secured.found?_eq_none {r : Request} {cache : CompilationCache α} {c : Call α β}
    (hsecured : c.Secured r cache) (hrank : c.rank = 8) : c.found? = none := by
  cases hsecured with
  | entering _ _ => cases hrank
  | _ => rfl

/-- The innermost call of a caller finds the artifact for `l2`, if it is one of the method. -/
def FindsL2 (m : MethodId) (artifact : α) (calls : List (Call α β)) : Prop :=
  ∀ c ∈ calls.head?, c.method = m → ∀ found, c.found? = some found → found = some ⟨.l2, artifact⟩

/-- While an artifact for `l2` is published, a call that advances finds it. -/
theorem System.findsL2_run {s t : System α β} {labels : List (Label α β)} {m : MethodId}
    {artifact : α} (hreach : Reach policy h s.outline) (hown : ∀ label ∈ labels, label.isOwn)
    (hrun : s.run labels = some t) (honly : OnlyAdvances i labels)
    (hfound : s.dispatcher.cache.lookup m = some ⟨.l2, artifact⟩)
    (hfinds : FindsL2 m artifact (s.callsOf i)) : FindsL2 m artifact (t.callsOf i) := by
  refine (history_induction (P := fun h s => Reach policy h s.outline ∧
    s.dispatcher.cache.lookup m = some ⟨.l2, artifact⟩ ∧ FindsL2 m artifact (s.callsOf i))
    ?_ hrun ⟨hreach, hfound, hfinds⟩).2.2
  rintro h s t label hmem hstep ⟨hreach, hfound, hfinds⟩
  have hlabel := hown label hmem
  have hone : s.run [label] = some t := by rw [run, hstep, Option.bind_some, run]
  refine ⟨reach_step hreach hlabel hstep,
    lookup_l2_run hreach (List.forall_mem_singleton.mpr hlabel) hone hfound, ?_⟩
  obtain ⟨move, rfl, hmove⟩ | ⟨-, hsame⟩ := step_of_caller i hstep
  · obtain rfl := honly move hmem
    generalize s.callsOf i = calls, t.callsOf i = calls', t.dispatcher = d' at hmove hfinds ⊢
    cases hmove with
    | @advance c outer hturn =>
      rintro _ ⟨⟩ hmethod found hc
      rw [c.method_advance _ hturn] at hmethod
      rcases Call.found?_advance hturn hc with hbefore | hnow
      · exact hfinds c rfl hmethod found hbefore
      · rw [hnow, hmethod, hfound]
  · rw [hsame]
    exact hfinds

/-! ## Main result -/

namespace System

variable {s t : System α β} {labels : List (Label α β)} {m : MethodId} {a₁ a₂ : α} {c : Call α β}
  {outer : List (Call α β)}

/-- The artifact of the compile call that the innermost call ends is the first one of its
request. -/
theorem artifact?_endCompile (hreach : Reach policy h s.outline) (hcalls : s.callsOf i = c :: outer)
    {r : Request} (hc : c.compiling? = some r)
    (hstep : s.step (.caller i (.endCompile (.value a₂))) = some t) :
    History.artifact? (h ++ (s.milestone? (.caller i (.endCompile (.value a₂)))).toList) r =
      some a₂ := by
  have hmem : c ∈ s.callsOf i := hcalls ▸ List.mem_cons_self
  have hfirst := (of_held hreach hmem (Call.held?_of_compiling? hc)).1
  have hcompiles := Call.compiles?_of_turn (Call.turn_of_compiling? hc)
  rw [milestone?_caller hstep, hcalls, CallerMove.milestone?, hcompiles, Option.map_some,
    Option.toList_some, History.artifact?_concat, History.artifact?_eq_none hfirst]
  simp [Milestone.artifact?]

/-- While an artifact for `l2` is published, a call that ends its compilation at `l1` with an
artifact comes to the engine with the one for `l2`. -/
theorem executes_l2 (hreach : Reach policy h s.outline) (hown : ∀ label ∈ labels, label.isOwn)
    (hstacked : s.IsStacked) (hfound : s.dispatcher.cache.lookup m = some ⟨.l2, a₂⟩)
    (hcalls : s.callsOf i = c :: outer) (hc : c.compiling? = some ⟨m, .l1⟩)
    (hrun : s.run (.caller i (.endCompile (.value a₁)) :: labels) = some t) :
    (OnlyAdvances i labels ∧ labels.countP (·.isOf i) < 7 ∧
      ∃ c', t.callsOf i = c' :: outer ∧ c'.turn = .dispatcher) ∨
    ∃ past future u c', labels = past ++ future ∧
      s.run (.caller i (.endCompile (.value a₁)) :: past) = some u ∧ OnlyAdvances i past ∧
      u.callsOf i = c' :: outer ∧ c'.method = m ∧ c'.turn = .engine (some ⟨.l2, a₂⟩) := by
  obtain ⟨next, hstep, hrest⟩ := Option.bind_eq_some_iff.mp hrun
  have hreach' := reach_step hreach rfl hstep
  have hfound' : next.dispatcher.cache.lookup m = some ⟨.l2, a₂⟩ :=
    lookup_l2_run hreach (List.forall_mem_singleton.mpr rfl)
      (by rw [run, hstep, Option.bind_some, run]) hfound
  obtain ⟨_, ⟨⟩, hmove⟩ | ⟨hother, -⟩ := step_of_caller i hstep
  · have hshape := hstacked i
    rw [hcalls] at hmove hshape
    obtain ⟨c₁, hcalls₁, hmethod₁, hsecured, hrank⟩ :=
      hmove.secured hshape (Call.turn_of_compiling? hc)
    have hfinds : FindsL2 m a₂ (next.callsOf i) := by
      rw [hcalls₁]
      rintro _ ⟨⟩ - found hbefore
      rw [hsecured.found?_eq_none hrank] at hbefore
      cases hbefore
    rcases executes_of_secured hcalls₁ hsecured hrest with ⟨honly, hfew, hstill⟩ |
      ⟨past, future, u, c', compiled, rfl, hpast, honly, hcalls', hmethod, hran, -⟩
    · exact .inl ⟨honly, by omega, hstill⟩
    · have hfound := findsL2_run hreach'
        (fun label hmem => hown label (List.mem_append_left _ hmem)) hpast honly hfound' hfinds
      rw [hcalls'] at hfound
      have hmine := hfound c' rfl (hmethod.trans hmethod₁) (some compiled)
        (by rw [Call.found?, Call.stage_of_turn_engine hran])
      refine .inr ⟨past, future, u, c', rfl, ?_, honly, hcalls', hmethod.trans hmethod₁, ?_⟩
      · rw [run, hstep, Option.bind_some, hpast]
      · rw [hran, hmine]
  · simp [Label.isOf] at hother

end System

/-- **Nested compilations.** Take any run of one caller of a synchronous dispatcher, in which the
compiler and the engine may call back at any depth, with any outcomes.

- Of the compile calls in progress there is for each method at most one for each tier, and one for
  `l2` is nested inside one for `l1`, never the other way round. So there are at most twice as many
  as methods were invoked.
- Suppose an `l2` that is nested inside an `l1` of the same method succeeds, and later the outer
  `l1` does, too. Then the artifact for `l2` stays, and the outer call comes to the engine with it,
  after fewer than eight steps of the dispatcher and nothing else. -/
theorem reentrant_compiles_nest {config : TierConfig} {d : Dispatcher α}
    {labels : List (Label α β)} {s : System α β} (hstart : Dispatcher.start config = .ok d)
    (hmode : config.mode = .synchronous) (hown : ∀ label ∈ labels, label.isOwn)
    (hrun : (System.start d 1).run labels = some s) :
    let compiles := compilesInProgress (s.callsOf 0)
    (∀ r, compiles.count r ≤ 1) ∧
    (compiles.Pairwise fun inner outer =>
      inner.method = outer.method → inner.tier = .l2 ∧ outer.tier = .l1) ∧
    compiles.length ≤ 2 * ((System.start d 1).history labels).methods.card ∧
    ∀ m a₁ a₂ nested middle outer outermost between (u : System α β) rest t,
      s.callsOf 0 = nested :: (middle ++ outer :: outermost) →
      nested.compiling? = some ⟨m, .l2⟩ → outer.compiling? = some ⟨m, .l1⟩ →
      (∀ label ∈ between ++ rest, label.isOwn) →
      s.run (.caller 0 (.endCompile (.value a₂)) :: between) = some u →
      u.callsOf 0 = outer :: outermost →
      u.run (.caller 0 (.endCompile (.value a₁)) :: rest) = some t →
      t.dispatcher.cache.lookup m = some ⟨.l2, a₂⟩ ∧
      ((OnlyAdvances 0 rest ∧ rest.countP (·.isOf 0) < 7 ∧
          ∃ c, t.callsOf 0 = c :: outermost ∧ c.turn = .dispatcher) ∨
        ∃ past future v c, rest = past ++ future ∧
          u.run (.caller 0 (.endCompile (.value a₁)) :: past) = some v ∧ OnlyAdvances 0 past ∧
          v.callsOf 0 = c :: outermost ∧ c.method = m ∧
          c.turn = .engine (some ⟨.l2, a₂⟩)) := by
  intro compiles
  have hreach := System.reach_of_run hstart hown hrun
  have hstacked := System.isStacked_run hrun (System.isStacked_start d 1)
  have hinitial : Shaped [] ((System.start d 1 : System α β).callsOf 0) := by
    rw [System.callsOf_start]
    exact ⟨by simp, .nil⟩
  have hshaped := System.shaped_run (System.reach_start hstart 1) hown hrun hinitial
  have hpairwise := hshaped.pairwise_compiles
  refine ⟨List.nodup_iff_count_le_one.mp (nodup_of_inside hpairwise), hpairwise,
    hshaped.length_compiles_le (hstacked 0), ?_⟩
  intro m a₁ a₂ nested middle outer outermost between u rest t hcalls hnested houter hown' hbetween
    hcallsu hrest
  rw [List.forall_mem_append] at hown'
  obtain ⟨next, hstep, hrun'⟩ := Option.bind_eq_some_iff.mp hbetween
  have hreachu := System.reach_run (System.reach_step hreach rfl hstep) hown'.1 hrun'
  have hstackedu := System.isStacked_run hbetween hstacked
  have hfound : u.dispatcher.cache.lookup m = some ⟨.l2, a₂⟩ := by
    refine System.lookup_of_withHost hreachu ?_ ?_ ?_ (History.artifact?_append_of_some
      (System.artifact?_endCompile hreach hcalls hnested hstep) _)
    · rw [System.isSome_pool_run hbetween, System.isSome_pool_run hrun, Bool.eq_false_iff]
      intro hsome
      rw [(System.isSome_pool_start hstart).mp hsome] at hmode
      cases hmode
    · rw [System.length_callers_run hbetween, System.length_callers_run hrun]
      rfl
    · have hbelow := (hstackedu 0).outer
      rw [hcallsu] at hbelow ⊢
      exact List.forall_mem_cons.mpr ⟨Call.isWithHost_of_compiling? houter, hbelow⟩
  refine ⟨System.lookup_l2_run hreachu (List.forall_mem_cons.mpr ⟨rfl, hown'.2⟩) hrest hfound, ?_⟩
  exact System.executes_l2 hreachu hown'.2 hstackedu hfound hcallsu houter hrest

/-- A call at `l1` whose compiler calls the method again, which then compiles at `l2`. -/
def reentering : List (Label Nat Nat) :=
  let advances (n : Nat) : List (Label Nat Nat) := List.replicate n (.caller 0 .advance)
  [.caller 0 (.invoke ⟨0⟩ false)] ++ advances 7 ++ [.caller 0 .beginCompile] ++
    [.caller 0 (.invoke ⟨0⟩ false)] ++ advances 6 ++ [.caller 0 .beginCompile]

/-- The inner call publishes what it compiled, runs it and is left. -/
def leavingInner : List (Label Nat Nat) :=
  List.replicate 6 (.caller 0 .advance) ++ [.caller 0 (.endRun (.value 1)), .caller 0 .leave]

/-- A call whose compiler is at work at a tier. -/
def compilingAt (tier : Tier) : Call Nat Nat :=
  ⟨⟨0⟩, false, .compiling ⟨⟨⟨0⟩, tier⟩, .compiling⟩⟩

theorem reentrant_compiles_nest_reentering :
    let d : Dispatcher Nat := .ofConfig (.withThresholds 1 2)
    ∃ s u t : System Nat Nat, (System.start d 1).run reentering = some s ∧
      s.run (.caller 0 (.endCompile (.value 8)) :: leavingInner) = some u ∧
      u.run (.caller 0 (.endCompile (.value 7)) :: List.replicate 7 (.caller 0 .advance)) = some t ∧
      (compilesInProgress (s.callsOf 0)).Pairwise (fun inner outer =>
        inner.method = outer.method → inner.tier = .l2 ∧ outer.tier = .l1) ∧
      (compilesInProgress (s.callsOf 0)).length ≤ 2 ∧
      t.dispatcher.cache.lookup ⟨0⟩ = some ⟨.l2, 8⟩ ∧
      ∃ past v c, u.run past = some v ∧ v.callsOf 0 = [c] ∧ c.turn = .engine (some ⟨.l2, 8⟩) := by
  intro d
  have hstart : Dispatcher.start (.withThresholds 1 2) = .ok d := rfl
  have hruns : ((System.start (β := Nat) d 1).run reentering).any fun s =>
      s.callsOf 0 = [compilingAt .l2, compilingAt .l1] &&
        (s.run (.caller 0 (.endCompile (.value 8)) :: leavingInner)).any fun u =>
          u.callsOf 0 = [compilingAt .l1] &&
            (u.run (.caller 0 (.endCompile (.value 7)) ::
              List.replicate 7 (.caller 0 .advance))).isSome := by
    decide +kernel
  obtain ⟨s, hrun, hs⟩ := (Option.any_eq_true _ _).mp hruns
  rw [Bool.and_eq_true, decide_eq_true_eq] at hs
  obtain ⟨hcalls, hruns'⟩ := hs
  obtain ⟨u, hbetween, hu⟩ := (Option.any_eq_true _ _).mp hruns'
  rw [Bool.and_eq_true, decide_eq_true_eq] at hu
  obtain ⟨hcallsu, hruns''⟩ := hu
  obtain ⟨t, hrest⟩ := Option.isSome_iff_exists.mp hruns''
  obtain ⟨-, hnested, hfew, hoverlap⟩ := reentrant_compiles_nest hstart rfl (by decide) hrun
  obtain ⟨hfound, hran⟩ :=
    hoverlap ⟨0⟩ 7 8 _ [] _ [] _ u _ t hcalls rfl rfl (by decide) hbetween hcallsu hrest
  refine ⟨s, u, t, hrun, hbetween, hrest, hnested, hfew.trans (by decide +kernel), hfound, ?_⟩
  rcases hran with ⟨-, hfew, -⟩ | ⟨past, -, v, c, -, hpast, -, hcallsv, -, hturn⟩
  · exact absurd hfew (by decide)
  · exact ⟨_, v, c, hpast, hcallsv, hturn⟩

end TieredDispatch

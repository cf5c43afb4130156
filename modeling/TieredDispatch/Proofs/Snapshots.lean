import TieredDispatch.Proofs.RequestGate
import TieredDispatch.Proofs.Schedule
import TieredDispatch.Proofs.Stack

/-!
# Snapshots in two reads

**Theorem (`snapshots_miss_whole_compilations_only`).** A snapshot of a method with an entry reads
the requested tiers first and the published tier later, and everyone else may move in between. If it
shows a tier as published and not as requested, then all of a compilation happened between the two
reads: the grant, the start and the end of the compile call, and the publication. By the second read
the tier is requested. Of a method without an entry nothing more is read, and its snapshot is empty.

When the first read finds the bit of a request clear, the request is nowhere on its way
(`Traversed.of_clear`). From there each position that it comes to has the milestones behind it that
lead there (`Traversed.step`), and what is published came through all of them.
-/

namespace TieredDispatch

open scoped List

variable {α β : Type} {policy : TierPolicy} {h k : History α} {o o' : Outline α} {r : Request}
  {μ : Milestone α}

/-! ## The way of a request -/

/-- All of a compilation, from its grant to its publication. -/
def Request.compilation (r : Request) (artifact : α) : History α :=
  [.granted r, .started r, .ended r (.value artifact), .placed r artifact]

/-- Wherever the request has come to, the milestones that lead there happened. -/
structure Traversed (r : Request) (k : History α) (o : Outline α) : Prop where
  waiting : .waiting r ∈ o.positions → [.granted r] <+ k
  compiling : .compiling r ∈ o.positions → [.granted r, .started r] <+ k
  publishing : ∀ artifact, .publishing r artifact ∈ o.positions →
    [.granted r, .started r, .ended r (.value artifact)] <+ k
  published : ∀ artifact, o.ledger.active r.method = some ⟨r.tier, artifact⟩ →
    r.compilation artifact <+ k

section Progress

variable {before after : Multiset (Position α)} {l l' : Ledger α}

theorem Progress.granted_of_waiting (hprogress : Progress μ before l after l')
    (hmem : .waiting r ∈ after) : μ = .granted r := by
  cases hprogress <;>
    simp only [Multiset.mem_singleton, Multiset.notMem_zero, reduceCtorEq,
      Position.waiting.injEq] at hmem
  case granted => rw [hmem]

theorem Progress.started_of_compiling (hprogress : Progress μ before l after l')
    (hmem : .compiling r ∈ after) : μ = .started r ∧ .waiting r ∈ before := by
  cases hprogress <;>
    simp only [Multiset.mem_singleton, Multiset.notMem_zero, reduceCtorEq,
      Position.compiling.injEq] at hmem
  case started =>
    rw [hmem]
    exact ⟨rfl, Multiset.mem_singleton_self _⟩

/-- What is published after a milestone was so before, or the milestone is its publication. -/
theorem Progress.placed_of_active (hprogress : Progress μ before l after l') {artifact : α}
    (hactive : l'.active r.method = some ⟨r.tier, artifact⟩) :
    l.active r.method = some ⟨r.tier, artifact⟩ ∨
      μ = .placed r artifact ∧ .publishing r artifact ∈ before := by
  cases hprogress with
  | placed q placed =>
    obtain ⟨m, tier⟩ := r
    rcases Ledger.eq_of_active_place hactive with hsame | ⟨rfl, hplaced⟩
    · exact .inl hsame
    · obtain ⟨rfl, rfl⟩ := CompiledMethod.mk.inj hplaced
      exact .inr ⟨rfl, Multiset.mem_singleton_self _⟩
  | _ => exact .inl hactive

end Progress

/-- A milestone leads on from what led to the position before it. -/
theorem Traversed.step (htraversed : Traversed r k o) (hstep : Outline.Step μ o o') :
    Traversed r (k ++ [μ]) o' := by
  cases hstep with
  | @intro before after l l' frame hprogress =>
    -- A position that stays keeps what it has behind it, and one that moves has the milestone too.
    have hkeep : ∀ {way : History α}, way <+ k → way <+ k ++ [μ] := fun hway =>
      hway.trans (List.sublist_append_left k [μ])
    have hgrow : ∀ {way : History α}, way <+ k → way ++ [μ] <+ k ++ [μ] := fun hway =>
      hway.append (.refl [μ])
    have hold : ∀ {p}, p ∈ before → p ∈ before + frame := fun hmem =>
      Multiset.mem_add.mpr (.inl hmem)
    have hframe : ∀ {p}, p ∈ frame → p ∈ before + frame := fun hmem =>
      Multiset.mem_add.mpr (.inr hmem)
    refine ⟨fun hmem => ?_, fun hmem => ?_, fun artifact hmem => ?_, fun artifact hactive => ?_⟩
    · rcases Multiset.mem_add.mp hmem with hnew | hmem
      · rw [hprogress.granted_of_waiting hnew]
        exact List.sublist_append_right k _
      · exact hkeep (htraversed.waiting (hframe hmem))
    · rcases Multiset.mem_add.mp hmem with hnew | hmem
      · obtain ⟨rfl, hbefore⟩ := hprogress.started_of_compiling hnew
        exact hgrow (htraversed.waiting (hold hbefore))
      · exact hkeep (htraversed.compiling (hframe hmem))
    · rcases Multiset.mem_add.mp hmem with hnew | hmem
      · rcases hprogress.source hnew with hbefore | ⟨rfl, hbefore⟩
        · exact hkeep (htraversed.publishing artifact (hold hbefore))
        · exact hgrow (htraversed.compiling (hold hbefore))
      · exact hkeep (htraversed.publishing artifact (hframe hmem))
    · rcases hprogress.placed_of_active hactive with hsame | ⟨rfl, hbefore⟩
      · exact hkeep (htraversed.published artifact hsame)
      · exact hgrow (htraversed.publishing artifact (hold hbefore))

/-- What is published is requested. -/
theorem Reach.requested_of_active (hreach : Reach policy h o) {artifact : α}
    (hactive : o.ledger.active r.method = some ⟨r.tier, artifact⟩) : o.ledger.isRequested r :=
  (hreach.gated r).of_artifact (hreach.published.compiled hactive)

/-- A request whose bit is clear is nowhere on its way. -/
theorem Traversed.of_clear (hreach : Reach policy h o) (hclear : ¬ o.ledger.isRequested r) :
    Traversed r [] o := by
  have hgated := hreach.gated r
  have hfree : ∀ p ∈ o.positions, ¬ p.holds r := fun p hmem hholds =>
    hclear (hgated.of_held (Outline.held_pos hmem hholds)).2.2
  refine ⟨fun hmem => ?_, fun hmem => ?_, fun artifact hmem => ?_, fun artifact hactive => ?_⟩
  · exact absurd (by simp [Position.holds]) (hfree _ hmem)
  · exact absurd (by simp [Position.holds]) (hfree _ hmem)
  · exact absurd (hgated.of_artifact (hgated.source artifact hmem)) hclear
  · exact absurd (hreach.requested_of_active hactive) hclear

/-- A request that was not on its way and is published by now was compiled in between. -/
theorem System.compilation_between {s t : System α β} {labels : List (Label α β)}
    (hreach : Reach policy h s.outline) (hown : ∀ label ∈ labels, label.isOwn)
    (hrun : s.run labels = some t) (hclear : ¬ s.outline.ledger.isRequested r) {artifact : α}
    (hactive : t.outline.ledger.active r.method = some ⟨r.tier, artifact⟩) :
    r.compilation artifact <+ s.history labels := by
  have htraversed : Traversed r ([] ++ s.history labels) t.outline := by
    refine history_induction (P := fun k s => Traversed r k s.outline) ?_ hrun
      (.of_clear hreach hclear)
    intro k u v label hmem hstep hu
    have houtline := outline_step (hown label hmem) hstep
    cases hμ : u.milestone? label with
    | none =>
      rw [hμ] at houtline
      rw [Option.toList_none, List.append_nil, houtline]
      exact hu
    | some μ =>
      rw [hμ] at houtline
      exact hu.step houtline
  exact htraversed.published artifact hactive

/-! ## What a call has read -/

/-- A step brings a call before its decision by reading the requested tiers. -/
theorem Call.requested_of_inspecting {c : Call α β} {d : Dispatcher α} {count : UInt64}
    {requested : Option RequestSet} (hturn : c.turn = .dispatcher)
    (hstage : (c.advance d).1.stage = .inspecting count requested) :
    requested = d.cache.requested? c.method := by
  obtain ⟨stage, hnext, hstep⟩ := c.exists_stageStep d hturn
  rw [hnext] at hstage
  obtain ⟨m, unwinding, before⟩ := c
  cases hstep with
  | inspect => exact (CallStage.inspecting.inj hstage).2.symm
  | _ => cases hstage

/-- A call that is before its decision was so already, or reads now. -/
theorem StackStep.requested_of_inspecting {d d' : Dispatcher α} {move : CallerMove α β}
    {calls calls' : List (Call α β)} (hstep : StackStep d move calls calls' d') {c : Call α β}
    (hmem : c ∈ calls') {count : UInt64} {requested : Option RequestSet}
    (hstage : c.stage = .inspecting count requested) :
    c ∈ calls ∨ requested = d.cache.requested? c.method := by
  cases hstep with
  | invoke m unwinding hmay =>
    rcases List.mem_cons.mp hmem with rfl | hmem
    · cases hstage
    · exact .inl hmem
  | @advance k outer hturn =>
    rcases List.mem_cons.mp hmem with rfl | hmem
    · rw [k.method_advance d hturn]
      exact .inr (Call.requested_of_inspecting hturn hstage)
    · exact .inl (List.mem_cons_of_mem k hmem)
  | @beginCompile k job outer hturn hidle =>
    rcases List.mem_cons.mp hmem with rfl | hmem
    · rw [Call.beginCompile, (Call.stage_of_turn_compiler hturn).1] at hstage
      cases hstage
    · exact .inl (List.mem_cons_of_mem k hmem)
  | @endCompile k job outcome outer hturn hbusy =>
    rcases List.mem_cons.mp hmem with rfl | hmem
    · rw [Call.concludeCompile, (Call.stage_of_turn_compiler hturn).1] at hstage
      cases hstage
    · exact .inl (List.mem_cons_of_mem k hmem)
  | @endRun k found outcome outer hturn =>
    rcases List.mem_cons.mp hmem with rfl | hmem
    · rw [Call.concludeRun, Call.stage_of_turn_engine hturn] at hstage
      cases hstage
    · exact .inl (List.mem_cons_of_mem k hmem)
  | @leave k result outer hturn => exact .inl (List.mem_cons_of_mem k hmem)

/-- What a call has read of the requested tiers was there in an earlier state of the run. -/
theorem System.requested_of_inspecting {d : Dispatcher α} {callers i : Nat}
    {labels : List (Label α β)} {t : System α β} (hrun : (start d callers).run labels = some t)
    {c : Call α β} (hmem : c ∈ t.callsOf i) {count : UInt64} {requested : Option RequestSet}
    (hstage : c.stage = .inspecting count requested) :
    ∃ past future s, past ++ future = labels ∧ (start d callers).run past = some s ∧
      requested = s.dispatcher.cache.requested? c.method := by
  induction labels using List.reverseRecOn generalizing t with
  | nil =>
    obtain rfl := Option.some.inj hrun
    rw [callsOf_start] at hmem
    cases hmem
  | append_singleton labels label ih =>
    obtain ⟨u, hearlier, hlast⟩ := exists_of_run_append hrun
    rw [run_singleton] at hlast
    have hcases : c ∈ u.callsOf i ∨ requested = u.dispatcher.cache.requested? c.method := by
      rcases step_of_caller i hlast with ⟨move, -, hmove⟩ | ⟨-, hsame⟩
      · exact hmove.requested_of_inspecting hmem hstage
      · exact .inl (hsame ▸ hmem)
    rcases hcases with hbefore | hread
    · obtain ⟨past, future, s, rfl, hpast, hread⟩ := ih hearlier hbefore
      exact ⟨past, future ++ [label], s, (List.append_assoc ..).symm, hpast, hread⟩
    · exact ⟨labels, [label], u, rfl, hearlier, hread⟩

/-! ## Main result -/

/-- **Snapshots miss whole compilations only.** Take the requested tiers of a method, if it has an
entry, from any state of a run, and the published tier from a later one. If the snapshot shows a
tier as published, the tier is requested by then, and it was requested at the first read too, unless
all of its compilation lies between the two reads. Every call decides by such a snapshot. -/
theorem snapshots_miss_whole_compilations_only {config : TierConfig} {d : Dispatcher α}
    {callers : Nat} {labels : List (Label α β)} {t : System α β}
    (hstart : Dispatcher.start config = .ok d) (hown : ∀ label ∈ labels, label.isOwn)
    (hrun : (System.start d callers).run labels = some t) :
    (∀ past future s, past ++ future = labels → (System.start d callers).run past = some s →
      ∀ m tier,
        let snapshot := TierState.ofEntry (s.dispatcher.cache.requested? m)
          (t.dispatcher.cache.tierOf m)
        snapshot.published = some tier →
          (t.dispatcher.cache.requested m).contains tier ∧
          ((s.dispatcher.cache.requested m).contains tier ∨
            ∃ artifact, Request.compilation ⟨m, tier⟩ artifact <+ s.history future)) ∧
    ∀ i, ∀ c ∈ t.callsOf i, ∀ count requested, c.stage = .inspecting count requested →
      ∃ past future s, past ++ future = labels ∧ (System.start d callers).run past = some s ∧
        requested = s.dispatcher.cache.requested? c.method := by
  refine ⟨fun past future s hsplit hpast m tier => ?_,
    fun i c hmem count requested hstage => System.requested_of_inspecting hrun hmem hstage⟩
  intro snapshot hshown
  subst hsplit
  have htier : t.dispatcher.cache.tierOf m = some tier := TierState.published_of_ofEntry hshown
  obtain ⟨⟨tier, artifact⟩, hlookup, rfl⟩ := Option.map_eq_some_iff.mp htier
  have hactive : t.outline.ledger.active m = some ⟨tier, artifact⟩ := hlookup
  have hreach := System.reach_of_run hstart hown hrun
  refine ⟨hreach.requested_of_active (r := ⟨m, tier⟩) hactive, ?_⟩
  by_cases hset : (s.dispatcher.cache.requested m).contains tier
  · exact .inl hset
  · obtain ⟨u, hu, hfuture⟩ := System.exists_of_run_append hrun
    obtain rfl := Option.some.inj (hpast.symm.trans hu)
    have hbefore := System.reach_of_run hstart
      (fun label hmem => hown label (List.mem_append_left future hmem)) hpast
    have hclear : ¬ s.outline.ledger.isRequested ⟨m, tier⟩ := hset
    exact .inr ⟨artifact, System.compilation_between hbefore
      (fun label hmem => hown label (List.mem_append_right past hmem)) hfuture hclear hactive⟩

/-- Three calls of one method by two callers. The first one fails to compile and gives its request
back, so that the method has an entry. The second has just read that no tier is requested when the
third is made by the other caller, and goes on only after the artifact of the third is published. -/
def outrun : List (Label Nat Nat) :=
  let advances (i n : Nat) : List (Label Nat Nat) := List.replicate n (.caller i .advance)
  [.caller 0 (.invoke ⟨0⟩ false)] ++ advances 0 7 ++
    [.caller 0 .beginCompile, .caller 0 (.endCompile (.error "out of registers"))] ++
    advances 0 3 ++ [.caller 0 .leave, .caller 0 (.invoke ⟨0⟩ false)] ++ advances 0 3 ++
    [.caller 1 (.invoke ⟨0⟩ false)] ++ advances 1 6 ++
    [.caller 1 .beginCompile, .caller 1 (.endCompile (.value 7))] ++ advances 1 3

theorem snapshots_miss_whole_compilations_only_outrun :
    let d : Dispatcher Nat := .ofConfig (.withThresholds 1 5)
    ∃ s t, (System.start d 2).run (outrun.take 17) = some s ∧
      (System.start d 2).run outrun = some t ∧
      (t.dispatcher.cache.requested ⟨0⟩).contains .l1 ∧
      ∃ artifact, Request.compilation ⟨⟨0⟩, .l1⟩ artifact <+ s.history (outrun.drop 17) := by
  intro d
  have hstart : Dispatcher.start (.withThresholds 1 5) = .ok d := rfl
  have hfirst : ((System.start d 2).run (outrun.take 17)).any
      (fun s => s.dispatcher.cache.requested? ⟨0⟩ = some {}) := by decide +kernel
  have hsecond : ((System.start d 2).run outrun).any
      (fun t => t.dispatcher.cache.tierOf ⟨0⟩ = some .l1) := by decide +kernel
  obtain ⟨s, hpast, hclear⟩ := (Option.any_eq_true _ _).mp hfirst
  obtain ⟨t, hrun, htier⟩ := (Option.any_eq_true _ _).mp hsecond
  have hresult := snapshots_miss_whole_compilations_only hstart (by decide) hrun
  have hread : s.dispatcher.cache.requested? ⟨0⟩ = some {} := of_decide_eq_true hclear
  have hshown : (TierState.ofEntry (s.dispatcher.cache.requested? ⟨0⟩)
      (t.dispatcher.cache.tierOf ⟨0⟩)).published = some .l1 := by
    rw [hread]
    exact of_decide_eq_true htier
  obtain ⟨hrequested, hbefore | hbetween⟩ :=
    hresult.1 _ _ s (List.take_append_drop 17 outrun) hpast ⟨0⟩ .l1 hshown
  · rw [← CompilationCache.requested?_getD, hread] at hbefore
    cases hbefore
  · exact ⟨s, t, hpast, hrun, hrequested, hbetween⟩

/-- The second call decides by a snapshot that shows a published tier which is not requested. -/
theorem outrun_reads_published_unrequested :
    let d : Dispatcher Nat := .ofConfig (.withThresholds 1 5)
    ∃ t, (System.start d 2).run outrun = some t ∧
      t.callsOf 0 = [⟨⟨0⟩, false, .inspecting 2 (some {})⟩] ∧
      TierState.ofEntry (some {}) (t.dispatcher.cache.tierOf ⟨0⟩) =
        ⟨false, false, some .l1⟩ := by
  intro d
  have hruns : ((System.start d 2).run outrun).any (fun t =>
      t.callsOf 0 = [⟨⟨0⟩, false, .inspecting 2 (some {})⟩] ∧
        TierState.ofEntry (some {}) (t.dispatcher.cache.tierOf ⟨0⟩) =
          ⟨false, false, some .l1⟩) := by
    decide +kernel
  obtain ⟨t, hrun, hread⟩ := (Option.any_eq_true _ _).mp hruns
  exact ⟨t, hrun, of_decide_eq_true hread⟩

end TieredDispatch

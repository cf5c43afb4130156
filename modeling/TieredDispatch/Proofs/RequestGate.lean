import TieredDispatch.Proofs.Outline

/-!
# The request gate

**Theorem (`compiled_at_most_once`).** Whatever the callers and the workers do, in whatever order,
a request is outstanding at most once, and a compilation starts only if all earlier ones of its
request failed.

**Theorem (`requested_iff_compiled_or_outstanding`).** A tier is requested exactly when it was
compiled successfully or a request for it is outstanding, and never both.

Grants, starts and failures balance with what became of them, because every milestone moves one
position (`Reach.balance`). The rest is an induction over the milestones with two invariants:

* *the gate* (`Gated`): the bit of a request stands for one success or for one position that holds
  it, and
* *the record* (`Published`): what is published is what a compilation produced, and nothing better
  was offered.

The first half of publishing sets the bit. It is set already, because the artifact comes from a
success of its request; so the gate also says where artifacts come from.
-/

namespace TieredDispatch

variable {α β : Type} {policy : TierPolicy} {h : History α} {o : Outline α}

/-! ## Balances -/

/-- If a kind of milestone adds one position of a kind and two others take one away, then what was
added and not taken away is there. -/
theorem Reach.balance (kind : Position α → Bool) (gain loss loss' : Milestone α → Bool)
    (hlaw : ∀ {μ before l after l'}, Progress μ before l after l' →
      after.countP (kind ·) + (loss μ).toNat + (loss' μ).toNat =
        before.countP (kind ·) + (gain μ).toNat)
    (hreach : Reach policy h o) :
    h.countP gain = h.countP loss + h.countP loss' + o.positions.countP (kind ·) := by
  induction hreach with
  | start => rfl
  | step hreach hstep ih =>
    obtain ⟨frame, hprogress⟩ := hstep
    have hmoved := hlaw hprogress
    simp only [Multiset.countP_add, History.countP_concat] at ih ⊢
    omega

theorem countP_one {γ : Type} (kind : γ → Bool) (p : γ) :
    Multiset.countP (kind ·) {p} = (kind p).toNat := by
  rw [← Multiset.cons_zero, Multiset.countP_cons, Multiset.countP_zero, zero_add]
  cases kind p <;> rfl

/-- A request that was granted was given back or compiled, or it is held. -/
theorem Reach.grants_eq (hreach : Reach policy h o) (r : Request) :
    h.grants r = h.releases r + h.successes r + o.held r := by
  refine hreach.balance (·.holds r) (·.isGrant r) (·.isRelease r) (·.isSuccess r)
    fun hprogress => ?_
  cases hprogress <;> simp only [countP_one, Multiset.countP_zero] <;>
    simp [Position.holds, Milestone.isGrant, Milestone.isRelease, Milestone.isSuccess, *]

/-- A compile call that started succeeded or failed, or the compiler is at work. -/
theorem Reach.starts_eq (hreach : Reach policy h o) (r : Request) :
    h.starts r = h.successes r + h.failures r + o.positions.countP (·.compiles r) := by
  refine hreach.balance (·.compiles r) (·.isStart r) (·.isSuccess r) (·.isFailure r)
    fun hprogress => ?_
  cases hprogress <;> simp only [countP_one, Multiset.countP_zero] <;>
    simp [Position.compiles, Milestone.isStart, Milestone.isSuccess, Milestone.isFailure, *]

/-- After a failure the request was given back, or that is still to come. -/
theorem Reach.failures_eq (hreach : Reach policy h o) (r : Request) :
    h.failures r = h.releases r + o.positions.countP (·.fails r) := by
  have hbalance := hreach.balance (·.fails r) (·.isFailure r) (·.isRelease r) (fun _ => false)
    fun hprogress => ?_
  · simpa [History.failures, History.releases] using hbalance
  · cases hprogress <;> simp only [countP_one, Multiset.countP_zero] <;>
      simp [Position.fails, Milestone.isFailure, Milestone.isRelease, *]

/-! ## The gate -/

/-- The bit of a request stands for one holder or for one success, and what is being published
comes from a success. -/
structure Gated (h : History α) (o : Outline α) (r : Request) : Prop where
  bit : o.held r + h.successes r = (o.ledger.isRequested r).toNat
  source : ∀ artifact, .publishing r artifact ∈ o.positions → h.artifact? r = some artifact

theorem gated_initial (policy : TierPolicy) (r : Request) :
    Gated ([] : History α) (.initial policy) r := by
  obtain ⟨m, tier⟩ := r
  refine ⟨?_, fun artifact hmem => by simp [Outline.initial] at hmem⟩
  cases tier <;> rfl

/-- What a milestone adds to holders and successes it adds to the bit, as long as a position that
holds the request or publishes for it has its bit set. -/
theorem Progress.bit {μ : Milestone α} {before after : Multiset (Position α)} {l l' : Ledger α}
    (hprogress : Progress μ before l after l') (r : Request)
    (hheld : ∀ p ∈ before, p.holds r → l.isRequested r)
    (hpublishing : ∀ artifact, .publishing r artifact ∈ before → l.isRequested r) :
    after.countP (·.holds r) + (μ.isSuccess r).toNat + (l.isRequested r).toNat =
      before.countP (·.holds r) + (l'.isRequested r).toNat := by
  cases hprogress <;> simp only [countP_one, Multiset.countP_zero]
  case granted q count hgrants =>
    have hclear := Ledger.isRequested_of_grants hgrants
    by_cases hq : r = q
    · subst hq
      simp [Position.holds, Milestone.isSuccess, Ledger.isRequested_mark, hclear]
    · simp [Position.holds, Milestone.isSuccess, Ledger.isRequested_mark, hq, Ne.symm hq]
  case released q =>
    by_cases hq : r = q
    · subst hq
      have hset := hheld _ (Multiset.mem_singleton_self _) (by simp [Position.holds])
      simp [Position.holds, Milestone.isSuccess, Ledger.isRequested_unmark, hset]
    · simp [Position.holds, Milestone.isSuccess, Ledger.isRequested_unmark, hq, Ne.symm hq]
  case recorded q artifact =>
    by_cases hq : r = q
    · subst hq
      have hset := hpublishing artifact (Multiset.mem_singleton_self _)
      simp [Position.holds, Milestone.isSuccess, Ledger.isRequested_mark, hset]
    · simp [Position.holds, Milestone.isSuccess, Ledger.isRequested_mark, hq]
  case succeeded q artifact => simp [Position.holds, Milestone.isSuccess]
  all_goals simp [Position.holds, Milestone.isSuccess, *]

/-- What is being published was so before, or comes from the success that the milestone is. -/
theorem Progress.source {μ : Milestone α} {before after : Multiset (Position α)} {l l' : Ledger α}
    (hprogress : Progress μ before l after l') {r : Request} {artifact : α}
    (hmem : .publishing r artifact ∈ after) :
    .publishing r artifact ∈ before ∨ μ = .ended r (.value artifact) ∧ .compiling r ∈ before := by
  cases hprogress <;>
    simp only [Multiset.mem_singleton, Multiset.notMem_zero, reduceCtorEq,
      Position.publishing.injEq] at hmem
  case succeeded =>
    obtain ⟨rfl, rfl⟩ := hmem
    exact .inr ⟨rfl, Multiset.mem_singleton_self _⟩
  case recorded =>
    obtain ⟨rfl, rfl⟩ := hmem
    exact .inl (Multiset.mem_singleton_self _)

/-- A request that is compiled is held. -/
theorem Outline.held_pos {r : Request} {p : Position α} (hmem : p ∈ o.positions)
    (hholds : p.holds r) : 0 < o.held r :=
  Multiset.countP_pos_of_mem hmem hholds

/-- The bit of a request is set, with one holder or one success, or clear, with neither. -/
theorem Gated.set_or_clear {r : Request} (hgated : Gated h o r) :
    o.ledger.isRequested r = true ∧ o.held r + h.successes r = 1 ∨
      o.ledger.isRequested r = false ∧ o.held r + h.successes r = 0 := by
  have hbit := hgated.bit
  cases hset : o.ledger.isRequested r with
  | true => exact .inl ⟨rfl, by rw [hbit, hset, Bool.toNat_true]⟩
  | false => exact .inr ⟨rfl, by rw [hbit, hset, Bool.toNat_false]⟩

/-- At most one position holds a request. -/
theorem Gated.held_le_one {r : Request} (hgated : Gated h o r) : o.held r ≤ 1 := by
  rcases hgated.set_or_clear with ⟨-, hone⟩ | ⟨-, hnone⟩ <;> omega

/-- While a request is held its bit is set, and it was never compiled. -/
theorem Gated.of_held {r : Request} (hgated : Gated h o r) (hheld : 0 < o.held r) :
    o.held r = 1 ∧ h.successes r = 0 ∧ o.ledger.isRequested r := by
  rcases hgated.set_or_clear with ⟨hset, hone⟩ | ⟨-, hnone⟩
  · exact ⟨by omega, by omega, hset⟩
  · omega

/-- The bit of a request that was compiled is set, and the request is not held. -/
theorem Gated.of_success {r : Request} (hgated : Gated h o r) (hsuccess : 0 < h.successes r) :
    o.held r = 0 ∧ h.successes r = 1 ∧ o.ledger.isRequested r := by
  rcases hgated.set_or_clear with ⟨hset, hone⟩ | ⟨-, hnone⟩
  · exact ⟨by omega, by omega, hset⟩
  · omega

theorem Gated.of_artifact {r : Request} (hgated : Gated h o r) {artifact : α}
    (hartifact : h.artifact? r = some artifact) : o.ledger.isRequested r := by
  have hsuccess := (h.isSome_artifact? r).mp (by rw [hartifact]; rfl)
  exact (hgated.of_success hsuccess).2.2

theorem Gated.step {μ : Milestone α} {o' : Outline α} {r : Request} (hgated : Gated h o r)
    (hstep : Outline.Step μ o o') : Gated (h ++ [μ]) o' r := by
  cases hstep with
  | @intro before after l l' frame hprogress =>
    have hbit := hgated.bit
    have hsource := hgated.source
    have hold : before ⊆ before + frame := Multiset.subset_of_le (Multiset.le_add_right _ _)
    have hheld : ∀ p ∈ before, p.holds r → 0 < Outline.held ⟨before + frame, l⟩ r :=
      fun p hmem hholds => Outline.held_pos (o := ⟨before + frame, l⟩) (hold hmem) hholds
    refine ⟨?_, fun artifact hmem => ?_⟩
    · have hmoved := hprogress.bit r
        (fun p hmem hholds => (hgated.of_held (hheld p hmem hholds)).2.2)
        (fun artifact hmem => hgated.of_artifact (hsource artifact (hold hmem)))
      simp only [Outline.held, Multiset.countP_add, History.successes, History.countP_concat]
        at hbit ⊢
      omega
    · rcases Multiset.mem_add.mp hmem with hafter | hframe
      · rcases hprogress.source hafter with hbefore | ⟨rfl, hcompiling⟩
        · exact History.artifact?_concat_of_some (hsource artifact (hold hbefore)) μ
        · have hfirst := (hgated.of_held (hheld _ hcompiling (by simp [Position.holds]))).2.1
          rw [History.artifact?_concat, History.artifact?_eq_none hfirst]
          simp [Milestone.artifact?]
      · have hbefore := hsource artifact (Multiset.mem_add.mpr (.inr hframe))
        exact History.artifact?_concat_of_some hbefore μ

theorem Reach.gated (hreach : Reach policy h o) (r : Request) : Gated h o r := by
  induction hreach with
  | start => exact gated_initial policy r
  | step _ hstep ih => exact ih.step hstep

/-! ## What is published -/

/-- What is published was compiled, and what was compiled is published, or about to be, unless
something of a higher tier is. -/
structure Published (h : History α) (o : Outline α) : Prop where
  compiled : ∀ {m compiled}, o.ledger.active m = some compiled →
    h.artifact? ⟨m, compiled.tier⟩ = some compiled.artifact
  offered : ∀ {r artifact}, h.artifact? r = some artifact →
    .publishing r artifact ∈ o.positions ∨
      ∃ compiled, o.ledger.active r.method = some compiled ∧ r.tier ≤ compiled.tier

theorem published_initial (policy : TierPolicy) : Published ([] : History α) (.initial policy) where
  compiled h := by cases h
  offered h := by cases h

/-- What is published after a milestone was so before, or was about to be. -/
theorem Progress.published {μ : Milestone α} {before after : Multiset (Position α)}
    {l l' : Ledger α} (hprogress : Progress μ before l after l') {m : MethodId}
    {compiled : CompiledMethod α} (hactive : l'.active m = some compiled) :
    l.active m = some compiled ∨ .publishing ⟨m, compiled.tier⟩ compiled.artifact ∈ before := by
  cases hprogress with
  | placed r artifact =>
    rcases Ledger.eq_of_active_place hactive with hsame | ⟨rfl, rfl⟩
    · exact .inl hsame
    · exact .inr (Multiset.mem_singleton_self _)
  | _ => exact .inl hactive

/-- Something published gives way to nothing of a lower tier. -/
theorem Progress.active_mono {μ : Milestone α} {before after : Multiset (Position α)}
    {l l' : Ledger α} (hprogress : Progress μ before l after l') {m : MethodId}
    {compiled : CompiledMethod α} (hactive : l.active m = some compiled) :
    ∃ compiled', l'.active m = some compiled' ∧ compiled.tier ≤ compiled'.tier := by
  cases hprogress with
  | placed r artifact => exact Ledger.active_place_mono hactive r artifact
  | _ => exact ⟨compiled, hactive, Nat.le_refl _⟩

/-- What is about to be published stays so until something no worse is published. -/
theorem Progress.publishes {μ : Milestone α} {before after : Multiset (Position α)}
    {l l' : Ledger α} (hprogress : Progress μ before l after l') {r : Request} {artifact : α}
    (hmem : .publishing r artifact ∈ before) :
    .publishing r artifact ∈ after ∨
      ∃ compiled, l'.active r.method = some compiled ∧ r.tier ≤ compiled.tier := by
  cases hprogress <;>
    simp only [Multiset.mem_singleton, Multiset.notMem_zero, reduceCtorEq,
      Position.publishing.injEq] at hmem
  case recorded =>
    obtain ⟨rfl, rfl⟩ := hmem
    exact .inl (Multiset.mem_singleton_self _)
  case placed =>
    obtain ⟨rfl, rfl⟩ := hmem
    exact .inr (l.active_place_self r artifact)

/-- The artifact of a success is about to be published. -/
theorem Progress.offers {μ : Milestone α} {before after : Multiset (Position α)}
    {l l' : Ledger α} (hprogress : Progress μ before l after l') {r : Request} {artifact : α}
    (hartifact : μ.artifact? r = some artifact) : .publishing r artifact ∈ after := by
  cases hprogress <;> simp only [Milestone.artifact?, reduceCtorEq] at hartifact
  case succeeded q artifact' =>
    by_cases hq : q = r
    · subst hq
      simp at hartifact
      simp [hartifact]
    · simp [hq] at hartifact
  case failed q outcome houtcome => simp [houtcome] at hartifact

theorem Published.step {μ : Milestone α} {o' : Outline α} (hpublished : Published h o)
    (hgated : ∀ r, Gated h o r) (hstep : Outline.Step μ o o') : Published (h ++ [μ]) o' := by
  cases hstep with
  | @intro before after l l' frame hprogress =>
    refine ⟨fun {m compiled} hactive => ?_, fun {r artifact} hartifact => ?_⟩
    · rcases hprogress.published hactive with hsame | hmem
      · exact History.artifact?_concat_of_some (hpublished.compiled hsame) μ
      · have hsource := (hgated _).source _ (Multiset.mem_add.mpr (.inl hmem))
        exact History.artifact?_concat_of_some hsource μ
    · rw [History.artifact?_concat] at hartifact
      rcases Option.or_eq_some_iff.mp hartifact with hbefore | ⟨-, hnow⟩
      · rcases hpublished.offered hbefore with hmem | ⟨compiled, hactive, hle⟩
        · rcases Multiset.mem_add.mp hmem with hmem | hmem
          · rcases hprogress.publishes hmem with hstays | hplaced
            · exact .inl (Multiset.mem_add.mpr (.inl hstays))
            · exact .inr hplaced
          · exact .inl (Multiset.mem_add.mpr (.inr hmem))
        · obtain ⟨compiled', hactive', hle'⟩ := hprogress.active_mono hactive
          exact .inr ⟨compiled', hactive', Nat.le_trans hle hle'⟩
      · exact .inl (Multiset.mem_add.mpr (.inl (hprogress.offers hnow)))

theorem Reach.published (hreach : Reach policy h o) : Published h o := by
  induction hreach with
  | start => exact published_initial policy
  | step hreach hstep ih => exact ih.step hreach.gated hstep

section Quiet

variable (hpublished : Published h o) (hnone : o.positions = 0)

include hpublished hnone

/-- With nothing under way, no artifact is better than what is published. -/
theorem Published.le_of_artifact {r : Request} {artifact : α}
    (hartifact : h.artifact? r = some artifact) :
    ∃ compiled, o.ledger.active r.method = some compiled ∧ r.tier ≤ compiled.tier := by
  rcases hpublished.offered hartifact with hmem | hactive
  · rw [hnone] at hmem
    exact absurd hmem (Multiset.notMem_zero _)
  · exact hactive

/-- With nothing under way, what is published is the best that was compiled. -/
theorem Published.active_eq_best? (m : MethodId) : o.ledger.active m = h.best? m := by
  cases hactive : o.ledger.active m with
  | none =>
    have habsent : ∀ tier, h.artifact? ⟨m, tier⟩ = none := by
      intro tier
      by_contra hsome
      obtain ⟨artifact, hartifact⟩ := Option.ne_none_iff_exists'.mp hsome
      obtain ⟨compiled, hcompiled, -⟩ := hpublished.le_of_artifact hnone hartifact
      rw [hactive] at hcompiled
      cases hcompiled
    rw [History.best?, habsent .l2, habsent .l1]
    rfl
  | some compiled =>
    have hcompiled := hpublished.compiled hactive
    obtain ⟨tier, artifact⟩ := compiled
    cases tier with
    | l2 => rw [History.best?, hcompiled]
    | l1 =>
      -- An artifact for `l2` would be published, or something better.
      have habsent : h.artifact? ⟨m, .l2⟩ = none := by
        by_contra hsome
        obtain ⟨better, hbetter⟩ := Option.ne_none_iff_exists'.mp hsome
        obtain ⟨compiled, hactive', hle⟩ := hpublished.le_of_artifact hnone hbetter
        rw [hactive] at hactive'
        cases hactive'
        exact absurd hle (show ¬ Tier.l2 ≤ Tier.l1 by decide)
      rw [History.best?, habsent, hcompiled]
      rfl

end Quiet

/-! ## What starts and grants find -/

theorem Outline.Step.waiting_of_started {r : Request} {o' : Outline α}
    (hstep : Outline.Step (.started r) o o') : .waiting r ∈ o.positions := by
  cases hstep with
  | intro frame hprogress =>
    cases hprogress
    exact Multiset.mem_add.mpr (.inl (Multiset.mem_singleton_self _))

theorem Outline.Step.grants_of_granted {r : Request} {o' : Outline α}
    (hstep : Outline.Step (.granted r) o o') : (o.ledger.requested r.method).grants r.tier := by
  cases hstep with
  | intro frame hprogress =>
    cases hprogress with
    | granted hgrants => exact hgrants

theorem Position.holds_of_compiles {r : Request} {p : Position α} (hcompiles : p.compiles r) :
    p.holds r := by
  cases p <;> simp_all [compiles, holds]

/-- While a request waits nothing is at work on it. -/
theorem Gated.not_compiling {r : Request} (hgated : Gated h o r)
    (hwaiting : .waiting r ∈ o.positions) : o.positions.countP (·.compiles r) = 0 := by
  have hholds : (Position.waiting r : Position α).holds r := by simp [Position.holds]
  have hone := (hgated.of_held (Outline.held_pos hwaiting hholds)).1
  obtain ⟨others, hothers⟩ := Multiset.exists_cons_of_mem hwaiting
  rw [Outline.held, hothers, Multiset.countP_cons, if_pos hholds] at hone
  have hnone : others.countP (·.holds r) = 0 := by omega
  rw [Multiset.countP_eq_zero] at hnone ⊢
  intro p hmem hcompiles
  rw [hothers] at hmem
  rcases Multiset.mem_cons.mp hmem with rfl | hmem
  · simp [Position.compiles] at hcompiles
  · exact hnone p hmem (Position.holds_of_compiles hcompiles)

/-! ## Main results -/

/-- **At most once.** For any number of callers and workers, any interleaving of their steps and
any behaviour of the host: a request is outstanding at most once; a compile call starts only if
every earlier one of its request failed; and `l1` is never granted for a method whose `l2` is
outstanding or compiled. -/
theorem compiled_at_most_once {config : TierConfig} {d : Dispatcher α} {callers : Nat}
    {labels : List (Label α β)} {s : System α β} (hstart : Dispatcher.start config = .ok d)
    (hown : ∀ label ∈ labels, label.isOwn) (hrun : (System.start d callers).run labels = some s) :
    let h := (System.start d callers).history labels
    (∀ r, s.outstanding r ≤ 1 ∧ h.grants r = h.releases r + h.successes r + s.outstanding r) ∧
    (∀ r (k : History α), k ++ [.started r] <+: h → k.starts r = k.failures r ∧ k.successes r = 0) ∧
    (∀ m (k : History α), k ++ [.granted ⟨m, .l1⟩] <+: h →
      k.grants ⟨m, .l2⟩ = k.releases ⟨m, .l2⟩ ∧ k.successes ⟨m, .l2⟩ = 0) := by
  intro h
  have hreach := System.reach_of_run hstart hown hrun
  refine ⟨fun r => ⟨(hreach.gated r).held_le_one, hreach.grants_eq r⟩, fun r k hk => ?_,
    fun m k hk => ?_⟩
  · obtain ⟨before, after, hbefore, hstep⟩ := hreach.of_prefix_concat hk
    have hwaiting := hstep.waiting_of_started
    have hgated := hbefore.gated r
    have hfirst := (hgated.of_held (Outline.held_pos hwaiting (by simp [Position.holds]))).2.1
    have hstarts := hbefore.starts_eq r
    rw [hgated.not_compiling hwaiting, hfirst] at hstarts
    exact ⟨by omega, hfirst⟩
  · obtain ⟨before, after, hbefore, hstep⟩ := hreach.of_prefix_concat hk
    have hgrants := hstep.grants_of_granted
    rw [Ledger.grants_l1, Bool.and_eq_true, Bool.not_eq_true', Bool.not_eq_true'] at hgrants
    have hbit := (hbefore.gated ⟨m, .l2⟩).bit
    rw [hgrants.2, Bool.toNat_false] at hbit
    have hbalance := hbefore.grants_eq ⟨m, .l2⟩
    exact ⟨by omega, by omega⟩

/-- Two calls of one method by one caller. Both are granted `l1`: the first compilation fails, and
the second one succeeds. -/
def retrying : List (Label Nat Nat) :=
  let advances (n : Nat) : List (Label Nat Nat) := List.replicate n (.caller 0 .advance)
  [.caller 0 (.invoke ⟨0⟩ false)] ++ advances 7 ++
    [.caller 0 .beginCompile, .caller 0 (.endCompile (.error "out of registers"))] ++
    advances 3 ++ [.caller 0 .leave, .caller 0 (.invoke ⟨0⟩ false)] ++ advances 6 ++
    [.caller 0 .beginCompile, .caller 0 (.endCompile (.value 7))] ++ advances 6 ++
    [.caller 0 (.endRun (.value 1)), .caller 0 .leave]

theorem compiled_at_most_once_retrying :
    let d : Dispatcher Nat := .ofConfig (.withThresholds 1 5)
    ∃ s, (System.start d 1).run retrying = some s ∧ s.outstanding ⟨⟨0⟩, .l1⟩ ≤ 1 ∧
      ∀ k : History Nat, k ++ [.started ⟨⟨0⟩, .l1⟩] <+: (System.start d 1).history retrying →
        k.starts ⟨⟨0⟩, .l1⟩ = k.failures ⟨⟨0⟩, .l1⟩ ∧ k.successes ⟨⟨0⟩, .l1⟩ = 0 := by
  intro d
  have hstart : Dispatcher.start (.withThresholds 1 5) = .ok d := rfl
  have hruns : ((System.start d 1).run retrying).isSome := by decide +kernel
  obtain ⟨s, hrun⟩ := Option.isSome_iff_exists.mp hruns
  have hresult := compiled_at_most_once hstart (by decide) hrun
  exact ⟨s, hrun, (hresult.1 _).1, hresult.2.1 _⟩

end TieredDispatch

import TieredDispatch.Proofs.RequestGate
import TieredDispatch.Proofs.Thresholds

/-!
# Promotion

**Theorem (`promoted_exactly_once`).** When all calls of a method have returned and all
compilations are over, and none failed, the method was compiled at each tier exactly when its
calls reached the tier's threshold, once, and `l1` only if its threshold is the lower one.

At most once is the request gate. For the rest there are three invariants, which hold as long as
the method is called fewer than 2^64 times:

* *the tally* (`Tallied`): every call is counted once, and nobody has seen a higher count,
* *the motive* (`Motivated`): what is claimed or requested was wanted at some count so far, and
* *the pursuit* (`Pursued`): if the count is past a threshold, then a request for the tier would
  be denied, or somebody on the way will ask.

A call that pursues a tier either asks for it, or for a higher one, or finds that a request would
be denied; and a denial lasts until a request is given back, that is until a compilation fails.
-/

namespace TieredDispatch

variable {α β : Type} {policy : TierPolicy} {h : History α} {o : Outline α}

/-! ## The tally -/

/-- The count a call has seen, until it is granted or denied its request. -/
def Position.count? (m : MethodId) : Position α → Option UInt64
  | counted k count | inspecting k count _ => if k = m then some count else none
  | claiming r count => if r.method = m then some count else none
  | _ => none

/-- Calls of a method are counted or still to be counted, and nobody has seen a higher count. -/
structure Tallied (h : History α) (o : Outline α) (m : MethodId) : Prop where
  total : (o.ledger.counts m).toNat + o.positions.countP (·.arrives m) = h.invocations m
  seen : ∀ p ∈ o.positions, ∀ count, p.count? m = some count → count ≤ o.ledger.counts m

theorem tallied_initial (policy : TierPolicy) (m : MethodId) :
    Tallied ([] : History α) (.initial policy) m := by
  refine ⟨rfl, fun p hmem => ?_⟩
  exact absurd hmem (Multiset.notMem_zero p)

section Tally

variable {μ : Milestone α} {before after frame : Multiset (Position α)} {l l' : Ledger α}
  {m : MethodId}

/-- Calls made become calls to be counted, and these become counts. -/
theorem Progress.tally (hprogress : Progress μ before l after l')
    (hfew : (l.counts m).toNat + before.countP (·.arrives m) < 2 ^ 64) :
    (l'.counts m).toNat + after.countP (·.arrives m) =
      (l.counts m).toNat + before.countP (·.arrives m) + (μ.isInvocation m).toNat := by
  cases hprogress <;> simp only [countP_one, Multiset.countP_zero] at hfew ⊢
  case counted k =>
    by_cases hk : k = m
    · subst hk
      simp only [Position.arrives, decide_true, Bool.toNat_true] at hfew
      simp [Ledger.count, Position.arrives, Milestone.isInvocation, toNat_add_one hfew]
    · simp [Ledger.count, Position.arrives, Milestone.isInvocation, hk, Ne.symm hk]
  all_goals simp [Position.arrives, Milestone.isInvocation, Ledger.mark, Ledger.unmark]

theorem Progress.counts_eq (hprogress : Progress μ before l after l') (hμ : μ ≠ .counted m) :
    l'.counts m = l.counts m := by
  cases hprogress with
  | counted k => exact l.counts_count_of_ne fun hm => hμ (hm ▸ rfl)
  | placed r artifact => rw [Ledger.counts_place]
  | _ => rfl

/-- Counts do not go down. -/
theorem Progress.counts_le (hprogress : Progress μ before l after l')
    (hfew : (l.counts m).toNat + before.countP (·.arrives m) < 2 ^ 64) :
    l.counts m ≤ l'.counts m := by
  by_cases hμ : μ = .counted m
  · subst hμ
    have htally := hprogress.tally hfew
    cases hprogress
    rw [countP_one, countP_one] at htally
    simp [Position.arrives, Milestone.isInvocation] at htally
    rw [UInt64.le_iff_toNat_le]
    omega
  · rw [hprogress.counts_eq hμ]
    exact UInt64.le_refl _

/-- The call that is counted is handed out the new count. -/
theorem Progress.after_counted (hprogress : Progress (.counted m) before l after l')
    (hfew : (l.counts m).toNat + before.countP (·.arrives m) < 2 ^ 64) :
    after = {.counted m (l'.counts m)} := by
  cases hprogress
  have hroom : (l.counts m).toNat + 1 < 2 ^ 64 := by
    rw [countP_one] at hfew
    simpa [Position.arrives] using hfew
  rw [saturatingAdd_one hroom]
  simp [Ledger.count]

/-- A count that is seen was seen before, or was just handed out. -/
theorem Progress.count?_of_mem (hprogress : Progress μ before l after l') {p : Position α}
    (hmem : p ∈ after) {count : UInt64} (hcount : p.count? m = some count) :
    (∃ q ∈ before, q.count? m = some count) ∨ μ = .counted m := by
  cases hprogress <;> simp only [Multiset.mem_singleton, Multiset.notMem_zero] at hmem <;>
    subst hmem
  case counted k =>
    by_cases hk : k = m
    · exact .inr (hk ▸ rfl)
    · simp [Position.count?, hk] at hcount
  case inspected k count' => exact .inl ⟨_, Multiset.mem_singleton_self _, hcount⟩
  case wanting => exact .inl ⟨_, Multiset.mem_singleton_self _, hcount⟩
  all_goals simp [Position.count?] at hcount

end Tally

/-- There is room to count the calls that are still to be counted. -/
theorem Tallied.room {before frame : Multiset (Position α)} {l : Ledger α} {m : MethodId}
    (htallied : Tallied h ⟨before + frame, l⟩ m) (hfew : h.invocations m < 2 ^ 64) :
    (l.counts m).toNat + before.countP (·.arrives m) < 2 ^ 64 := by
  have htotal := htallied.total
  simp only [Multiset.countP_add] at htotal
  omega

theorem Tallied.step {μ : Milestone α} {o' : Outline α} {m : MethodId} (htallied : Tallied h o m)
    (hfew : h.invocations m < 2 ^ 64) (hstep : Outline.Step μ o o') : Tallied (h ++ [μ]) o' m := by
  cases hstep with
  | @intro before after l l' frame hprogress =>
    have hroom := htallied.room hfew
    refine ⟨?_, fun p hmem count hcount => ?_⟩
    · have htotal := htallied.total
      have hmoved := hprogress.tally hroom
      simp only [Multiset.countP_add, History.invocations, History.countP_concat] at htotal ⊢
      omega
    · have hold : ∀ q ∈ before + frame, q.count? m = some count → count ≤ l'.counts m :=
        fun q hq hsees =>
          UInt64.le_trans (htallied.seen q hq count hsees) (hprogress.counts_le hroom)
      rcases Multiset.mem_add.mp hmem with hafter | hframe
      · rcases hprogress.count?_of_mem hafter hcount with ⟨q, hq, hsees⟩ | rfl
        · exact hold q (Multiset.mem_add.mpr (.inl hq)) hsees
        · rw [hprogress.after_counted hroom, Multiset.mem_singleton] at hafter
          subst hafter
          simp [Position.count?] at hcount
          exact hcount ▸ UInt64.le_refl _
      · exact hold p (Multiset.mem_add.mpr (.inr hframe)) hcount

theorem Reach.tallied (hreach : Reach policy h o) (m : MethodId)
    (hfew : h.invocations m < 2 ^ 64) : Tallied h o m := by
  induction hreach with
  | start => exact tallied_initial policy m
  | @step h μ o o' hreach hstep ih =>
    have hbefore := Nat.lt_of_le_of_lt (h.countP_le_concat _ μ) hfew
    exact (ih hbefore).step hbefore hstep

/-! ## The motive -/

theorem Progress.policy_eq {μ : Milestone α} {before after : Multiset (Position α)}
    {l l' : Ledger α} (hprogress : Progress μ before l after l') : l'.policy = l.policy := by
  cases hprogress with
  | placed r artifact => exact l.policy_place r artifact
  | _ => rfl

theorem Reach.policy_eq (hreach : Reach policy h o) : o.ledger.policy = policy := by
  induction hreach with
  | start => rfl
  | step _ hstep ih =>
    cases hstep with
    | intro frame hprogress => exact hprogress.policy_eq.trans ih

/-- What is claimed for a method, or requested, was wanted at a count that it has reached. -/
structure Motivated (policy : TierPolicy) (o : Outline α) (m : MethodId) : Prop where
  claims : ∀ {tier count}, .claiming ⟨m, tier⟩ count ∈ o.positions → policy.wants count tier
  bits : ∀ {tier}, o.ledger.isRequested ⟨m, tier⟩ →
    ∃ count, count ≤ o.ledger.counts m ∧ policy.wants count tier

theorem motivated_initial (policy : TierPolicy) (m : MethodId) :
    Motivated policy (.initial policy : Outline α) m where
  claims hmem := absurd hmem (Multiset.notMem_zero _)
  bits {tier} hset := by cases tier <;> cases hset

/-- A claim follows from a decision. -/
theorem Progress.wants_of_claiming {μ : Milestone α} {before after : Multiset (Position α)}
    {l l' : Ledger α} (hprogress : Progress μ before l after l') {r : Request} {count : UInt64}
    (hmem : .claiming r count ∈ after) : l.policy.wants count r.tier := by
  cases hprogress <;>
    simp only [Multiset.mem_singleton, Multiset.notMem_zero, reduceCtorEq,
      Position.claiming.injEq] at hmem
  case wanting hdecide =>
    obtain ⟨rfl, rfl⟩ := hmem
    exact TierPolicy.wants_of_decide hdecide

/-- A bit that is set was set before, or was claimed, or is set once more for an artifact. -/
theorem Progress.requested_of {μ : Milestone α} {before after : Multiset (Position α)}
    {l l' : Ledger α} (hprogress : Progress μ before l after l') {r : Request}
    (hset : l'.isRequested r) :
    l.isRequested r ∨ (∃ count, .claiming r count ∈ before) ∨
      ∃ artifact, .publishing r artifact ∈ before := by
  cases hprogress
  case granted q count hgrants =>
    rw [Ledger.isRequested_mark, Bool.or_eq_true, decide_eq_true_eq] at hset
    rcases hset with rfl | hset
    · exact .inr (.inl ⟨count, Multiset.mem_singleton_self _⟩)
    · exact .inl hset
  case released q =>
    rw [Ledger.isRequested_unmark, Bool.and_eq_true] at hset
    exact .inl hset.2
  case recorded q artifact =>
    rw [Ledger.isRequested_mark, Bool.or_eq_true, decide_eq_true_eq] at hset
    rcases hset with rfl | hset
    · exact .inr (.inr ⟨artifact, Multiset.mem_singleton_self _⟩)
    · exact .inl hset
  case placed q artifact => exact .inl (by simpa using hset)
  all_goals exact .inl hset

theorem Motivated.step {μ : Milestone α} {o' : Outline α} {m : MethodId}
    (hmotivated : Motivated policy o m) (hreach : Reach policy h o)
    (htallied : Tallied h o m) (hfew : h.invocations m < 2 ^ 64) (hstep : Outline.Step μ o o') :
    Motivated policy o' m := by
  cases hstep with
  | @intro before after l l' frame hprogress =>
    have hcounts := hprogress.counts_le (htallied.room hfew)
    have hmine : before ⊆ before + frame := Multiset.subset_of_le (Multiset.le_add_right _ _)
    refine ⟨fun {tier count} hmem => ?_, fun {tier} hset => ?_⟩
    · rcases Multiset.mem_add.mp hmem with hafter | hframe
      · have hpolicy : l.policy = policy := hreach.policy_eq
        exact hpolicy ▸ hprogress.wants_of_claiming hafter
      · exact hmotivated.claims (Multiset.mem_add.mpr (.inr hframe))
    · have hold : l.isRequested ⟨m, tier⟩ →
          ∃ count, count ≤ l'.counts m ∧ policy.wants count tier := by
        intro hbefore
        obtain ⟨count, hle, hwants⟩ := hmotivated.bits hbefore
        exact ⟨count, UInt64.le_trans hle hcounts, hwants⟩
      rcases hprogress.requested_of hset with hbefore | ⟨count, hclaims⟩ | ⟨artifact, hpublishes⟩
      · exact hold hbefore
      · have hseen := htallied.seen _ (hmine hclaims) count (by simp [Position.count?])
        exact ⟨count, UInt64.le_trans hseen hcounts, hmotivated.claims (hmine hclaims)⟩
      · have hgated := hreach.gated ⟨m, tier⟩
        exact hold (hgated.of_artifact (hgated.source _ (hmine hpublishes)))

theorem Reach.motivated (hreach : Reach policy h o) (m : MethodId)
    (hfew : h.invocations m < 2 ^ 64) : Motivated policy o m := by
  induction hreach with
  | start => exact motivated_initial policy m
  | @step h μ o o' hreach hstep ih =>
    have hbefore := Nat.lt_of_le_of_lt (h.countP_le_concat _ μ) hfew
    exact (ih hbefore).step hreach (hreach.tallied m hbefore) hbefore hstep

/-! ## The pursuit -/

/-- The position leads to a request for the tier or for a higher one. -/
def Position.pursues (policy : TierPolicy) (m : MethodId) (tier : Tier) : Position α → Prop
  | counted k count => k = m ∧ policy.threshold tier ≤ count
  | inspecting k count requested =>
    k = m ∧ policy.threshold tier ≤ count ∧ requested.grants tier
  | claiming r _ => r.method = m ∧ tier ≤ r.tier
  | _ => False

/-- A tier whose threshold is reached is denied from now on, or somebody pursues it. -/
def Pursued (policy : TierPolicy) (o : Outline α) (m : MethodId) (tier : Tier) : Prop :=
  policy.threshold tier ≤ o.ledger.counts m →
    (o.ledger.requested m).grants tier = false ∨ ∃ p ∈ o.positions, p.pursues policy m tier

/-- A denial lasts until a request of the method is given back. -/
theorem Progress.keeps_denied {μ : Milestone α} {before after : Multiset (Position α)}
    {l l' : Ledger α} (hprogress : Progress μ before l after l') {m : MethodId} {tier : Tier}
    (hkeep : ∀ other, μ ≠ .released ⟨m, other⟩)
    (hdenied : (l.requested m).grants tier = false) : (l'.requested m).grants tier = false := by
  have hmark : ∀ r, ((l.mark r).requested m).grants tier = false := by
    intro r
    by_cases hm : m = r.method
    · subst hm
      rw [Ledger.requested_mark_self]
      exact RequestSet.grants_insert_eq_false r.tier hdenied
    · rwa [Ledger.requested_mark_of_ne l hm]
  cases hprogress with
  | granted _ => exact hmark _
  | recorded r artifact => exact hmark r
  | released r =>
    have hm : m ≠ r.method := fun hm => hkeep r.tier (hm ▸ rfl)
    rwa [Ledger.requested_unmark_of_ne l hm]
  | placed r artifact => rwa [Ledger.requested_place]
  | _ => exact hdenied

/-- Who pursues a tier goes on, or leaves it denied. -/
theorem Progress.pursues {μ : Milestone α} {before after : Multiset (Position α)}
    {l l' : Ledger α} (hprogress : Progress μ before l after l') {m : MethodId} {tier : Tier}
    {p : Position α} (hmem : p ∈ before) (hpursues : p.pursues l.policy m tier) :
    (l'.requested m).grants tier = false ∨ ∃ q ∈ after, q.pursues l.policy m tier := by
  cases hprogress <;> simp only [Multiset.mem_singleton, Multiset.notMem_zero] at hmem <;>
    subst hmem
  case inspected k count =>
    obtain ⟨rfl, hcount⟩ := hpursues
    by_cases hgrants : (l.requested k).grants tier
    · exact .inr ⟨_, Multiset.mem_singleton_self _, rfl, hcount, hgrants⟩
    · exact .inl (Bool.eq_false_iff.mpr hgrants)
  case wanting k count requested wanted hdecide =>
    obtain ⟨rfl, hcount, hgrants⟩ := hpursues
    obtain ⟨wanted', hdecide', hle⟩ := TierPolicy.decide_of_grants hcount hgrants
    rw [hdecide] at hdecide'
    obtain rfl := Option.some.inj hdecide'
    exact .inr ⟨_, Multiset.mem_singleton_self _, rfl, hle⟩
  case content k count requested hdecide =>
    obtain ⟨rfl, hcount, hgrants⟩ := hpursues
    obtain ⟨wanted, hdecide', -⟩ := TierPolicy.decide_of_grants hcount hgrants
    rw [hdecide] at hdecide'
    cases hdecide'
  case granted r count hgrants =>
    obtain ⟨rfl, hle⟩ := hpursues
    rw [Ledger.requested_mark_self]
    exact .inl (RequestSet.grants_insert_of_le hle)
  case denied r count hdenied =>
    obtain ⟨rfl, hle⟩ := hpursues
    exact .inl (RequestSet.grants_eq_false_of_le hle hdenied)
  all_goals exact absurd hpursues id

theorem Pursued.step {μ : Milestone α} {o' : Outline α} {m : MethodId} {tier : Tier}
    (hpursued : Pursued policy o m tier) (hreach : Reach policy h o) (htallied : Tallied h o m)
    (hfew : h.invocations m < 2 ^ 64) (hkeep : ∀ other, μ ≠ .released ⟨m, other⟩)
    (hstep : Outline.Step μ o o') : Pursued policy o' m tier := by
  cases hstep with
  | @intro before after l l' frame hprogress =>
    have hpolicy : l.policy = policy := hreach.policy_eq
    intro hcount
    by_cases hnew : μ = .counted m
    · -- The call that was just counted has seen the new count.
      subst hnew
      have hafter := hprogress.after_counted (htallied.room hfew)
      refine .inr ⟨.counted m (l'.counts m), Multiset.mem_add.mpr (.inl ?_), rfl, hcount⟩
      rw [hafter]
      exact Multiset.mem_singleton_self _
    · have hsame := hprogress.counts_eq hnew
      rcases hpursued (hsame ▸ hcount) with hdenied | ⟨p, hmem, hpursues⟩
      · exact .inl (hprogress.keeps_denied hkeep hdenied)
      · rcases Multiset.mem_add.mp hmem with hbefore | hframe
        · rcases hprogress.pursues hbefore (hpolicy ▸ hpursues) with hdenied | ⟨q, hq, hgoes⟩
          · exact .inl hdenied
          · exact .inr ⟨q, Multiset.mem_add.mpr (.inl hq), hpolicy ▸ hgoes⟩
        · exact .inr ⟨p, Multiset.mem_add.mpr (.inr hframe), hpursues⟩

theorem Reach.pursued (hreach : Reach policy h o) {m : MethodId} {tier : Tier}
    (hpos : 0 < policy.threshold tier) (hfew : h.invocations m < 2 ^ 64)
    (hnever : ∀ other, h.failures ⟨m, other⟩ = 0) : Pursued policy o m tier := by
  induction hreach with
  | start => exact fun hcount => absurd hpos (UInt64.not_lt.mpr hcount)
  | @step h μ o o' hreach hstep ih =>
    have hbefore := Nat.lt_of_le_of_lt (h.countP_le_concat _ μ) hfew
    have hnever' : ∀ other, h.failures ⟨m, other⟩ = 0 := fun other =>
      Nat.eq_zero_of_le_zero (hnever other ▸ h.countP_le_concat _ μ)
    refine (ih hbefore hnever').step hreach (hreach.tallied m hbefore) hbefore ?_ hstep
    -- Only what failed is given back.
    rintro other rfl
    have hrelease : (Milestone.released ⟨m, other⟩ : Milestone α).isRelease ⟨m, other⟩ := by
      simp [Milestone.isRelease]
    have hfailures := (Reach.step hreach hstep).failures_eq ⟨m, other⟩
    rw [hnever other, History.releases, History.countP_concat, hrelease, Bool.toNat_true]
      at hfailures
    omega

/-! ## When all is done -/

/-- `l1` is requested only for a count between the thresholds. -/
theorem Reach.of_l1_requested {m : MethodId} (hreach : Reach policy h o)
    (hfew : h.invocations m < 2 ^ 64) (hset : o.ledger.isRequested ⟨m, .l1⟩) :
    policy.l1Threshold ≤ o.ledger.counts m ∧ policy.l1Threshold < policy.l2Threshold := by
  obtain ⟨count, hle, hl1, hl2⟩ := (hreach.motivated m hfew).bits hset
  exact ⟨UInt64.le_trans hl1 hle, UInt64.lt_of_le_of_lt hl1 (UInt64.not_le.mp hl2)⟩

section Done

variable {m : MethodId} (hreach : Reach policy h o) (hdone : o.positions = 0)

include hreach hdone

theorem Reach.counts_of_done (hfew : h.invocations m < 2 ^ 64) :
    (o.ledger.counts m).toNat = h.invocations m := by
  have htotal := (hreach.tallied m hfew).total
  rwa [hdone, Multiset.countP_zero, add_zero] at htotal

/-- A request was compiled if its bit is set, and otherwise never tried, unless a compilation
failed. -/
theorem Reach.starts_of_done {r : Request} (hnever : h.failures r = 0) :
    h.starts r = (o.ledger.isRequested r).toNat ∧
      h.successes r = (o.ledger.isRequested r).toNat := by
  have hbit := (hreach.gated r).bit
  have hstarts := hreach.starts_eq r
  rw [Outline.held, hdone, Multiset.countP_zero, zero_add] at hbit
  rw [hdone, Multiset.countP_zero, hnever, add_zero, add_zero] at hstarts
  exact ⟨hstarts.trans hbit, hbit⟩

/-- Past the threshold of a tier its request would be denied. -/
theorem Reach.denied_of_done {tier : Tier} (hpos : 0 < policy.threshold tier)
    (hfew : h.invocations m < 2 ^ 64) (hnever : ∀ other, h.failures ⟨m, other⟩ = 0)
    (hcount : policy.threshold tier ≤ o.ledger.counts m) :
    (o.ledger.requested m).grants tier = false := by
  rcases hreach.pursued hpos hfew hnever hcount with hdenied | ⟨p, hmem, -⟩
  · exact hdenied
  · rw [hdone] at hmem
    exact absurd hmem (Multiset.notMem_zero p)

theorem Reach.l2_requested_iff (hpos : ∀ tier, 0 < policy.threshold tier)
    (hfew : h.invocations m < 2 ^ 64) (hnever : ∀ other, h.failures ⟨m, other⟩ = 0) :
    o.ledger.isRequested ⟨m, .l2⟩ ↔ policy.l2Threshold ≤ o.ledger.counts m := by
  refine ⟨fun hset => ?_, fun hcount => ?_⟩
  · obtain ⟨count, hle, hwants⟩ := (hreach.motivated m hfew).bits hset
    exact UInt64.le_trans hwants hle
  · have hdenied := hreach.denied_of_done hdone (hpos .l2) hfew hnever hcount
    rwa [Ledger.grants_l2, Bool.not_eq_false'] at hdenied

theorem Reach.l1_requested_of (hpos : ∀ tier, 0 < policy.threshold tier)
    (hfew : h.invocations m < 2 ^ 64) (hnever : ∀ other, h.failures ⟨m, other⟩ = 0)
    (hl1 : policy.l1Threshold ≤ o.ledger.counts m)
    (hl2 : ¬ policy.l2Threshold ≤ o.ledger.counts m) : o.ledger.isRequested ⟨m, .l1⟩ := by
  have hdenied := hreach.denied_of_done hdone (hpos .l1) hfew hnever hl1
  have hclear := mt (hreach.l2_requested_iff hdone hpos hfew hnever).mp hl2
  rw [Ledger.grants_l1, Bool.eq_false_iff.mpr hclear] at hdenied
  simpa using hdenied

/-- What is published goes by the thresholds. -/
theorem Reach.tier_of_done (hpos : ∀ tier, 0 < policy.threshold tier)
    (hfew : h.invocations m < 2 ^ 64) (hnever : ∀ other, h.failures ⟨m, other⟩ = 0) :
    (o.ledger.active m).map (·.tier) =
      if policy.l2Threshold ≤ o.ledger.counts m then some .l2
      else if policy.l1Threshold ≤ o.ledger.counts m then some .l1
      else none := by
  have hset : ∀ bit : Bool, 0 < bit.toNat ↔ bit := by decide
  have hl2 := hreach.l2_requested_iff hdone hpos hfew hnever
  rw [hreach.published.active_eq_best? hdone, History.tier_best?]
  simp only [(hreach.starts_of_done hdone (hnever _)).2, hset, hl2]
  by_cases hcount : policy.l2Threshold ≤ o.ledger.counts m
  · rw [if_pos hcount, if_pos hcount]
  · rw [if_neg hcount, if_neg hcount]
    by_cases hl1 : policy.l1Threshold ≤ o.ledger.counts m
    · rw [if_pos (hreach.l1_requested_of hdone hpos hfew hnever hl1 hcount), if_pos hl1]
    · rw [if_neg fun hbit => hl1 (hreach.of_l1_requested hfew hbit).1, if_neg hl1]

end Done

/-! ## Main result -/

/-- **No promotion is missed.** Take any run with a method called `n < 2^64` times and no failed
compilation of it. When all calls have returned and nothing is queued or in flight, it was compiled
at `l2` once if `n` reached the threshold of `l2` and never otherwise, and at `l1` once if `n` lies
between the thresholds and at most once if it went past both of them, `l1` first. -/
theorem promoted_exactly_once {config : TierConfig} {d : Dispatcher α} {callers : Nat}
    {labels : List (Label α β)} {s : System α β} (hstart : Dispatcher.start config = .ok d)
    (hown : ∀ label ∈ labels, label.isOwn) (hrun : (System.start d callers).run labels = some s)
    (hquiet : s.isQuiet) (m : MethodId)
    (hnever : ∀ tier, ((System.start d callers).history labels).failures ⟨m, tier⟩ = 0)
    (hfew : ((System.start d callers).history labels).invocations m < 2 ^ 64) :
    let h := (System.start d callers).history labels
    let n := h.invocations m
    let l1 := config.l1Threshold.toNat
    let l2 := config.l2Threshold.toNat
    h.starts ⟨m, .l2⟩ = (if l2 ≤ n then 1 else 0) ∧
    (l1 ≤ n → n < l2 → h.starts ⟨m, .l1⟩ = 1) ∧
    (l2 ≤ n → l1 < l2 → h.starts ⟨m, .l1⟩ ≤ 1) ∧
    (n < l1 ∨ l2 ≤ l1 → h.starts ⟨m, .l1⟩ = 0) ∧
    s.dispatcher.methodTier m =
      if l2 ≤ n then .l2Compiled else if l1 ≤ n then .l1Compiled else .interpreted := by
  intro h n l1 l2
  have hreach := System.reach_of_run hstart hown hrun
  have hdone : s.outline.positions = 0 := System.positions_of_isQuiet hquiet
  have hpos := TierConfig.threshold_pos_of_validate (Dispatcher.validate_of_start hstart)
  have hcounts : (s.outline.ledger.counts m).toNat = n := hreach.counts_of_done hdone hfew
  have hl1 : config.l1Threshold ≤ s.outline.ledger.counts m ↔ l1 ≤ n := by
    rw [UInt64.le_iff_toNat_le, hcounts]
  have hl2 : config.l2Threshold ≤ s.outline.ledger.counts m ↔ l2 ≤ n := by
    rw [UInt64.le_iff_toNat_le, hcounts]
  have hset₂ : s.outline.ledger.isRequested ⟨m, .l2⟩ ↔ l2 ≤ n :=
    (hreach.l2_requested_iff hdone hpos hfew hnever).trans hl2
  have hset₁ : s.outline.ledger.isRequested ⟨m, .l1⟩ → l1 ≤ n ∧ l1 < l2 := by
    intro hset
    obtain ⟨hcount, hbetween⟩ := hreach.of_l1_requested hfew hset
    exact ⟨hl1.mp hcount, UInt64.lt_iff_toNat_lt.mp hbetween⟩
  have htier : s.dispatcher.methodTier m =
      .ofTier (if l2 ≤ n then some .l2 else if l1 ≤ n then some .l1 else none) := by
    have hactive := hreach.tier_of_done hdone hpos hfew hnever
    simp only [TierPolicy.ofConfig, hl1, hl2] at hactive
    exact congrArg MethodTier.ofTier hactive
  rw [(hreach.starts_of_done hdone (hnever .l2)).1, (hreach.starts_of_done hdone (hnever .l1)).1,
    htier]
  refine ⟨?_, fun hl1' hl2' => ?_, fun _ _ => Bool.toNat_le _, fun hnot => ?_, ?_⟩
  · by_cases hmany : l2 ≤ n
    · rw [if_pos hmany, hset₂.mpr hmany, Bool.toNat_true]
    · rw [if_neg hmany, Bool.eq_false_iff.mpr (mt hset₂.mp hmany), Bool.toNat_false]
  · have hfound := hreach.l1_requested_of hdone hpos hfew hnever (hl1.mpr hl1')
      (mt hl2.mp (Nat.not_le.mpr hl2'))
    rw [hfound, Bool.toNat_true]
  · have hclear : ¬ s.outline.ledger.isRequested ⟨m, .l1⟩ := by
      intro hset
      obtain ⟨hreached, hbetween⟩ := hset₁ hset
      omega
    rw [Bool.eq_false_iff.mpr hclear, Bool.toNat_false]
  · split
    · rfl
    · split <;> rfl

/-- Two callers of one method. The first one stops when it has its count, and goes on when the
second one is through with compiling at `l2`. -/
def overtaking : List (Label Nat Nat) :=
  let advances (i n : Nat) : List (Label Nat Nat) := List.replicate n (.caller i .advance)
  [.caller 0 (.invoke ⟨0⟩ false)] ++ advances 0 3 ++
    [.caller 1 (.invoke ⟨0⟩ false)] ++ advances 1 6 ++
    [.caller 1 .beginCompile, .caller 1 (.endCompile (.value 7))] ++ advances 1 6 ++
    [.caller 1 (.endRun (.value 1)), .caller 1 .leave] ++ advances 0 4 ++
    [.caller 0 (.endRun (.value 1)), .caller 0 .leave]

theorem promoted_exactly_once_overtaking :
    let d : Dispatcher Nat := .ofConfig (.withThresholds 1 2)
    ∃ s, (System.start d 2).run overtaking = some s ∧ s.isQuiet ∧
      ((System.start d 2).history overtaking).starts ⟨⟨0⟩, .l2⟩ = 1 ∧
      s.dispatcher.methodTier ⟨0⟩ = .l2Compiled := by
  intro d
  have hstart : Dispatcher.start (.withThresholds 1 2) = .ok d := rfl
  have hruns : ((System.start d 2).run overtaking).any (·.isQuiet) := by decide +kernel
  obtain ⟨s, hrun, hquiet⟩ := (Option.any_eq_true _ _).mp hruns
  have hresult := promoted_exactly_once hstart (by decide) hrun hquiet ⟨0⟩
    (fun tier => by cases tier <;> decide +kernel) (by decide +kernel)
  have hmany : (TierConfig.withThresholds 1 2).l2Threshold.toNat ≤
      ((System.start d 2).history overtaking).invocations ⟨0⟩ := by decide +kernel
  exact ⟨s, hrun, hquiet, hresult.1.trans (if_pos hmany), hresult.2.2.2.2.trans (if_pos hmany)⟩

end TieredDispatch

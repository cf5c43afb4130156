import Mathlib.Data.List.DropRight
import TieredDispatch.Proofs.Operations

/-!
# What the gate grants

**Theorem (`granted_iff_unclaimed_since_release`).** Whatever operations a fresh cache goes through,
its gate goes by what happened since the latest release of a request: `l2` is granted when it was
neither granted nor published since then, and `l1` when neither tier was.

A **claim** of a request is a grant of it, or the first half of a publication at its tier. The bit
of a request is set exactly while the request is claimed since its latest release
(`Gatekept.bits`), because a claim sets it, a release clears it, and nothing else touches it. All
else is read off the bits that the grants and the denials of the history found.
-/

namespace TieredDispatch

variable {α : Type}

/-! ## Claims since the latest release -/

/-- The milestone sets the bit of a request. -/
def Milestone.isClaim (r : Request) : Milestone α → Bool
  | granted q | recorded q => q = r
  | _ => false

theorem Milestone.isGrant_iff {r : Request} {μ : Milestone α} : μ.isGrant r ↔ μ = .granted r := by
  cases μ <;> simp [isGrant]

theorem Milestone.isClaim_iff {r : Request} {μ : Milestone α} :
    μ.isClaim r ↔ μ = .granted r ∨ μ = .recorded r := by
  cases μ <;> simp [isClaim]

/-- A claim sets the bit, a release clears it, and nothing else touches it. -/
theorem Milestone.isRequested_ledger (μ : Milestone α) (l : Ledger α) (r : Request) :
    (μ.ledger l).isRequested r = (μ.isClaim r || (!μ.isRelease r && l.isRequested r)) := by
  cases μ with
  | granted q => simp [ledger, isClaim, isRelease, Ledger.isRequested_mark, eq_comm]
  | recorded q => simp [ledger, isClaim, isRelease, Ledger.isRequested_mark, eq_comm]
  | released q => simp [ledger, isClaim, isRelease, Ledger.isRequested_unmark, eq_comm]
  | placed q artifact => simp [ledger, isClaim, isRelease]
  | counted m => simp [ledger, isClaim, isRelease]
  | _ => rfl

namespace History

/-- What happened since the latest release of a request, or since the start if there was none. -/
def sinceRelease (h : History α) (r : Request) : History α :=
  h.rtakeWhile (!·.isRelease r)

/-- Since its latest release the request was granted, or published for. -/
def IsClaimed (h : History α) (r : Request) : Prop :=
  ∃ μ ∈ h.sinceRelease r, μ = .granted r ∨ μ = .recorded r

/-- Neither the tier of the request nor a higher one is claimed. -/
def IsFree (h : History α) (r : Request) : Prop :=
  ∀ tier, r.tier ≤ tier → ¬ h.IsClaimed ⟨r.method, tier⟩

theorem isFree_l1 {h : History α} {m : MethodId} :
    h.IsFree ⟨m, .l1⟩ ↔ ∀ tier, ¬ h.IsClaimed ⟨m, tier⟩ := by
  have hleast : ∀ tier, Tier.l1 ≤ tier := fun tier => by cases tier <;> decide
  exact forall_congr' fun tier => ⟨fun hclear => hclear (hleast tier), fun hclear _ => hclear⟩

theorem isFree_l2 {h : History α} {m : MethodId} :
    h.IsFree ⟨m, .l2⟩ ↔ ¬ h.IsClaimed ⟨m, .l2⟩ := by
  have hgreatest : ∀ tier, Tier.l2 ≤ tier → tier = .l2 := fun tier => by cases tier <;> decide
  refine ⟨fun hfree => hfree .l2 (Nat.le_refl _), fun hclear tier hle => ?_⟩
  rwa [hgreatest tier hle]

theorem not_isClaimed_nil (r : Request) : ¬ IsClaimed ([] : History α) r := by
  rintro ⟨μ, hmem, -⟩
  cases hmem

theorem isClaimed_concat (h : History α) (μ : Milestone α) (r : Request) :
    IsClaimed (h ++ [μ]) r ↔ μ.isClaim r ∨ μ.isRelease r = false ∧ h.IsClaimed r := by
  unfold IsClaimed sinceRelease
  rw [List.rtakeWhile_concat]
  cases hrelease : μ.isRelease r with
  | true =>
    have hclaim : μ.isClaim r = false := by
      cases μ with
      | released q => rfl
      | _ => cases hrelease
    simp [hclaim]
  | false =>
    simp only [Bool.not_false, if_true, List.mem_append, List.mem_singleton, or_and_right,
      exists_or, exists_eq_left, Milestone.isClaim_iff, true_and]
    exact or_comm

/-- What was claimed and not released afterwards is claimed. -/
theorem isClaimed_append {k : History α} {r : Request} {μ : Milestone α} (hmem : μ ∈ k)
    (hclaim : μ.isClaim r) (hkept : .released r ∉ k) (h : History α) : IsClaimed (h ++ k) r := by
  induction k using List.reverseRecOn with
  | nil => cases hmem
  | append_singleton k ν ih =>
    rw [List.mem_append, List.mem_singleton, not_or] at hkept
    rw [← List.append_assoc, isClaimed_concat]
    rcases List.mem_append.mp hmem with hearlier | hlast
    · refine .inr ⟨?_, ih hearlier hkept.1⟩
      cases ν with
      | released q => simpa [Milestone.isRelease, eq_comm] using hkept.2
      | _ => rfl
    · rw [← List.mem_singleton.mp hlast]
      exact .inl hclaim

theorem isClaimed_of_granted {h : History α} {r : Request} (hmem : .granted r ∈ h)
    (hkept : .released r ∉ h) : h.IsClaimed r :=
  isClaimed_append hmem (Milestone.isClaim_iff.mpr (.inl rfl)) hkept []

/-- What is claimed was claimed at some time. -/
theorem IsClaimed.mem {h : History α} {r : Request} (hclaimed : h.IsClaimed r) :
    .granted r ∈ h ∨ .recorded r ∈ h := by
  obtain ⟨μ, hmem, hμ⟩ := hclaimed
  have hin : μ ∈ h := (List.rtakeWhile_suffix _ h).subset hmem
  rcases hμ with rfl | rfl
  · exact .inl hin
  · exact .inr hin

end History

/-! ## The gate and its history -/

/-- The bits of a cache stand for the claims of its history, and every grant and every denial in
it went by the claims before. -/
structure Gatekept (h : History α) (cache : CompilationCache α) : Prop where
  bits : ∀ r : Request, (cache.requested r.method).contains r.tier ↔ h.IsClaimed r
  granted : ∀ (k : History α) r, k ++ [.granted r] <+: h → k.IsFree r
  denied : ∀ (k : History α) r, k ++ [.denied r] <+: h → ¬ k.IsFree r

namespace Gatekept

variable {h : History α} {cache : CompilationCache α}

theorem fresh (shards : Nat) : Gatekept [] (.withShards shards : CompilationCache α) where
  bits r := by
    rw [CompilationCache.requested, CompilationCache.entry_withShards]
    refine iff_of_false ?_ (History.not_isClaimed_nil r)
    cases r.tier <;> exact Bool.false_ne_true
  granted k r hpre := by simp at hpre
  denied k r hpre := by simp at hpre

/-- A request is granted when no tier from its own up is claimed. -/
theorem request_iff (hkept : Gatekept h cache) (r : Request) :
    (cache.request r.method r.tier).1 ↔ h.IsFree r := by
  obtain ⟨m, tier⟩ := r
  rw [CompilationCache.request_fst, RequestSet.grants_iff]
  exact forall₂_congr fun higher _ => not_congr (hkept.bits ⟨m, higher⟩)

theorem step (hkept : Gatekept h cache) (operation : CacheOperation α) :
    Gatekept (h ++ [operation.milestone cache]) (operation.apply cache) where
  bits r := by
    have hbit := (operation.milestone cache).isRequested_ledger (cache.ledger {} fun _ => 0) r
    rw [← operation.ledger_apply] at hbit
    change ((operation.apply cache).requested r.method).contains r.tier =
      (_ || (_ && (cache.requested r.method).contains r.tier)) at hbit
    rw [hbit, History.isClaimed_concat, Bool.or_eq_true, Bool.and_eq_true, Bool.not_eq_true',
      hkept.bits]
  granted k r hpre := by
    rcases List.prefix_concat_iff.mp hpre with heq | hearlier
    · obtain ⟨rfl, hμ⟩ := List.append_inj' heq rfl
      have hgranted := CacheOperation.request_of_milestone_granted (List.singleton_inj.mp hμ).symm
      exact (hkept.request_iff r).mp hgranted
    · exact hkept.granted k r hearlier
  denied k r hpre := by
    rcases List.prefix_concat_iff.mp hpre with heq | hearlier
    · obtain ⟨rfl, hμ⟩ := List.append_inj' heq rfl
      have hdenied := CacheOperation.request_of_milestone_denied (List.singleton_inj.mp hμ).symm
      rw [← hkept.request_iff, hdenied]
      exact Bool.false_ne_true
    · exact hkept.denied k r hearlier

theorem run (hkept : Gatekept h cache) (operations : List (CacheOperation α)) :
    Gatekept (h ++ CacheOperation.history cache operations)
      (CacheOperation.applyAll cache operations) := by
  induction operations generalizing h cache with
  | nil => simpa [CacheOperation.history, CacheOperation.applyAll] using hkept
  | cons operation operations ih =>
    have hrest := ih (hkept.step operation)
    rwa [List.append_assoc] at hrest

end Gatekept

/-! ## The grants of a history -/

namespace Gatekept

variable {h : History α} {cache : CompilationCache α} {r : Request}

/-- What is granted was not claimed before. -/
theorem unclaimed (hkept : Gatekept h cache) {k : History α} (hpre : k ++ [.granted r] <+: h) :
    ¬ k.IsClaimed r :=
  hkept.granted k r hpre r.tier (Nat.le_refl _)

/-- Between two grants of a request lies a release of it. -/
theorem released_between (hkept : Gatekept h cache) {before between : History α}
    (hpre : before ++ .granted r :: between ++ [.granted r] <+: h) : .released r ∈ between := by
  by_contra hnone
  refine hkept.unclaimed hpre (History.isClaimed_append List.mem_cons_self ?_ ?_ before)
  · exact Milestone.isClaim_iff.mpr (.inl rfl)
  · simpa using hnone

/-- A request that is never released is granted once at most. -/
theorem grants_le_one (hgate : ∀ k : History α, k ++ [.granted r] <+: h → ¬ k.IsClaimed r)
    (hnone : .released r ∉ h) : h.grants r ≤ 1 := by
  induction h using List.reverseRecOn with
  | nil => exact Nat.zero_le 1
  | append_singleton k μ ih =>
    have hnone' : .released r ∉ k := fun hmem => hnone (List.mem_append_left _ hmem)
    have hbefore := ih (fun j hj => hgate j (hj.trans (List.prefix_append k [μ]))) hnone'
    rw [History.grants, History.countP_concat]
    cases hgrant : μ.isGrant r with
    | false => exact hbefore
    | true =>
      obtain rfl := Milestone.isGrant_iff.mp hgrant
      have hfirst : k.countP (·.isGrant r) = 0 := by
        rw [List.countP_eq_zero]
        intro ν hν hνr
        obtain rfl := Milestone.isGrant_iff.mp hνr
        exact hgate k (List.prefix_refl _) (History.isClaimed_of_granted hν hnone')
      rw [hfirst]
      exact Nat.le_refl 1

/-- Who asks for `l2` finds it granted, now or before, unless it was published for. -/
theorem grants_pos (hkept : Gatekept h cache) {m : MethodId}
    (hasked : .granted ⟨m, .l2⟩ ∈ h ∨ .denied ⟨m, .l2⟩ ∈ h) (hnone : .recorded ⟨m, .l2⟩ ∉ h) :
    0 < h.grants ⟨m, .l2⟩ := by
  have hgranted : .granted ⟨m, .l2⟩ ∈ h := by
    rcases hasked with hgranted | hdenied
    · exact hgranted
    · obtain ⟨k, rest, rfl⟩ := List.append_of_mem hdenied
      have hpre : k ++ [.denied ⟨m, .l2⟩] <+: k ++ .denied ⟨m, .l2⟩ :: rest :=
        ⟨rest, List.append_assoc ..⟩
      have hclaimed := hkept.denied k _ hpre
      rw [History.isFree_l2, not_not] at hclaimed
      rcases hclaimed.mem with hgranted | hrecorded
      · exact List.mem_append_left _ hgranted
      · exact absurd (List.mem_append_left _ hrecorded) hnone
  exact List.countP_pos_iff.mpr ⟨_, hgranted, Milestone.isGrant_iff.mpr rfl⟩

end Gatekept

/-! ## Main result -/

/-- **The gate goes by what happened since the latest release.** After any calls on a fresh cache,
interleaved in any way: `l2` is granted unless it was granted or published for since its latest
release, `l1` unless either tier was, and a tier is reported as requested exactly if it was. So two
grants of a request have a release of it between them. Of a method that is never released or
published for, `l2` is granted exactly once if it is asked for, and `l1` at most once and only
before `l2`. -/
theorem granted_iff_unclaimed_since_release (shards : Nat) :
    (∀ commands : List (CacheCommand α), CacheCommand.runAll (.withShards shards) commands =
      CacheOperation.applyAll (.withShards shards) (commands.flatMap (·.steps))) ∧
    ∀ operations : List (CacheOperation α),
      let cache := CacheOperation.applyAll (.withShards shards) operations
      let h := CacheOperation.history (.withShards shards) operations
      (∀ m, ((cache.request m .l2).1 ↔ ¬ h.IsClaimed ⟨m, .l2⟩) ∧
        ((cache.request m .l1).1 ↔ ∀ tier, ¬ h.IsClaimed ⟨m, tier⟩) ∧
        ((cache.tierState m).l1Requested ↔ h.IsClaimed ⟨m, .l1⟩) ∧
        ((cache.tierState m).l2Requested ↔ h.IsClaimed ⟨m, .l2⟩)) ∧
      (∀ r before between, before ++ .granted r :: between ++ [.granted r] <+: h →
        .released r ∈ between) ∧
      ∀ m, (∀ tier, .released ⟨m, tier⟩ ∉ h ∧ .recorded ⟨m, tier⟩ ∉ h) →
        (.request m .l2 ∈ operations → h.grants ⟨m, .l2⟩ = 1) ∧
        h.grants ⟨m, .l1⟩ ≤ 1 ∧
        ∀ k : History α, k ++ [.granted ⟨m, .l1⟩] <+: h → .granted ⟨m, .l2⟩ ∉ k := by
  refine ⟨CacheCommand.runAll_eq _, fun operations => ?_⟩
  intro cache h
  have hkept : Gatekept h cache := (Gatekept.fresh shards).run operations
  refine ⟨fun m => ⟨?_, ?_, hkept.bits ⟨m, .l1⟩, hkept.bits ⟨m, .l2⟩⟩,
    fun r before between hpre => hkept.released_between hpre, fun m hnone => ⟨?_, ?_, ?_⟩⟩
  · exact (hkept.request_iff ⟨m, .l2⟩).trans History.isFree_l2
  · exact (hkept.request_iff ⟨m, .l1⟩).trans History.isFree_l1
  · intro hasked
    have hreplied := CacheOperation.mem_history_of_request hasked (.withShards shards)
    have hmost := Gatekept.grants_le_one (fun k => hkept.unclaimed) (hnone .l2).1
    have hleast := hkept.grants_pos hreplied (hnone .l2).2
    omega
  · exact Gatekept.grants_le_one (fun k => hkept.unclaimed) (hnone .l1).1
  · intro k hpre hgranted
    have hkeep : .released ⟨m, .l2⟩ ∉ k := fun hmem =>
      (hnone .l2).1 (hpre.subset (List.mem_append_left _ hmem))
    have hfree := History.isFree_l1.mp (hkept.granted k ⟨m, .l1⟩ hpre)
    exact hfree .l2 (History.isClaimed_of_granted hgranted hkeep)

end TieredDispatch

import TieredDispatch.Proofs.Granting
import TieredDispatch.Proofs.Publishing

/-!
# The entries of a cache

**Theorem (`size_counts_methods_ever_entered`).** The size of a cache is the number of methods that
were ever asked for or published for. The methods with a request or an artifact are among them. A
method that was given back all its requests, and has no artifact, is counted too, though its
snapshot is that of a method never seen.

An operation leaves an entry for the method that it is about, unless it is a release, and none takes
an entry away (`CacheOperation.contains_apply`).
-/

namespace TieredDispatch

variable {α : Type}

/-! ## Entries and operations -/

namespace CompilationCache

variable (cache : CompilationCache α) (m : MethodId)

theorem contains_update (f : CacheEntry α → CacheEntry α) (k : MethodId) :
    (cache.update m f).entries.contains k ↔ m = k ∨ cache.entries.contains k := by
  rw [update, ShardedMap.contains_put, Bool.or_eq_true, decide_eq_true_iff]

theorem tierState_of_not_contains {cache : CompilationCache α} {m : MethodId}
    (hnone : ¬ cache.entries.contains m) : cache.tierState m = {} := by
  rw [ShardedMap.contains_eq_isSome_get?, Option.not_isSome_iff_eq_none] at hnone
  rw [tierState, requested, tierOf, lookup, entry, hnone]
  rfl

/-- A snapshot shows nothing if no tier is requested and nothing is published. -/
theorem tierState_eq_empty_iff :
    cache.tierState m = {} ↔
      (∀ tier, ¬ (cache.requested m).contains tier) ∧ cache.lookup m = none := by
  have hbits : ∀ requested : RequestSet,
      (∀ tier, ¬ requested.contains tier) ↔ requested.l1 = false ∧ requested.l2 = false := by
    rintro ⟨l1, l2⟩
    constructor
    · exact fun hclear => ⟨Bool.eq_false_iff.mpr (hclear .l1), Bool.eq_false_iff.mpr (hclear .l2)⟩
    · rintro ⟨rfl, rfl⟩ tier
      cases tier <;> exact Bool.false_ne_true
  rw [hbits, tierState, TierState.ofReads, TierState.mk.injEq, tierOf, Option.map_eq_none_iff,
    and_assoc]

/-- A request that is granted and then given back leaves no trace in any snapshot. -/
theorem tierState_release_request {tier : Tier} (hgranted : (cache.request m tier).1) :
    ((cache.request m tier).2.release m tier).tierState = cache.tierState := by
  rw [request_fst] at hgranted
  have hclear : (cache.ledger {} fun _ => 0).isRequested ⟨m, tier⟩ = false :=
    Bool.eq_false_iff.mpr ((RequestSet.grants_iff _ tier).mp hgranted tier (Nat.le_refl _))
  have hledger : ((cache.request m tier).2.release m tier).ledger {} (fun _ => 0) =
      cache.ledger {} fun _ => 0 := by
    rw [ledger_release _ _ _ ⟨m, tier⟩, cache.ledger_request_of_grants _ _ ⟨m, tier⟩ hgranted,
      Ledger.unmark_mark hclear]
  have hrequested := congrArg Ledger.requested hledger
  have hactive := congrArg Ledger.active hledger
  change CompilationCache.requested _ = cache.requested at hrequested
  change CompilationCache.lookup _ = cache.lookup at hactive
  funext k
  rw [tierState, tierState, tierOf, tierOf, hrequested, hactive]

end CompilationCache

namespace CacheOperation

/-- The method that an operation leaves an entry for. -/
def entered? : CacheOperation α → Option MethodId
  | request m _ | recordRequest m _ | place m _ => some m
  | release _ _ => none

/-- Entries stay, and an operation adds at most the one of its method. -/
theorem contains_apply (operation : CacheOperation α) (cache : CompilationCache α) (k : MethodId) :
    (operation.apply cache).entries.contains k ↔
      operation.entered? = some k ∨ cache.entries.contains k := by
  cases operation with
  | request m tier =>
    simp only [apply, entered?, CompilationCache.request, Option.some.injEq]
    split <;> exact cache.contains_update m _ k
  | recordRequest m tier =>
    rw [entered?, Option.some.injEq]
    exact cache.contains_update m _ k
  | release m tier =>
    simp only [apply, entered?, CompilationCache.release, reduceCtorEq, false_or]
    split
    · rename_i hentered
      rw [cache.contains_update]
      exact or_iff_right_of_imp fun hmk => hmk ▸ hentered
    · rfl
  | place m compiled =>
    simp only [apply, entered?, CompilationCache.place, Option.some.injEq]
    split
    · rename_i current htier
      split
      · -- An offer is refused only where there is an artifact, and so an entry.
        exact (or_iff_right_of_imp fun hmk => hmk ▸ CompilationCache.contains_of_tierOf htier).symm
      · exact cache.contains_update m _ k
    · exact cache.contains_update m _ k

theorem lookup_apply_eq_none_iff (operation : CacheOperation α) (cache : CompilationCache α)
    (m : MethodId) :
    (operation.apply cache).lookup m = none ↔
      (∀ c, operation ≠ .place m c) ∧ cache.lookup m = none := by
  cases operation with
  | request k tier => simp [apply, CompilationCache.lookup_request]
  | release k tier => simp [apply, CompilationCache.lookup_release]
  | recordRequest k tier => simp [apply, CompilationCache.lookup_recordRequest]
  | place k c =>
    rw [apply, CompilationCache.lookup_place]
    by_cases hkm : k = m
    · subst hkm
      split
      · rename_i hrefused
        cases hshown : cache.lookup k with
        | none => simp [hshown] at hrefused
        | some current => simp
      · simp
    · split
      · simp [hkm]
      · simp [Function.update_of_ne (Ne.symm hkm), hkm]

theorem contains_applyAll (operations : List (CacheOperation α)) (cache : CompilationCache α)
    (k : MethodId) :
    (applyAll cache operations).entries.contains k ↔
      k ∈ operations.filterMap entered? ∨ cache.entries.contains k := by
  induction operations generalizing cache with
  | nil => simp [applyAll]
  | cons operation operations ih =>
    refine (ih (operation.apply cache)).trans ?_
    rw [contains_apply, List.mem_filterMap, List.mem_filterMap, List.exists_mem_cons_iff,
      ← or_assoc]
    exact or_congr_left or_comm

theorem lookup_applyAll_eq_none_iff (operations : List (CacheOperation α))
    (cache : CompilationCache α) (m : MethodId) :
    (applyAll cache operations).lookup m = none ↔
      (∀ c, .place m c ∉ operations) ∧ cache.lookup m = none := by
  induction operations generalizing cache with
  | nil => simp [applyAll]
  | cons operation operations ih =>
    refine (ih (operation.apply cache)).trans ?_
    rw [lookup_apply_eq_none_iff]
    simp only [List.mem_cons, not_or, forall_and, ne_comm, ne_eq]
    tauto

end CacheOperation

/-! ## Main result -/

/-- The methods with an entry are those that operations on a fresh cache left one for. -/
theorem toFinset_keys_applyAll (shards : Nat) (operations : List (CacheOperation α)) :
    (CacheOperation.applyAll (.withShards shards) operations).entries.keys.toFinset =
      (operations.filterMap (·.entered?)).toFinset := by
  ext k
  have hfresh : ((.withShards shards : CompilationCache α).entries.contains k) = false := by
    rw [ShardedMap.contains_eq_isSome_get?, CompilationCache.withShards,
      ShardedMap.get?_withShards, Option.isSome_none]
  rw [List.mem_toFinset, List.mem_toFinset, ShardedMap.mem_keys, CacheOperation.contains_applyAll,
    hfresh]
  exact or_iff_left Bool.false_ne_true

theorem size_applyAll (shards : Nat) (operations : List (CacheOperation α)) :
    (CacheOperation.applyAll (.withShards shards) operations).size =
      (operations.filterMap (·.entered?)).toFinset.card := by
  rw [CompilationCache.size, ← ShardedMap.card_keys, toFinset_keys_applyAll]

/-- **The size counts every method ever entered.** After any calls on a fresh cache, interleaved in
any way, the size is the number of methods that were asked for or published for. A method among them
has an empty snapshot if its claims were all released and nothing was placed for it, so the size is
the number of methods with a snapshot that is not empty only if there is no such method. A grant
that is given back leaves all snapshots as they were, and the size one greater if the method is
new. -/
theorem size_counts_methods_ever_entered (shards : Nat) :
    (∀ commands : List (CacheCommand α), CacheCommand.runAll (.withShards shards) commands =
      CacheOperation.applyAll (.withShards shards) (commands.flatMap (·.steps))) ∧
    ∀ operations : List (CacheOperation α),
      let cache := CacheOperation.applyAll (.withShards shards) operations
      let h := CacheOperation.history (.withShards shards) operations
      let entered := (operations.filterMap (·.entered?)).toFinset
      cache.size = entered.card ∧
      (cache.isEmpty ↔ entered = ∅) ∧
      (∀ m, cache.tierState m ≠ {} → m ∈ entered) ∧
      (∀ m, cache.tierState m = {} ↔
        (∀ tier, ¬ h.IsClaimed ⟨m, tier⟩) ∧ ∀ c, .place m c ∉ operations) ∧
      (cache.size = {m ∈ entered | cache.tierState m ≠ {}}.card ↔
        ∀ m ∈ entered, cache.tierState m ≠ {}) ∧
      ∀ m tier, (cache.request m tier).1 →
        ((cache.request m tier).2.release m tier).tierState = cache.tierState ∧
        ((cache.request m tier).2.release m tier).size =
          cache.size + if m ∈ entered then 0 else 1 := by
  refine ⟨CacheCommand.runAll_eq _, fun operations => ?_⟩
  intro cache h entered
  have hkeys : cache.entries.keys.toFinset = entered := toFinset_keys_applyAll shards operations
  have hsize : cache.size = entered.card := size_applyAll shards operations
  have hempty : ∀ m, cache.tierState m = {} ↔
      (∀ tier, ¬ h.IsClaimed ⟨m, tier⟩) ∧ ∀ c, .place m c ∉ operations := by
    intro m
    have hkept : Gatekept h cache := (Gatekept.fresh shards).run operations
    have hnone := CacheOperation.lookup_applyAll_eq_none_iff operations (.withShards shards) m
    rw [CompilationCache.tierState_eq_empty_iff, hnone]
    refine and_congr (forall_congr' fun tier => not_congr (hkept.bits ⟨m, tier⟩)) ?_
    refine and_iff_left ?_
    rw [CompilationCache.lookup, CompilationCache.entry_withShards]
  refine ⟨hsize, ?_, ?_, hempty, ?_, ?_⟩
  · rw [CompilationCache.isEmpty, hsize, beq_iff_eq, Finset.card_eq_zero]
  · intro m hshown
    rw [← hkeys, List.mem_toFinset, ShardedMap.mem_keys]
    exact not_imp_comm.mp CompilationCache.tierState_of_not_contains hshown
  · rw [hsize, eq_comm, Finset.card_filter_eq_iff]
  · intro m tier hgranted
    refine ⟨cache.tierState_release_request m hgranted, ?_⟩
    have hafter : ((cache.request m tier).2.release m tier).size = (insert m entered).card := by
      have hsizes := size_applyAll shards (operations ++ [.request m tier, .release m tier])
      rw [CacheOperation.applyAll, List.foldl_append, List.filterMap_append,
        List.toFinset_append] at hsizes
      exact hsizes.trans (congrArg Finset.card (entered.union_comm {m}))
    rw [hafter, hsize]
    by_cases hentered : m ∈ entered
    · rw [Finset.insert_eq_of_mem hentered, if_pos hentered, Nat.add_zero]
    · rw [Finset.card_insert_of_notMem hentered, if_neg hentered]

/-- A request that was given back still counts, though no snapshot shows anything. -/
theorem released_request_counts :
    let cache : CompilationCache Nat :=
      CacheCommand.runAll (.withShards 64) [.request ⟨1⟩ .l1, .release ⟨1⟩ .l1]
    (∀ m, cache.tierState m = {}) ∧ cache.size = 1 ∧ cache.isEmpty = false := by
  intro cache
  have hsize : cache.size = 1 :=
    size_applyAll 64 [.request ⟨1⟩ .l1, .release ⟨1⟩ .l1]
  refine ⟨fun m => ?_, hsize, by rw [CompilationCache.isEmpty, hsize]; rfl⟩
  have hgranted : ((.withShards 64 : CompilationCache Nat).request ⟨1⟩ .l1).1 := by
    rw [CompilationCache.request_fst, CompilationCache.requested,
      CompilationCache.entry_withShards]
    rfl
  refine (congrFun (CompilationCache.tierState_release_request _ _ hgranted) m).trans ?_
  rw [CompilationCache.tierState_eq_empty_iff, CompilationCache.requested,
    CompilationCache.lookup, CompilationCache.entry_withShards]
  exact ⟨fun tier => by cases tier <;> decide, rfl⟩

end TieredDispatch

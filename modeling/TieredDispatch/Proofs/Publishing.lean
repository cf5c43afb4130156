import TieredDispatch.Proofs.Operations

/-!
# What a cache publishes

**Theorem (`lookup_eq_latest_of_highest`).** Whatever commands a fresh cache goes through, the
artifact it shows for a method is the latest of those published for it at the highest tier, and
every read of the cache agrees with that.

The cache keeps one artifact for a method, and a publication replaces it or leaves it after a look
at its tier alone. That is enough (`Shows.offer`): a refused offer is below a tier that was offered
before, and one that is taken is at the highest tier so far, and the latest there.
-/

namespace TieredDispatch

variable {α : Type}

/-! ## The latest offer of the highest tier -/

/-- Of the offers, oldest first, the latest one at the highest tier. -/
structure IsLatestOfHighest (offers : List (CompiledMethod α)) (c : CompiledMethod α) : Prop where
  highest : ∀ x ∈ offers, x.tier ≤ c.tier
  latest : (offers.filter (·.tier = c.tier)).getLast? = some c

namespace IsLatestOfHighest

variable {offers : List (CompiledMethod α)} {c c' offer : CompiledMethod α}

theorem mem (h : IsLatestOfHighest offers c) : c ∈ offers :=
  List.mem_of_mem_filter (List.mem_of_getLast? h.latest)

theorem unique (h : IsLatestOfHighest offers c) (h' : IsLatestOfHighest offers c') : c = c' := by
  have htier : c.tier = c'.tier := by
    have hle := h'.highest c h.mem
    have hge := h.highest c' h'.mem
    revert hle hge
    cases c.tier <;> cases c'.tier <;> decide
  have hlatest := h.latest
  rw [htier, h'.latest] at hlatest
  exact (Option.some.inj hlatest).symm

/-- An offer at the highest tier so far is the latest there. -/
theorem concat (hhighest : ∀ x ∈ offers, x.tier ≤ offer.tier) :
    IsLatestOfHighest (offers ++ [offer]) offer where
  highest x hx := by
    rcases List.mem_append.mp hx with hbefore | hlast
    · exact hhighest x hbefore
    · rw [List.mem_singleton.mp hlast]
      exact Nat.le_refl _
  latest := by
    rw [List.filter_append, List.filter_singleton, decide_eq_true rfl, cond_true,
      List.getLast?_concat]

/-- An offer at a lower tier changes nothing. -/
theorem concat_of_lt (h : IsLatestOfHighest offers c) (hlt : offer.tier < c.tier) :
    IsLatestOfHighest (offers ++ [offer]) c where
  highest x hx := by
    rcases List.mem_append.mp hx with hbefore | hlast
    · exact h.highest x hbefore
    · rw [List.mem_singleton.mp hlast]
      exact Nat.le_of_lt hlt
  latest := by
    have hother : offer.tier ≠ c.tier := fun heq => Nat.lt_irrefl _ (heq ▸ hlt)
    rw [List.filter_append, List.filter_singleton, decide_eq_false hother, cond_false,
      List.append_nil, h.latest]

end IsLatestOfHighest

/-- What is shown after the offers: nothing if there was none, else the latest at the highest
tier. -/
def Shows (offers : List (CompiledMethod α)) : Option (CompiledMethod α) → Prop
  | none => offers = []
  | some c => IsLatestOfHighest offers c

namespace Shows

variable {offers : List (CompiledMethod α)} {shown : Option (CompiledMethod α)}

theorem eq_none_iff (h : Shows offers shown) : shown = none ↔ offers = [] := by
  cases shown with
  | none => exact iff_of_true rfl h
  | some c => exact iff_of_false (Option.some_ne_none c) (List.ne_nil_of_mem h.mem)

theorem eq_some_iff (h : Shows offers shown) (c : CompiledMethod α) :
    shown = some c ↔ IsLatestOfHighest offers c := by
  cases shown with
  | none => exact iff_of_false nofun fun hc => List.ne_nil_of_mem hc.mem h
  | some current =>
    exact ⟨fun heq => Option.some.inj heq ▸ h, fun hc => congrArg some (h.unique hc)⟩

/-- What is shown is at the highest tier, so a tier is below it if it is below any offer. -/
theorem any_lt_iff (h : Shows offers shown) (tier : Tier) :
    shown.any (tier < ·.tier) ↔ ∃ x ∈ offers, tier < x.tier := by
  cases shown with
  | none =>
    obtain rfl : offers = [] := h
    simp
  | some c =>
    rw [Option.any_some, decide_eq_true_iff]
    constructor
    · exact fun hlt => ⟨c, h.mem, hlt⟩
    · rintro ⟨x, hx, hlt⟩
      exact Nat.lt_of_lt_of_le hlt (h.highest x hx)

/-- A new offer is shown unless a higher tier is. -/
theorem offer (h : Shows offers shown) (offer : CompiledMethod α) :
    Shows (offers ++ [offer])
      (if shown.any (offer.tier < ·.tier) then shown else some offer) := by
  split
  · rename_i hrefused
    cases shown with
    | none => cases hrefused
    | some c => exact h.concat_of_lt (by simpa using hrefused)
  · rename_i htaken
    rw [h.any_lt_iff] at htaken
    exact .concat fun x hx => Nat.le_of_not_lt fun hlt => htaken ⟨x, hx, hlt⟩

end Shows

/-! ## Publications of a cache -/

namespace CompilationCache

variable (cache : CompilationCache α) (m : MethodId) (tier : Tier) (artifact : α)

theorem fst_publish :
    (cache.publish m tier artifact).1 = !(cache.lookup m).any (tier < ·.tier) := by
  rw [publish, place_fst, lookup_recordRequest]

theorem lookup_publish :
    (cache.publish m tier artifact).2.lookup =
      if (cache.lookup m).any (tier < ·.tier) then cache.lookup
      else Function.update cache.lookup m (some ⟨tier, artifact⟩) := by
  rw [publish, lookup_place, lookup_recordRequest]

/-- A method without an entry has no artifact. -/
theorem contains_of_tierOf {cache : CompilationCache α} {m : MethodId} {tier : Tier}
    (htier : cache.tierOf m = some tier) : cache.entries.contains m := by
  rw [ShardedMap.contains_eq_isSome_get?]
  cases hget : cache.entries.get? m with
  | none => simp [tierOf, lookup, entry, hget] at htier
  | some e => rfl

/-- The listed methods are those with an artifact, each with its tier. -/
theorem mem_published : (m, tier) ∈ cache.published ↔ cache.tierOf m = some tier := by
  rw [published, List.mem_mergeSort, List.mem_filterMap]
  constructor
  · rintro ⟨k, -, hpair⟩
    obtain ⟨found, htier, hpair⟩ := Option.map_eq_some_iff.mp hpair
    obtain ⟨rfl, rfl⟩ := Prod.mk.inj hpair
    exact htier
  · intro htier
    refine ⟨m, ?_, by rw [htier, Option.map_some]⟩
    exact cache.entries.mem_keys.mpr (contains_of_tierOf htier)

/-- A method is listed once. -/
theorem nodup_methods_published : (cache.published.map Prod.fst).Nodup := by
  refine List.Nodup.map_on ?_ cache.nodup_published
  rintro ⟨k, tier⟩ hk ⟨k', tier'⟩ hk' hmethod
  obtain rfl : k = k' := hmethod
  have htier := (cache.mem_published k tier).mp hk
  rw [(cache.mem_published k tier').mp hk'] at htier
  rw [Option.some.inj htier]

end CompilationCache

namespace CacheCommand

/-- The artifact that a command publishes for a method. -/
def offer? (m : MethodId) : CacheCommand α → Option (CompiledMethod α)
  | publish k tier artifact => if k = m then some ⟨tier, artifact⟩ else none
  | _ => none

/-- Only a publication for a method changes what is shown for it. -/
theorem lookup_run_of_offer?_eq_none {command : CacheCommand α} {m : MethodId}
    (hother : command.offer? m = none) (cache : CompilationCache α) :
    (command.run cache).2.lookup m = cache.lookup m := by
  cases command with
  | request k tier => exact congrFun (cache.lookup_request k tier) m
  | release k tier => exact congrFun (cache.lookup_release k tier) m
  | publish k tier artifact =>
    have hne : m ≠ k := by
      rintro rfl
      simp [offer?] at hother
    rw [snd_run_publish, cache.lookup_publish]
    split
    · rfl
    · rw [Function.update_of_ne hne]
  | _ => rfl

theorem lookup_run_of_offer?_eq_some {command : CacheCommand α} {m : MethodId}
    {offer : CompiledMethod α} (hoffer : command.offer? m = some offer)
    (cache : CompilationCache α) :
    (command.run cache).2.lookup m =
      if (cache.lookup m).any (offer.tier < ·.tier) then cache.lookup m else some offer := by
  cases command with
  | publish k tier artifact =>
    simp only [offer?, Option.ite_none_right_eq_some, Option.some.injEq] at hoffer
    obtain ⟨rfl, rfl⟩ := hoffer
    rw [snd_run_publish, cache.lookup_publish]
    split
    · rfl
    · rw [Function.update_self]
  | _ => cases hoffer

theorem shows_run {offers : List (CompiledMethod α)} {cache : CompilationCache α} {m : MethodId}
    (h : Shows offers (cache.lookup m)) (command : CacheCommand α) :
    Shows (offers ++ (command.offer? m).toList) ((command.run cache).2.lookup m) := by
  cases hoffer : command.offer? m with
  | none => rwa [lookup_run_of_offer?_eq_none hoffer, Option.toList_none, List.append_nil]
  | some offer =>
    rw [lookup_run_of_offer?_eq_some hoffer, Option.toList_some]
    exact h.offer offer

theorem shows_runAll {offers : List (CompiledMethod α)} {cache : CompilationCache α}
    {m : MethodId} (h : Shows offers (cache.lookup m)) (commands : List (CacheCommand α)) :
    Shows (offers ++ commands.filterMap (·.offer? m)) ((runAll cache commands).lookup m) := by
  induction commands generalizing offers cache with
  | nil => rwa [List.filterMap_nil, List.append_nil]
  | cons command commands ih =>
    have hrest := ih (shows_run h command)
    rw [List.append_assoc] at hrest
    rw [List.filterMap_cons]
    cases hoffer : command.offer? m with
    | none => rwa [hoffer, Option.toList_none, List.nil_append] at hrest
    | some offer => rwa [hoffer, Option.toList_some, List.singleton_append] at hrest

end CacheCommand

/-! ## Main result -/

/-- **The latest of the highest tier is published.** After any commands on a fresh cache, a method
that was never published for has no artifact, and any other has the latest of those published for
it at the highest tier. A further publication is taken unless one at a higher tier was made. The
tier by itself, the snapshot of a method and the list of published methods, each method once, all
go by that artifact, and no command but a publication for the method changes it. -/
theorem lookup_eq_latest_of_highest (shards : Nat) (commands : List (CacheCommand α)) :
    let cache := CacheCommand.runAll (.withShards shards) commands
    (∀ m,
      let offers := commands.filterMap (·.offer? m)
      (cache.lookup m = none ↔ offers = []) ∧
      (∀ c, cache.lookup m = some c ↔ IsLatestOfHighest offers c) ∧
      (∀ tier artifact, (cache.publish m tier artifact).1 ↔ ∀ x ∈ offers, ¬ tier < x.tier) ∧
      cache.tierOf m = (cache.lookup m).map (·.tier) ∧
      (cache.tierState m).published = (cache.lookup m).map (·.tier) ∧
      (∀ tier, (m, tier) ∈ cache.published ↔ ∃ c, cache.lookup m = some c ∧ c.tier = tier) ∧
      ∀ command : CacheCommand α, command.offer? m = none →
        (command.run cache).2.lookup m = cache.lookup m) ∧
    (cache.published.map Prod.fst).Nodup := by
  intro cache
  refine ⟨fun m => ?_, cache.nodup_methods_published⟩
  have hfresh : Shows [] ((.withShards shards : CompilationCache α).lookup m) := by
    rw [CompilationCache.lookup, CompilationCache.entry_withShards]
    rfl
  have hshows : Shows (commands.filterMap (·.offer? m)) (cache.lookup m) :=
    CacheCommand.shows_runAll hfresh commands
  refine ⟨hshows.eq_none_iff, hshows.eq_some_iff, fun tier artifact => ?_, rfl, rfl,
    fun tier => ?_, fun command hother => command.lookup_run_of_offer?_eq_none hother cache⟩
  · rw [cache.fst_publish, Bool.not_eq_true', ← Bool.not_eq_true, hshows.any_lt_iff]
    simp only [not_exists, not_and]
  · rw [cache.mem_published, CompilationCache.tierOf, Option.map_eq_some_iff]

end TieredDispatch

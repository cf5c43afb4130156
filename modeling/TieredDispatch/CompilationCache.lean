import TieredDispatch.ShardedMap

/-!
# Compilation cache

For each method the cache keeps the **set of requested tiers** and the **published artifact**. The
request set is the gate that keeps compilation at most once per method and tier: whoever wants to
compile must first be granted the request. `l1` is granted while nothing is requested, `l2` while
`l2` is not. A request that failed is released; a success is published, and a lower tier never
replaces a higher one.

Each of `request`, `release`, `recordRequest` and `place` is one atomic step, and so are the two
halves of `tierState`. Publishing is `recordRequest` followed by `place`. Entries are created by
`request` and by publishing, and stay.
-/

namespace TieredDispatch

/-! ## Entries -/

/-- The tiers requested for a method, whether in progress or done. -/
structure RequestSet where
  l1 : Bool := false
  l2 : Bool := false
deriving DecidableEq, Inhabited, Repr

namespace RequestSet

def contains (requested : RequestSet) : Tier → Bool
  | .l1 => requested.l1
  | .l2 => requested.l2

def insert (requested : RequestSet) : Tier → RequestSet
  | .l1 => { requested with l1 := true }
  | .l2 => { requested with l2 := true }

def erase (requested : RequestSet) : Tier → RequestSet
  | .l1 => { requested with l1 := false }
  | .l2 => { requested with l2 := false }

/-- Whether a request for the tier is granted: `l1` while nothing is requested, `l2` while `l2`
is not. -/
def grants (requested : RequestSet) : Tier → Bool
  | .l1 => !requested.l1 && !requested.l2
  | .l2 => !requested.l2

end RequestSet

/-- An artifact and the tier it was compiled at. -/
structure CompiledMethod (α : Type) where
  tier : Tier
  artifact : α
deriving DecidableEq, Inhabited, Repr

/-- What the cache keeps for one method. -/
structure CacheEntry (α : Type) where
  requested : RequestSet := {}
  /-- The artifact used for execution. -/
  active : Option (CompiledMethod α) := none
deriving Inhabited

/-- Snapshot of a method's requests and published tier. -/
structure TierState where
  l1Requested : Bool := false
  l2Requested : Bool := false
  published : Option Tier := none
deriving DecidableEq, Inhabited, Repr

namespace TierState

/-- A snapshot from a request set read first and a published tier read after it. -/
def ofReads (requested : RequestSet) (published : Option Tier) : TierState :=
  ⟨requested.l1, requested.l2, published⟩

/-- The snapshot of a method whose request set was read first, if it had an entry then. A method
without an entry has the empty snapshot, and nothing more is read. -/
def ofEntry (requested : Option RequestSet) (published : Option Tier) : TierState :=
  requested.elim {} (ofReads · published)

@[simp]
theorem l1Requested_ofEntry (requested : Option RequestSet) (published : Option Tier) :
    (ofEntry requested published).l1Requested = (requested.getD {}).l1 := by
  cases requested <;> rfl

@[simp]
theorem l2Requested_ofEntry (requested : Option RequestSet) (published : Option Tier) :
    (ofEntry requested published).l2Requested = (requested.getD {}).l2 := by
  cases requested <;> rfl

/-- A snapshot only shows a tier as published that was read as published. -/
theorem published_of_ofEntry {requested : Option RequestSet} {published : Option Tier} {tier : Tier}
    (h : (ofEntry requested published).published = some tier) : published = some tier := by
  cases requested with
  | none => cases h
  | some _ => exact h

end TierState

/-! ## The cache -/

/-- Requests and published artifacts by method. -/
structure CompilationCache (α : Type) where
  entries : ShardedMap (CacheEntry α)
deriving Inhabited

namespace CompilationCache

variable {α : Type}

/-- An empty cache. -/
def withShards (requested : Nat) : CompilationCache α :=
  ⟨ShardedMap.withShards requested⟩

/-- The entry of a method; a method without one has nothing requested and nothing published. -/
def entry (cache : CompilationCache α) (m : MethodId) : CacheEntry α :=
  (cache.entries.get? m).getD {}

/-- The artifact to execute for a method, if any. -/
def lookup (cache : CompilationCache α) (m : MethodId) : Option (CompiledMethod α) :=
  (cache.entry m).active

/-- The tier of the published artifact, if any. -/
def tierOf (cache : CompilationCache α) (m : MethodId) : Option Tier :=
  (cache.lookup m).map (·.tier)

/-- The tiers requested for a method. -/
def requested (cache : CompilationCache α) (m : MethodId) : RequestSet :=
  (cache.entry m).requested

/-- The tiers requested for a method, if it has an entry: the first half of `tierState`. -/
def requested? (cache : CompilationCache α) (m : MethodId) : Option RequestSet :=
  (cache.entries.get? m).map (·.requested)

@[simp]
theorem requested?_getD (cache : CompilationCache α) (m : MethodId) :
    (cache.requested? m).getD {} = cache.requested m := by
  rw [requested?, requested, entry]
  cases cache.entries.get? m <;> rfl

/-- The requests and the published tier of a method, both read in the same state. Nothing is there
for a method without an entry. -/
def tierState (cache : CompilationCache α) (m : MethodId) : TierState :=
  .ofReads (cache.requested m) (cache.tierOf m)

/-- Replaces a method's entry, creating one if there is none. -/
def update (cache : CompilationCache α) (m : MethodId) (f : CacheEntry α → CacheEntry α) :
    CompilationCache α :=
  ⟨cache.entries.put m (f (cache.entry m))⟩

/-- Asks for the right to compile a method at a tier. A grant records the tier as requested. -/
def request (cache : CompilationCache α) (m : MethodId) (tier : Tier) : Bool × CompilationCache α :=
  if (cache.requested m).grants tier then
    (true, cache.update m fun e => { e with requested := e.requested.insert tier })
  else
    (false, cache.update m id)

/-- Gives a request back, so that a later invocation can ask again. -/
def release (cache : CompilationCache α) (m : MethodId) (tier : Tier) : CompilationCache α :=
  if cache.entries.contains m then
    cache.update m fun e => { e with requested := e.requested.erase tier }
  else
    cache

/-- Records a tier as requested, the first half of publishing. -/
def recordRequest (cache : CompilationCache α) (m : MethodId) (tier : Tier) : CompilationCache α :=
  cache.update m fun e => { e with requested := e.requested.insert tier }

/-- Offers an artifact, the second half of publishing: it becomes the one to execute unless a
higher tier is already there. -/
def place (cache : CompilationCache α) (m : MethodId) (compiled : CompiledMethod α) :
    Bool × CompilationCache α :=
  match cache.tierOf m with
  | some current =>
    if compiled.tier < current then
      (false, cache)
    else
      (true, cache.update m fun e => { e with active := some compiled })
  | none => (true, cache.update m fun e => { e with active := some compiled })

/-- Publishes an artifact, and says whether it became the one to execute. -/
def publish (cache : CompilationCache α) (m : MethodId) (tier : Tier) (artifact : α) :
    Bool × CompilationCache α :=
  (cache.recordRequest m tier).place m ⟨tier, artifact⟩

/-- Number of methods with an entry. -/
def size (cache : CompilationCache α) : Nat :=
  cache.entries.size

/-- Whether there is no entry. -/
def isEmpty (cache : CompilationCache α) : Bool :=
  cache.size == 0

/-- The methods with a published artifact, each with its tier, by identity. -/
def published (cache : CompilationCache α) : List (MethodId × Tier) :=
  let pairs := cache.entries.keys.filterMap fun m => (cache.tierOf m).map (m, ·)
  pairs.mergeSort fun a b => a.1.val ≤ b.1.val

/-! ## Entries after an operation -/

@[simp]
theorem entry_withShards (requested : Nat) (m : MethodId) :
    (withShards requested : CompilationCache α).entry m = {} := by
  simp [entry, withShards]

theorem entry_update (cache : CompilationCache α) (m k : MethodId)
    (f : CacheEntry α → CacheEntry α) :
    (cache.update m f).entry k = if m = k then f (cache.entry m) else cache.entry k := by
  simp only [entry, update, ShardedMap.get?_put]
  by_cases hmk : m = k <;> simp [hmk]

/-- A request is granted exactly when the request set grants it. -/
@[simp]
theorem request_fst (cache : CompilationCache α) (m : MethodId) (tier : Tier) :
    (cache.request m tier).1 = (cache.requested m).grants tier := by
  unfold request
  split <;> simp_all

theorem entry_request (cache : CompilationCache α) (m k : MethodId) (tier : Tier) :
    (cache.request m tier).2.entry k =
      if m = k ∧ (cache.requested m).grants tier then
        { cache.entry m with requested := (cache.requested m).insert tier }
      else cache.entry k := by
  unfold request
  split <;> by_cases hmk : m = k <;> simp_all [entry_update, requested]

theorem entry_release (cache : CompilationCache α) (m k : MethodId) (tier : Tier) :
    (cache.release m tier).entry k =
      if m = k then { cache.entry m with requested := (cache.requested m).erase tier }
      else cache.entry k := by
  unfold release
  split
  · rw [entry_update]
    rfl
  · rename_i habsent
    rw [ShardedMap.contains_eq_isSome_get?] at habsent
    by_cases hmk : m = k
    · subst hmk
      cases hget : cache.entries.get? m with
      | some e => simp [hget] at habsent
      | none => cases tier <;> simp [entry, requested, hget, RequestSet.erase]
    · simp [hmk]

theorem entry_recordRequest (cache : CompilationCache α) (m k : MethodId) (tier : Tier) :
    (cache.recordRequest m tier).entry k =
      if m = k then { cache.entry m with requested := (cache.requested m).insert tier }
      else cache.entry k := by
  unfold recordRequest
  rw [entry_update]
  rfl

/-- An offer is refused exactly when an artifact of a higher tier is there. -/
theorem place_fst (cache : CompilationCache α) (m : MethodId) (compiled : CompiledMethod α) :
    (cache.place m compiled).1 = !(cache.lookup m).any (compiled.tier < ·.tier) := by
  unfold place tierOf
  cases cache.lookup m with
  | none => rfl
  | some current =>
    simp only [Option.map_some, Option.any_some]
    split
    · rename_i hlower
      simp [hlower]
    · rename_i hhigher
      simp [hhigher]

theorem place_snd (cache : CompilationCache α) (m : MethodId) (compiled : CompiledMethod α) :
    (cache.place m compiled).2 =
      if (cache.lookup m).any (compiled.tier < ·.tier) then cache
      else cache.update m fun e => { e with active := some compiled } := by
  unfold place tierOf
  cases cache.lookup m with
  | none => rfl
  | some current =>
    simp only [Option.map_some, Option.any_some, decide_eq_true_eq]
    split
    · rfl
    · rfl

end CompilationCache

end TieredDispatch

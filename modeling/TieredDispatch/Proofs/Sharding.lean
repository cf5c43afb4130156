import Mathlib.Algebra.Order.BigOperators.Group.Finset
import Mathlib.Order.Bounds.Defs
import TieredDispatch.CompilationCache
import TieredDispatch.UsageCounter

/-!
# Shards and plain maps

**Theorem (`sharding_invisible`).** Whatever number of shards is asked for, a usage counter and a
compilation cache give the replies that they would give over one plain map.

A sharded map **represents** a plain one if both store the same value for every method. A method is
stored in its home shard only, so no method is stored twice (`nodup_keys`), and then the values
determine the size and, up to order, the keys (`Represents.keys_perm`). Each command of the counter
or of the cache replies alike over two maps of which one represents the other, and leaves two such
maps; by induction so does every list of commands (`replies_eq`).
-/

namespace TieredDispatch

/-- One map from methods to values, without shards. -/
abbrev PlainMap (V : Type) := Std.TreeMap MethodId V

/-! ## The number of shards -/

theorem shardCount_eq_two_pow (requested : Nat) : ∃ k, shardCount requested = 2 ^ k := by
  unfold shardCount
  split
  · exact ⟨0, rfl⟩
  · exact ⟨_, Nat.one_shiftLeft _⟩

theorem le_shardCount (requested : Nat) : max requested 1 ≤ shardCount requested := by
  unfold shardCount
  split
  · omega
  · rw [Nat.one_shiftLeft]
    have hlt : requested - 1 < 2 ^ ((requested - 1).log2 + 1) := Nat.lt_log2_self
    omega

/-- No smaller power of two has room. -/
theorem shardCount_le {requested k : Nat} (h : requested ≤ 2 ^ k) :
    shardCount requested ≤ 2 ^ k := by
  unfold shardCount
  split
  · exact Nat.one_le_two_pow
  · rename_i hmany
    rw [Nat.one_shiftLeft]
    have hle : 2 ^ (requested - 1).log2 ≤ requested - 1 := Nat.log2_self_le (by omega)
    have hlt : 2 ^ (requested - 1).log2 < 2 ^ k := by omega
    exact Nat.pow_le_pow_right Nat.two_pos ((Nat.pow_lt_pow_iff_right Nat.one_lt_two).mp hlt)

theorem isLeast_shardCount (requested : Nat) :
    IsLeast {n | (∃ k, n = 2 ^ k) ∧ max requested 1 ≤ n} (shardCount requested) := by
  refine ⟨⟨shardCount_eq_two_pow requested, le_shardCount requested⟩, ?_⟩
  rintro _ ⟨⟨k, rfl⟩, hroom⟩
  exact shardCount_le ((Nat.le_max_left _ _).trans hroom)

/-! ## The keys of a sharded map -/

namespace ShardedMap

variable {V : Type} (map : ShardedMap V)

/-- A method that is stored in some shard is stored in its home shard. -/
theorem mem_shard_iff {i : Nat} (hi : i < map.shards.size) (m : MethodId) :
    m ∈ map.shards[i] ↔ i = map.home m ∧ map.contains m := by
  have hhome : ∀ {j : Nat} (hj : j < map.shards.size), j = map.home m →
      (m ∈ map.shards[j] ↔ map.contains m) := by
    rintro j hj rfl
    rfl
  refine ⟨fun hmem => ?_, fun ⟨hi', hcontains⟩ => (hhome hi hi').mpr hcontains⟩
  have hplaced : i = map.home m := (map.placed i hi m hmem).symm
  exact ⟨hplaced, (hhome hi hplaced).mp hmem⟩

/-- A stored method is stored in exactly one shard. -/
theorem existsUnique_shard {m : MethodId} (h : map.contains m) :
    ∃! i, ∃ hi : i < map.shards.size, m ∈ map.shards[i] := by
  refine ⟨map.home m, ⟨map.home_lt m, (map.mem_shard_iff _ m).mpr ⟨rfl, h⟩⟩, ?_⟩
  rintro i ⟨hi, hmem⟩
  exact ((map.mem_shard_iff hi m).mp hmem).1

theorem mem_keys {m : MethodId} : m ∈ map.keys ↔ map.contains m := by
  simp only [keys, List.mem_flatMap, Array.mem_toList_iff, Std.TreeMap.mem_keys]
  constructor
  · rintro ⟨shard, hshard, hmem⟩
    obtain ⟨i, hi, rfl⟩ := Array.mem_iff_getElem.mp hshard
    exact ((map.mem_shard_iff hi m).mp hmem).2
  · intro h
    exact ⟨_, Array.getElem_mem (map.home_lt m), (map.mem_shard_iff _ m).mpr ⟨rfl, h⟩⟩

/-- No method is stored twice. -/
theorem nodup_keys : map.keys.Nodup := by
  rw [keys, List.nodup_flatMap]
  refine ⟨fun shard _ => shard.nodup_keys, List.pairwise_iff_getElem.mpr ?_⟩
  intro i j hi hj hlt m hmem₁ hmem₂
  rw [Array.getElem_toList, Std.TreeMap.mem_keys] at hmem₁ hmem₂
  have hi' := ((map.mem_shard_iff _ m).mp hmem₁).1
  have hj' := ((map.mem_shard_iff _ m).mp hmem₂).1
  omega

theorem length_keys : map.keys.length = map.size := by
  have hsum : ∀ (shards : List (Std.TreeMap MethodId V)) (n : Nat),
      shards.foldl (fun n shard => n + shard.size) n = n + (shards.flatMap (·.keys)).length := by
    intro shards
    induction shards with
    | nil => exact fun n => rfl
    | cons shard shards ih =>
      intro n
      rw [List.foldl_cons, ih, List.flatMap_cons, List.length_append, Std.TreeMap.length_keys,
        Nat.add_assoc]
  rw [size, ← Array.foldl_toList, hsum, Nat.zero_add, keys]

/-- The size is the number of distinct methods stored. -/
theorem card_keys : map.keys.toFinset.card = map.size := by
  rw [List.toFinset_card_of_nodup map.nodup_keys, length_keys]

/-! ## Representing a plain map -/

/-- The same value is stored for every method. -/
def Represents (map : ShardedMap V) (plain : PlainMap V) : Prop :=
  ∀ m, map.get? m = plain[m]?

namespace Represents

variable {map : ShardedMap V} {plain : PlainMap V}

theorem withShards (requested : Nat) :
    (ShardedMap.withShards requested : ShardedMap V).Represents ∅ := by
  intro m
  rw [get?_withShards, Std.TreeMap.getElem?_emptyc]

theorem put (h : map.Represents plain) (m : MethodId) (v : V) :
    (map.put m v).Represents (plain.insert m v) := by
  intro k
  rw [get?_put, Std.TreeMap.getElem?_insert, h k]
  simp only [Std.LawfulEqCmp.compare_eq_iff_eq]

theorem contains (h : map.Represents plain) (m : MethodId) : map.contains m ↔ m ∈ plain := by
  rw [contains_eq_isSome_get?, h m, Std.TreeMap.mem_iff_isSome_getElem?]

/-- The keys are the same, in some order. -/
theorem keys_perm (h : map.Represents plain) : map.keys.Perm plain.keys := by
  rw [List.perm_ext_iff_of_nodup map.nodup_keys plain.nodup_keys]
  intro m
  rw [mem_keys, Std.TreeMap.mem_keys, h.contains]

theorem size (h : map.Represents plain) : map.size = plain.size := by
  rw [← length_keys, ← Std.TreeMap.length_keys, h.keys_perm.length_eq]

end Represents

end ShardedMap

/-! ## Commands and replies -/

section Replies

variable {σ σ' C R : Type}

/-- The replies to commands carried out one after the other. -/
def replies (step : C → σ → R × σ) : σ → List C → List R
  | _, [] => []
  | s, command :: commands => (step command s).1 :: replies step (step command s).2 commands

/-- If related states reply alike to a command and are related again after it, then they reply
alike to all commands. -/
theorem replies_eq (related : σ → σ' → Prop) {step : C → σ → R × σ} {step' : C → σ' → R × σ'}
    (hstep : ∀ {s s'} command, related s s' →
      ∃ r t t', step command s = (r, t) ∧ step' command s' = (r, t') ∧ related t t')
    {s : σ} {s' : σ'} (h : related s s') (commands : List C) :
    replies step s commands = replies step' s' commands := by
  induction commands generalizing s s' with
  | nil => rfl
  | cons command commands ih =>
    obtain ⟨r, t, t', ht, ht', hrelated⟩ := hstep command h
    rw [replies, replies, ht, ht', ih hrelated]

end Replies

/-! ## The usage counter -/

/-- What a host asks of a usage counter. -/
inductive CounterCommand
  | increment (m : MethodId)
  | get (m : MethodId)
  | size
  | isEmpty

inductive CounterReply
  | count (n : UInt64)
  | size (n : Nat)
  | flag (b : Bool)

namespace CounterCommand

/-- Carries out a command on a counter. -/
def run (command : CounterCommand) (counter : UsageCounter) : CounterReply × UsageCounter :=
  match command with
  | increment m => (.count (counter.increment m).1, (counter.increment m).2)
  | get m => (.count (counter.get m), counter)
  | size => (.size counter.size, counter)
  | isEmpty => (.flag counter.isEmpty, counter)

/-- Carries out a command on a plain map of counts. -/
def runPlain (command : CounterCommand) (counts : PlainMap UInt64) :
    CounterReply × PlainMap UInt64 :=
  match command with
  | increment m => (.count (saturatingAdd (counts.getD m 0) 1),
      counts.insert m (counts.getD m 0 + 1))
  | get m => (.count (counts.getD m 0), counts)
  | size => (.size counts.size, counts)
  | isEmpty => (.flag counts.isEmpty, counts)

end CounterCommand

namespace UsageCounter

variable {counter : UsageCounter} {counts : PlainMap UInt64}

theorem get_eq_getD (h : counter.counts.Represents counts) (m : MethodId) :
    counter.get m = counts.getD m 0 := by
  rw [get, h m, Std.TreeMap.getD_eq_getD_getElem?]

/-- Whether the method was found or had to be entered, its count is one more afterwards. -/
theorem represents_increment (h : counter.counts.Represents counts) (m : MethodId) :
    (counter.increment m).2.counts.Represents (counts.insert m (counts.getD m 0 + 1)) := by
  unfold increment probe
  split
  · rw [← get_eq_getD h]
    exact h.put m _
  · rename_i habsent
    intro k
    have hplain := h.put m (counts.getD m 0 + 1) k
    rw [← hplain]
    simp only [add, ShardedMap.get?_put, get_enter, get_eq_getD h]
    split
    · rfl
    · rename_i hmk
      rw [enter, ShardedMap.get?_putIfAbsent, if_neg hmk]

theorem isEmpty_eq (h : counter.counts.Represents counts) : counter.isEmpty = counts.isEmpty := by
  rw [isEmpty, size, h.size, Std.TreeMap.isEmpty_eq_size_eq_zero]

end UsageCounter

/-- A command replies alike on a counter and on the plain map of its counts. -/
theorem CounterCommand.run_alike {counter : UsageCounter} {counts : PlainMap UInt64}
    (command : CounterCommand) (h : counter.counts.Represents counts) :
    ∃ reply after afterPlain, command.run counter = (reply, after) ∧
      command.runPlain counts = (reply, afterPlain) ∧ after.counts.Represents afterPlain := by
  cases command with
  | increment m =>
    refine ⟨_, _, _, rfl, ?_, UsageCounter.represents_increment h m⟩
    rw [UsageCounter.increment_fst, UsageCounter.get_eq_getD h]
    rfl
  | get m =>
    refine ⟨_, _, _, rfl, ?_, h⟩
    rw [UsageCounter.get_eq_getD h]
    rfl
  | size =>
    refine ⟨_, _, _, rfl, ?_, h⟩
    rw [UsageCounter.size, h.size]
    rfl
  | isEmpty =>
    refine ⟨_, _, _, rfl, ?_, h⟩
    rw [UsageCounter.isEmpty_eq h]
    rfl

/-! ## The compilation cache -/

/-- What a host asks of a compilation cache. -/
inductive CacheCommand (α : Type)
  | request (m : MethodId) (tier : Tier)
  | release (m : MethodId) (tier : Tier)
  | publish (m : MethodId) (tier : Tier) (artifact : α)
  | lookup (m : MethodId)
  | tierOf (m : MethodId)
  | tierState (m : MethodId)
  | size
  | isEmpty
  | published

inductive CacheReply (α : Type)
  | done
  | flag (b : Bool)
  | found (compiled : Option (CompiledMethod α))
  | tier (tier : Option Tier)
  | state (state : TierState)
  | size (n : Nat)
  /-- The published methods, in no particular order. -/
  | published (methods : Multiset (MethodId × Tier))

variable {α : Type}

namespace CacheCommand

/-- Carries out a command on a cache. -/
def run (command : CacheCommand α) (cache : CompilationCache α) :
    CacheReply α × CompilationCache α :=
  match command with
  | request m tier => (.flag (cache.request m tier).1, (cache.request m tier).2)
  | release m tier => (.done, cache.release m tier)
  | publish m tier artifact =>
    (.flag (cache.publish m tier artifact).1, (cache.publish m tier artifact).2)
  | lookup m => (.found (cache.lookup m), cache)
  | tierOf m => (.tier (cache.tierOf m), cache)
  | tierState m => (.state (cache.tierState m), cache)
  | size => (.size cache.size, cache)
  | isEmpty => (.flag cache.isEmpty, cache)
  | published => (.published ↑cache.published, cache)

/-- Carries out a command on a plain map of entries. -/
def runPlain (command : CacheCommand α) (entries : PlainMap (CacheEntry α)) :
    CacheReply α × PlainMap (CacheEntry α) :=
  let entry (m : MethodId) : CacheEntry α := entries.getD m {}
  match command with
  | request m tier =>
    (.flag ((entry m).requested.grants tier),
      if (entry m).requested.grants tier then
        entries.insert m { entry m with requested := (entry m).requested.insert tier }
      else entries)
  | release m tier =>
    (.done, entries.modify m fun e => { e with requested := e.requested.erase tier })
  | publish m tier artifact =>
    let superseded := (entry m).active.any (tier < ·.tier)
    (.flag !superseded, entries.insert m {
      requested := (entry m).requested.insert tier
      active := if superseded then (entry m).active else some ⟨tier, artifact⟩ })
  | lookup m => (.found (entry m).active, entries)
  | tierOf m => (.tier ((entry m).active.map (·.tier)), entries)
  | tierState m =>
    (.state (.ofReads (entry m).requested ((entry m).active.map (·.tier))), entries)
  | size => (.size entries.size, entries)
  | isEmpty => (.flag entries.isEmpty, entries)
  | published =>
    (.published ↑(entries.keys.filterMap fun m => (entry m).active.map fun c => (m, c.tier)),
      entries)

end CacheCommand

namespace CompilationCache

variable {cache : CompilationCache α} {entries : PlainMap (CacheEntry α)}

theorem entry_eq_getD (h : cache.entries.Represents entries) (m : MethodId) :
    cache.entry m = entries.getD m {} := by
  rw [entry, h m, Std.TreeMap.getD_eq_getD_getElem?]

theorem lookup_eq_getD (h : cache.entries.Represents entries) (m : MethodId) :
    cache.lookup m = (entries.getD m {}).active :=
  congrArg CacheEntry.active (entry_eq_getD h m)

theorem requested_eq_getD (h : cache.entries.Represents entries) (m : MethodId) :
    cache.requested m = (entries.getD m {}).requested :=
  congrArg CacheEntry.requested (entry_eq_getD h m)

theorem represents_update (h : cache.entries.Represents entries) (m : MethodId)
    (f : CacheEntry α → CacheEntry α) :
    (cache.update m f).entries.Represents (entries.insert m (f (entries.getD m {}))) := by
  rw [← entry_eq_getD h]
  exact h.put m _

/-- A denied request leaves the entries as they are: a method without an entry is denied nothing. -/
theorem represents_request (h : cache.entries.Represents entries) (m : MethodId) (tier : Tier) :
    (cache.request m tier).2.entries.Represents
      (if (entries.getD m {}).requested.grants tier then
        entries.insert m { entries.getD m {} with
          requested := (entries.getD m {}).requested.insert tier }
      else entries) := by
  rw [request, requested_eq_getD h]
  split
  · exact represents_update h m _
  · rename_i hdenied
    intro k
    rw [represents_update h m id k, Std.TreeMap.getElem?_insert]
    split
    · rename_i hmk
      obtain rfl := Std.LawfulEqCmp.compare_eq_iff_eq.mp hmk
      rw [Std.TreeMap.getD_eq_getD_getElem?] at hdenied ⊢
      cases hentry : entries[m]? with
      | some e => rfl
      | none => cases tier <;> exact absurd (by rw [hentry]; rfl) hdenied
    · rfl

/-- A method without an entry has nothing to give back, and gets none. -/
theorem represents_release (h : cache.entries.Represents entries) (m : MethodId) (tier : Tier) :
    (cache.release m tier).entries.Represents
      (entries.modify m fun e => { e with requested := e.requested.erase tier }) := by
  intro k
  rw [Std.TreeMap.getElem?_modify]
  unfold release
  split
  · rename_i hcontains
    rw [represents_update h m _ k, Std.TreeMap.getElem?_insert]
    split
    · rename_i hmk
      obtain rfl := Std.LawfulEqCmp.compare_eq_iff_eq.mp hmk
      have hmem := (h.contains m).mp hcontains
      rw [Std.TreeMap.getD_eq_getD_getElem?, Std.TreeMap.getElem?_eq_some_getElem hmem]
      rfl
    · rfl
  · rename_i habsent
    rw [h k]
    split
    · rename_i hmk
      obtain rfl := Std.LawfulEqCmp.compare_eq_iff_eq.mp hmk
      have hnone : entries[m]? = none :=
        Std.TreeMap.getElem?_eq_none (mt (h.contains m).mpr habsent)
      rw [hnone]
      rfl
    · rfl

/-- The tier is recorded first, and then the artifact is placed; both are seen as one change. -/
theorem represents_publish (h : cache.entries.Represents entries) (m : MethodId) (tier : Tier)
    (artifact : α) :
    (cache.publish m tier artifact).2.entries.Represents (entries.insert m {
      requested := (entries.getD m {}).requested.insert tier
      active :=
        if (entries.getD m {}).active.any (tier < ·.tier) then (entries.getD m {}).active
        else some ⟨tier, artifact⟩ }) := by
  have hrecorded := represents_update h m fun e => { e with requested := e.requested.insert tier }
  rw [publish, recordRequest, place_snd, lookup_eq_getD hrecorded, Std.TreeMap.getD_insert_self]
  split
  · exact hrecorded
  · intro k
    rw [represents_update hrecorded m _ k, Std.TreeMap.getD_insert_self,
      Std.TreeMap.getElem?_insert, Std.TreeMap.getElem?_insert, Std.TreeMap.getElem?_insert]
    split
    · rfl
    · rfl

theorem publish_fst (h : cache.entries.Represents entries) (m : MethodId) (tier : Tier)
    (artifact : α) :
    (cache.publish m tier artifact).1 = !(entries.getD m {}).active.any (tier < ·.tier) := by
  have hrecorded := represents_update h m fun e => { e with requested := e.requested.insert tier }
  rw [publish, recordRequest, place_fst, lookup_eq_getD hrecorded, Std.TreeMap.getD_insert_self]

theorem isEmpty_eq (h : cache.entries.Represents entries) : cache.isEmpty = entries.isEmpty := by
  rw [isEmpty, size, h.size, Std.TreeMap.isEmpty_eq_size_eq_zero]

/-- A published method is listed once. -/
theorem nodup_published (cache : CompilationCache α) : cache.published.Nodup := by
  rw [published, (List.mergeSort_perm _ _).nodup_iff]
  refine cache.entries.nodup_keys.filterMap ?_
  intro m k pair hm hk
  obtain ⟨_, _, rfl⟩ := Option.map_eq_some_iff.mp hm
  obtain ⟨_, _, hpair⟩ := Option.map_eq_some_iff.mp hk
  exact congrArg Prod.fst hpair.symm

theorem published_perm (h : cache.entries.Represents entries) :
    cache.published.Perm (entries.keys.filterMap fun m =>
      (entries.getD m {}).active.map fun c => (m, c.tier)) := by
  have hpairs : ∀ m, (cache.tierOf m).map (m, ·) =
      (entries.getD m {}).active.map fun c => (m, c.tier) := by
    intro m
    rw [tierOf, lookup_eq_getD h, Option.map_map]
    rfl
  rw [published, funext hpairs]
  exact (List.mergeSort_perm _ _).trans (h.keys_perm.filterMap _)

end CompilationCache

/-- A command replies alike on a cache and on the plain map of its entries. -/
theorem CacheCommand.run_alike {cache : CompilationCache α} {entries : PlainMap (CacheEntry α)}
    (command : CacheCommand α) (h : cache.entries.Represents entries) :
    ∃ reply after afterPlain, command.run cache = (reply, after) ∧
      command.runPlain entries = (reply, afterPlain) ∧ after.entries.Represents afterPlain := by
  cases command with
  | request m tier =>
    refine ⟨_, _, _, rfl, ?_, CompilationCache.represents_request h m tier⟩
    rw [CompilationCache.request_fst, CompilationCache.requested_eq_getD h]
    rfl
  | release m tier => exact ⟨_, _, _, rfl, rfl, CompilationCache.represents_release h m tier⟩
  | publish m tier artifact =>
    refine ⟨_, _, _, rfl, ?_, CompilationCache.represents_publish h m tier artifact⟩
    rw [CompilationCache.publish_fst h]
    rfl
  | lookup m =>
    refine ⟨_, _, _, rfl, ?_, h⟩
    rw [CompilationCache.lookup_eq_getD h]
    rfl
  | tierOf m =>
    refine ⟨_, _, _, rfl, ?_, h⟩
    rw [CompilationCache.tierOf, CompilationCache.lookup_eq_getD h]
    rfl
  | tierState m =>
    refine ⟨_, _, _, rfl, ?_, h⟩
    rw [CompilationCache.tierState, CompilationCache.tierOf,
      CompilationCache.requested_eq_getD h, CompilationCache.lookup_eq_getD h]
    rfl
  | size =>
    refine ⟨_, _, _, rfl, ?_, h⟩
    rw [CompilationCache.size, h.size]
    rfl
  | isEmpty =>
    refine ⟨_, _, _, rfl, ?_, h⟩
    rw [CompilationCache.isEmpty_eq h]
    rfl
  | published =>
    refine ⟨_, _, _, rfl, ?_, h⟩
    rw [Multiset.coe_eq_coe.mpr (CompilationCache.published_perm h)]
    rfl

/-! ## Main result -/

/-- **Sharding is invisible.** The number of shards is the least power of two that has room for the
requested number and is not zero, and every method's home shard is one of them. Whatever the number
of shards, a usage counter and a compilation cache reply to any commands as they would over one
plain map, and so as they would with any other number of shards; published methods are listed once.
In every sharded map a stored method is stored in exactly one shard, and the size is the number of
distinct methods stored. -/
theorem sharding_invisible (V α : Type) (requested : Nat) :
    IsLeast {n | (∃ k, n = 2 ^ k) ∧ max requested 1 ≤ n}
      (ShardedMap.withShards requested : ShardedMap V).shards.size ∧
    (∀ (map : ShardedMap V) m, map.home m < map.shards.size) ∧
    (∀ commands,
      replies CounterCommand.run (.withShards requested) commands =
        replies CounterCommand.runPlain ∅ commands ∧
      ∀ other, replies CounterCommand.run (.withShards other) commands =
        replies CounterCommand.run (.withShards requested) commands) ∧
    (∀ commands : List (CacheCommand α),
      replies CacheCommand.run (.withShards requested) commands =
        replies CacheCommand.runPlain ∅ commands ∧
      ∀ other, replies CacheCommand.run (.withShards other) commands =
        replies CacheCommand.run (.withShards requested) commands) ∧
    (∀ cache : CompilationCache α, cache.published.Nodup) ∧
    ∀ map : ShardedMap V,
      (∀ m, m ∈ map.keys → ∃! i, ∃ hi : i < map.shards.size, m ∈ map.shards[i]) ∧
      (∀ m, m ∈ map.keys ↔ (map.get? m).isSome) ∧
      map.size = map.keys.toFinset.card := by
  have hcounter : ∀ shards commands,
      replies CounterCommand.run (.withShards shards) commands =
        replies CounterCommand.runPlain ∅ commands := by
    intro shards commands
    have hempty := ShardedMap.Represents.withShards (V := UInt64) shards
    exact replies_eq (fun counter counts => counter.counts.Represents counts)
      CounterCommand.run_alike hempty commands
  have hcache : ∀ shards (commands : List (CacheCommand α)),
      replies CacheCommand.run (.withShards shards) commands =
        replies CacheCommand.runPlain ∅ commands := by
    intro shards commands
    have hempty := ShardedMap.Represents.withShards (V := CacheEntry α) shards
    exact replies_eq (fun cache entries => cache.entries.Represents entries)
      CacheCommand.run_alike hempty commands
  refine ⟨?_, ShardedMap.home_lt, fun commands => ⟨hcounter requested commands, fun other => ?_⟩,
    fun commands => ⟨hcache requested commands, fun other => ?_⟩,
    CompilationCache.nodup_published, fun map => ⟨fun m hm => ?_, fun m => ?_, map.card_keys.symm⟩⟩
  · rw [ShardedMap.withShards, Array.size_replicate]
    exact isLeast_shardCount requested
  · rw [hcounter, hcounter]
  · rw [hcache, hcache]
  · exact map.existsUnique_shard (map.mem_keys.mp hm)
  · rw [map.mem_keys, ShardedMap.contains_eq_isSome_get?]

end TieredDispatch

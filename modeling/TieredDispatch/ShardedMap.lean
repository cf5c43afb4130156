import Std.Data.TreeMap
import TieredDispatch.Tier

/-!
# Sharded per-method maps

A map from methods to values, split over a power-of-two number of shards so that callers working
on different methods rarely touch the same one. A method's **home shard** is read off the low bits
of its scattered identity. Every stored method sits in its home shard (`placed`), so the shards
together behave as one plain map (`get?_put`, `contains_put`).

Values are created and replaced, never removed.
-/

namespace TieredDispatch

/-! ## The home shard -/

/-- Number of shards for a requested number: the least power of two that is at least one and at
least the request. -/
def shardCount (requested : Nat) : Nat :=
  if requested ≤ 1 then 1 else 1 <<< ((requested - 1).log2 + 1)

theorem shardCount_pos (requested : Nat) : 0 < shardCount requested := by
  unfold shardCount
  split
  · exact Nat.one_pos
  · rw [Nat.one_shiftLeft]
    exact Nat.two_pow_pos _

/-- Spreads an identity over all 64 bits: a multiplication, and a rotation that brings the
well-mixed high bits down. -/
def scatter (m : MethodId) : UInt64 :=
  let product := m.val * 0xf1357aea2e62a9c5
  (product <<< 26) ||| (product >>> 38)

/-- The home shard of a method among `count` shards, `count` a power of two: the low bits of its
scattered identity. -/
def homeShard (count : Nat) (m : MethodId) : Nat :=
  (scatter m).toNat &&& (count - 1)

theorem homeShard_lt {count : Nat} (hcount : 0 < count) (m : MethodId) :
    homeShard count m < count := by
  have hle : (scatter m).toNat &&& (count - 1) ≤ count - 1 := Nat.and_le_right
  unfold homeShard
  omega

/-! ## The map -/

/-- A map from methods to values, each stored in its home shard. -/
structure ShardedMap (V : Type) where
  shards : Array (Std.TreeMap MethodId V)
  /-- There is at least one shard. -/
  pos : 0 < shards.size
  /-- A method is stored in its home shard only. -/
  placed : ∀ (i : Nat) (h : i < shards.size) (m : MethodId),
    m ∈ shards[i] → homeShard shards.size m = i

namespace ShardedMap

variable {V : Type}

/-- An empty map with at least the requested number of shards. -/
def withShards (requested : Nat) : ShardedMap V where
  shards := Array.replicate (shardCount requested) ∅
  pos := by simpa using shardCount_pos requested
  placed i h m hm := by simp at hm

instance : Inhabited (ShardedMap V) := ⟨withShards 1⟩

/-- The position of a method's home shard. -/
def home (map : ShardedMap V) (m : MethodId) : Nat :=
  homeShard map.shards.size m

theorem home_lt (map : ShardedMap V) (m : MethodId) : map.home m < map.shards.size :=
  homeShard_lt map.pos m

/-- The home shard of a method. -/
def homeOf (map : ShardedMap V) (m : MethodId) : Std.TreeMap MethodId V :=
  have hlt := map.home_lt m
  map.shards[map.home m]

/-- The value stored for a method, if any. -/
def get? (map : ShardedMap V) (m : MethodId) : Option V :=
  (map.homeOf m)[m]?

/-- Whether a value is stored for a method. -/
def contains (map : ShardedMap V) (m : MethodId) : Bool :=
  (map.homeOf m).contains m

/-- Stores a value for a method, in place of the one before. -/
def put (map : ShardedMap V) (m : MethodId) (v : V) : ShardedMap V where
  shards := map.shards.modify (map.home m) (·.insert m v)
  pos := by simpa using map.pos
  placed i h k hk := by
    simp only [Array.size_modify] at h ⊢
    simp only [Array.getElem_modify] at hk
    split at hk
    · rename_i hi
      rcases Std.TreeMap.mem_insert.mp hk with heq | hmem
      · have hkm : m = k := Std.LawfulEqOrd.eq_of_compare heq
        rw [← hkm]
        exact hi
      · exact map.placed i h k hmem
    · exact map.placed i h k hk

/-- Stores a value for a method that has none yet. -/
def putIfAbsent (map : ShardedMap V) (m : MethodId) (v : V) : ShardedMap V :=
  if map.contains m then map else map.put m v

/-- Number of methods stored. -/
def size (map : ShardedMap V) : Nat :=
  map.shards.foldl (fun n shard => n + shard.size) 0

/-- All stored methods, shard by shard. -/
def keys (map : ShardedMap V) : List MethodId :=
  map.shards.toList.flatMap (·.keys)

/-- The non-empty shards with their positions, each with its entries in order of identity. -/
def layout (map : ShardedMap V) : List (Nat × List (MethodId × V)) :=
  map.shards.toList.zipIdx.filterMap fun (shard, i) =>
    if shard.isEmpty then none else some (i, shard.toList)

/-! ## The shards behave as one map -/

@[simp]
theorem size_shards_put (map : ShardedMap V) (m : MethodId) (v : V) :
    (map.put m v).shards.size = map.shards.size := by
  simp [put]

theorem home_put (map : ShardedMap V) (m k : MethodId) (v : V) :
    (map.put m v).home k = map.home k := by
  simp [home]

@[simp]
theorem get?_withShards (requested : Nat) (m : MethodId) :
    (withShards requested : ShardedMap V).get? m = none := by
  simp [get?, homeOf, withShards]

theorem homeOf_put (map : ShardedMap V) (m k : MethodId) (v : V) :
    (map.put m v).homeOf k =
      if map.home m = map.home k then (map.homeOf k).insert m v else map.homeOf k := by
  have hlt : map.home k < (map.put m v).shards.size := by
    simpa using map.home_lt k
  have hshard : (map.put m v).homeOf k = (map.put m v).shards[map.home k] := by
    unfold homeOf
    dsimp only
    congr 1
    exact home_put map m k v
  rw [hshard]
  simp only [put, homeOf, Array.getElem_modify]

/-- A stored value is found under its method, and no other method's value changes. -/
theorem get?_put (map : ShardedMap V) (m k : MethodId) (v : V) :
    (map.put m v).get? k = if m = k then some v else map.get? k := by
  unfold get?
  rw [homeOf_put]
  by_cases hmk : m = k
  · subst hmk
    simp
  · have hcmp : compare m k ≠ .eq := fun h => hmk (Std.LawfulEqOrd.eq_of_compare h)
    rw [if_neg hmk]
    split
    · rw [Std.TreeMap.getElem?_insert, if_neg hcmp]
    · rfl

theorem contains_eq_isSome_get? (map : ShardedMap V) (m : MethodId) :
    map.contains m = (map.get? m).isSome := by
  unfold contains get?
  exact Std.TreeMap.contains_eq_isSome_getElem?

theorem contains_put (map : ShardedMap V) (m k : MethodId) (v : V) :
    (map.put m v).contains k = (m = k || map.contains k) := by
  rw [contains_eq_isSome_get?, contains_eq_isSome_get?, get?_put]
  by_cases hmk : m = k <;> simp [hmk]

theorem get?_putIfAbsent (map : ShardedMap V) (m k : MethodId) (v : V) :
    (map.putIfAbsent m v).get? k =
      if m = k then some ((map.get? k).getD v) else map.get? k := by
  unfold putIfAbsent
  rw [contains_eq_isSome_get?]
  by_cases hmk : m = k
  · subst hmk
    cases hget : map.get? m <;> simp [get?_put, hget]
  · cases hget : map.get? m <;> simp [get?_put, hmk]

end ShardedMap

end TieredDispatch

import TieredDispatch.Metrics
import TieredDispatch.ShardedMap

/-!
# Usage counter

Counts the invocations of each method. An increment probes for the method, enters a zero count for
a method it has not found, and then adds one; the three are separate atomic steps, and the last one
also hands out the new count. The stored count is a 64-bit word that wraps, while the count handed
out saturates, so both agree until a method has been counted 2^64 times.
-/

namespace TieredDispatch

/-- Invocation counts by method. Counts are never removed. -/
structure UsageCounter where
  counts : ShardedMap UInt64
deriving Inhabited

namespace UsageCounter

/-- A counter that has seen no method. -/
def withShards (requested : Nat) : UsageCounter :=
  ⟨ShardedMap.withShards requested⟩

/-- The invocations of a method counted so far, zero for a method never seen. -/
def get (counter : UsageCounter) (m : MethodId) : UInt64 :=
  (counter.counts.get? m).getD 0

/-- The first step of an increment: has the method been seen? -/
def probe (counter : UsageCounter) (m : MethodId) : Bool :=
  counter.counts.contains m

/-- The second step, for a method not found: enters a zero count unless another caller did so
meanwhile. -/
def enter (counter : UsageCounter) (m : MethodId) : UsageCounter :=
  ⟨counter.counts.putIfAbsent m 0⟩

/-- The last step: adds one and hands out the new count. -/
def add (counter : UsageCounter) (m : MethodId) : UInt64 × UsageCounter :=
  let before := counter.get m
  (saturatingAdd before 1, ⟨counter.counts.put m (before + 1)⟩)

/-- Counts one invocation and hands out the new count. -/
def increment (counter : UsageCounter) (m : MethodId) : UInt64 × UsageCounter :=
  if counter.probe m then counter.add m else (counter.enter m).add m

/-- Number of distinct methods counted. -/
def size (counter : UsageCounter) : Nat :=
  counter.counts.size

/-- Whether no method has been counted. -/
def isEmpty (counter : UsageCounter) : Bool :=
  counter.size == 0

/-! ## Counts after an increment -/

@[simp]
theorem get_withShards (requested : Nat) (m : MethodId) : (withShards requested).get m = 0 := by
  simp [get, withShards]

theorem get_enter (counter : UsageCounter) (m k : MethodId) :
    (counter.enter m).get k = counter.get k := by
  unfold get enter
  rw [ShardedMap.get?_putIfAbsent]
  by_cases hmk : m = k
  · cases h : counter.counts.get? k <;> simp [hmk]
  · simp [hmk]

theorem get_add (counter : UsageCounter) (m k : MethodId) :
    (counter.add m).2.get k = if m = k then counter.get m + 1 else counter.get k := by
  simp only [get, add, ShardedMap.get?_put]
  by_cases hmk : m = k <;> simp [hmk]

/-- The count handed out is one more than the stored one, as long as that fits. -/
theorem increment_fst (counter : UsageCounter) (m : MethodId) :
    (counter.increment m).1 = saturatingAdd (counter.get m) 1 := by
  unfold increment
  split
  · rfl
  · simp only [add, get_enter]

/-- An increment adds one to its method's count and touches no other. -/
theorem get_increment (counter : UsageCounter) (m k : MethodId) :
    (counter.increment m).2.get k = if m = k then counter.get m + 1 else counter.get k := by
  unfold increment
  split
  · exact get_add counter m k
  · rw [get_add, get_enter, get_enter]

end UsageCounter

end TieredDispatch

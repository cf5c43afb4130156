import TieredDispatch.Proofs.Thresholds
import TieredDispatch.Script.Counting

/-!
# Counts that wrap

**Theorem (`counts_fall_exactly_at_the_limit`).** Counts only grow until a method has been counted
2^64 times, and then they fall: the addition that completes a multiple of 2^64 stores zero, hands
out 2^64 - 1, and the one after it hands out one again.

The stored count is a word, so it is the number of increments modulo 2^64
(`UsageCounter.toNat_get_incrementAll`). The count handed out is computed from the word before the
addition and saturates (`toNat_saturatingAdd_one`), so it stays one behind the wrap.
-/

namespace TieredDispatch

/-! ## Words and their limit -/

theorem toNat_saturatingAdd_one (count : UInt64) :
    (saturatingAdd count 1).toNat = min (count.toNat + 1) (2 ^ 64 - 1) := by
  have hbound := count.toNat_lt
  by_cases hfew : count.toNat + 1 < 2 ^ 64
  · rw [saturatingAdd_one hfew, toNat_add_one hfew]
    omega
  · have hlast : count.toNat = 2 ^ 64 - 1 := by omega
    obtain rfl : count = .ofNat (2 ^ 64 - 1) := UInt64.toNat_inj.mp (hlast.trans (by decide))
    decide

theorem saturatingAdd_one_mono {count later : UInt64} (hle : count ≤ later) :
    saturatingAdd count 1 ≤ saturatingAdd later 1 := by
  rw [UInt64.le_iff_toNat_le] at hle ⊢
  rw [toNat_saturatingAdd_one, toNat_saturatingAdd_one]
  omega

/-- One more is less when the word wraps. -/
theorem add_one_lt_self_iff (count : UInt64) : count + 1 < count ↔ 2 ^ 64 ∣ count.toNat + 1 := by
  have hbound := count.toNat_lt
  rw [UInt64.lt_iff_toNat_lt, UInt64.toNat_add]
  change (count.toNat + 1) % 2 ^ 64 < count.toNat ↔ _
  omega

/-- The two sums differ when the word wraps. -/
theorem add_one_eq_saturatingAdd_iff (count : UInt64) :
    count + 1 = saturatingAdd count 1 ↔ ¬ 2 ^ 64 ∣ count.toNat + 1 := by
  have hbound := count.toNat_lt
  rw [← UInt64.toNat_inj, toNat_saturatingAdd_one, UInt64.toNat_add]
  change (count.toNat + 1) % 2 ^ 64 = _ ↔ _
  omega

/-- A saturating sum is less than the one before it when the word wraps between the two. -/
theorem saturatingAdd_add_one_lt_iff (count : UInt64) :
    saturatingAdd (count + 1) 1 < saturatingAdd count 1 ↔ 2 ^ 64 ∣ count.toNat + 1 := by
  have hbound := count.toNat_lt
  rw [UInt64.lt_iff_toNat_lt, toNat_saturatingAdd_one, toNat_saturatingAdd_one, UInt64.toNat_add]
  change min ((count.toNat + 1) % 2 ^ 64 + 1) _ < _ ↔ _
  omega

/-! ## The stored count -/

namespace UsageCounter

theorem get_incrementAll (counter : UsageCounter) (ms : List MethodId) (m : MethodId) :
    (counter.incrementAll ms).2.get m = counter.get m + .ofNat (ms.count m) := by
  induction ms generalizing counter with
  | nil => exact (UInt64.add_zero _).symm
  | cons k ms ih =>
    rw [incrementAll]
    refine (ih (counter.increment k).2).trans ?_
    rw [get_increment, List.count_cons]
    by_cases hkm : k = m
    · rw [if_pos hkm, if_pos (beq_iff_eq.mpr hkm), UInt64.ofNat_add, hkm, UInt64.add_assoc,
        UInt64.add_comm 1]
      rfl
    · rw [if_neg hkm, if_neg (mt beq_iff_eq.mp hkm), Nat.add_zero]

/-- The stored count is the number of increments modulo 2^64. -/
theorem toNat_get_incrementAll (shards : Nat) (ms : List MethodId) (m : MethodId) :
    (((withShards shards).incrementAll ms).2.get m).toNat = ms.count m % 2 ^ 64 := by
  rw [get_incrementAll, get_withShards, UInt64.zero_add, UInt64.toNat_ofNat']

@[simp]
theorem get_increment_self (counter : UsageCounter) (m : MethodId) :
    (counter.increment m).2.get m = counter.get m + 1 := by
  rw [get_increment, if_pos rfl]

/-- Increments of other methods leave a count as it is. -/
theorem get_incrementAll_of_notMem (counter : UsageCounter) {others : List MethodId} {m : MethodId}
    (hother : m ∉ others) : (counter.incrementAll others).2.get m = counter.get m := by
  rw [get_incrementAll, List.count_eq_zero_of_not_mem hother]
  exact UInt64.add_zero _

end UsageCounter

/-! ## Where counts fall -/

/-- **Counts fall exactly at the limit.** After any increments, what is stored for a method is
their number modulo 2^64. One more increment stores a smaller count if and only if it completes a
multiple of 2^64, and exactly then what it hands out is not what it stores, and the next increment
of the method, whatever happens to others in between, hands out less. As long as a method is counted
less than 2^64 times, neither what is stored nor what is handed out ever falls. -/
theorem counts_fall_exactly_at_the_limit (shards : Nat) (ms : List MethodId) (m : MethodId) :
    let counter := ((UsageCounter.withShards shards).incrementAll ms).2
    let next := counter.increment m
    let n := ms.count m
    (counter.get m).toNat = n % 2 ^ 64 ∧ next.1.toNat = min (n % 2 ^ 64 + 1) (2 ^ 64 - 1) ∧
      (∀ k, k ≠ m → next.2.get k = counter.get k) ∧
      (next.2.get m < counter.get m ↔ 2 ^ 64 ∣ n + 1) ∧
      (next.2.get m = next.1 ↔ ¬ 2 ^ 64 ∣ n + 1) ∧
      (∀ others, m ∉ others →
        (((next.2.incrementAll others).2.increment m).1 < next.1 ↔ 2 ^ 64 ∣ n + 1)) ∧
      ∀ later, (ms ++ later).count m < 2 ^ 64 →
        counter.get m ≤ (counter.incrementAll later).2.get m ∧
          next.1 ≤ ((counter.incrementAll later).2.increment m).1 := by
  intro counter next n
  have hstored : (counter.get m).toNat = n % 2 ^ 64 :=
    UsageCounter.toNat_get_incrementAll shards ms m
  have hhanded : next.1 = saturatingAdd (counter.get m) 1 := counter.increment_fst m
  have hnext : next.2.get m = counter.get m + 1 := counter.get_increment_self m
  -- The word before the increment is the last one when the increment completes a multiple.
  have hlast : 2 ^ 64 ∣ (counter.get m).toNat + 1 ↔ 2 ^ 64 ∣ n + 1 := by
    rw [hstored]
    omega
  refine ⟨hstored, ?_, ?_, ?_, ?_, ?_, ?_⟩
  · rw [hhanded, toNat_saturatingAdd_one, hstored]
  · intro k hk
    exact (counter.get_increment m k).trans (if_neg hk.symm)
  · rw [hnext, add_one_lt_self_iff, hlast]
  · rw [hnext, hhanded, add_one_eq_saturatingAdd_iff, hlast]
  · intro others hother
    rw [UsageCounter.increment_fst, UsageCounter.get_incrementAll_of_notMem _ hother, hnext,
      hhanded, saturatingAdd_add_one_lt_iff, hlast]
  · intro later hfew
    have hgrown : counter.get m ≤ (counter.incrementAll later).2.get m := by
      rw [List.count_append] at hfew
      rw [counter.get_incrementAll, UInt64.le_iff_toNat_le, UInt64.toNat_add, hstored,
        UInt64.toNat_ofNat']
      omega
    refine ⟨hgrown, ?_⟩
    rw [hhanded, UsageCounter.increment_fst]
    exact saturatingAdd_one_mono hgrown

/-- What a script is told that counts one method `n` times, and then once more and once more. -/
theorem tail_runAll_repeated (shards : Nat) (m : MethodId) (n : Nat) :
    (CounterStep.runAll (.withShards shards)
        [.repeated m n, .get m, .increment m, .get m, .increment m]).tail =
      [.count (.ofNat n), .count (saturatingAdd (.ofNat n) 1), .count (.ofNat n + 1),
        .count (saturatingAdd (.ofNat n + 1) 1)] := by
  have hget : ((UsageCounter.withShards shards).incrementTimes m n).2.get m = .ofNat n := by
    rw [UsageCounter.incrementTimes, UsageCounter.get_incrementAll, UsageCounter.get_withShards,
      List.count_replicate_self, UInt64.zero_add]
  simp only [CounterStep.runAll, CounterStep.run, List.tail_cons, UsageCounter.increment_fst,
    UsageCounter.get_increment_self, hget]

/-- At the limit a count is handed out twice, zero is stored, and then the first count comes
again. -/
theorem count_starts_again_after_the_limit :
    (CounterStep.runAll (.withShards 64)
        [.repeated ⟨0⟩ (2 ^ 64 - 1), .get ⟨0⟩, .increment ⟨0⟩, .get ⟨0⟩, .increment ⟨0⟩]).tail =
      [.count 18446744073709551615, .count 18446744073709551615, .count 0, .count 1] := by
  rw [tail_runAll_repeated]
  rfl

end TieredDispatch

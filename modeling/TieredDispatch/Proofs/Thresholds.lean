import Mathlib.Algebra.Group.Nat.Defs
import TieredDispatch.CompilationCache
import TieredDispatch.Metrics
import TieredDispatch.Policy

/-!
# Thresholds

The policy asks for the highest tier whose threshold the count has reached and whose request the
gate would grant (`tier_decide`). So what it asks for is granted as long as nothing happens in
between, and a tier that it passes over is denied.
-/

namespace TieredDispatch

/-! ## Request sets -/

namespace RequestSet

@[simp]
theorem contains_insert (requested : RequestSet) (tier other : Tier) :
    (requested.insert tier).contains other = (other = tier || requested.contains other) := by
  cases tier <;> cases other <;> simp [insert, contains]

@[simp]
theorem contains_erase (requested : RequestSet) (tier other : Tier) :
    (requested.erase tier).contains other = (other ≠ tier && requested.contains other) := by
  cases tier <;> cases other <;> simp [erase, contains]

/-- A tier is granted when none from it up is requested. -/
theorem grants_iff (requested : RequestSet) (tier : Tier) :
    requested.grants tier ↔ ∀ higher, tier ≤ higher → ¬ requested.contains higher := by
  constructor
  · intro hgrants higher hle hset
    cases tier with
    | l1 => cases higher <;> simp_all [grants, contains]
    | l2 =>
      cases higher with
      | l1 => exact absurd hle (by decide)
      | l2 => simp_all [grants, contains]
  · intro hclear
    have hl2 := hclear .l2 (by cases tier <;> decide)
    cases tier with
    | l1 =>
      have hl1 := hclear .l1 (by decide)
      simp_all [grants, contains]
    | l2 => simp_all [grants, contains]

/-- What denies a tier denies the lower ones. -/
theorem grants_eq_false_of_le {requested : RequestSet} {tier higher : Tier} (hle : tier ≤ higher)
    (h : requested.grants higher = false) : requested.grants tier = false := by
  cases tier <;> cases higher <;> simp_all [grants]
  exact absurd hle (by decide)

/-- A requested tier denies itself and the lower ones. -/
theorem grants_insert_of_le {requested : RequestSet} {tier higher : Tier} (hle : tier ≤ higher) :
    (requested.insert higher).grants tier = false := by
  refine grants_eq_false_of_le hle ?_
  cases higher <;> simp [grants, insert]

/-- A denial lasts while tiers are only added. -/
theorem grants_insert_eq_false {requested : RequestSet} {tier : Tier} (other : Tier)
    (h : requested.grants tier = false) : (requested.insert other).grants tier = false := by
  cases tier <;> cases other <;> simp_all [grants, insert]

end RequestSet

/-! ## Thresholds -/

/-- The count from which a method is eligible for a tier. -/
def TierPolicy.threshold (policy : TierPolicy) : Tier → UInt64
  | .l1 => policy.l1Threshold
  | .l2 => policy.l2Threshold

/-- Whether a tier is the one to compile at a count: `l1` has no use past the threshold of `l2`. -/
def TierPolicy.wants (policy : TierPolicy) (count : UInt64) : Tier → Prop
  | .l1 => policy.l1Threshold ≤ count ∧ ¬ policy.l2Threshold ≤ count
  | .l2 => policy.l2Threshold ≤ count

namespace TierPolicy

variable {policy : TierPolicy} {count : UInt64} {requested : RequestSet} {tier : Tier}

/-- The highest tier is asked for whose threshold is reached and whose request would be granted. -/
theorem tier_decide (policy : TierPolicy) (count : UInt64) (requested : RequestSet) :
    (policy.decide count requested.l1 requested.l2).tier =
      if policy.threshold .l2 ≤ count ∧ requested.grants .l2 then some .l2
      else if policy.threshold .l1 ≤ count ∧ requested.grants .l1 then some .l1
      else none := by
  unfold decide
  obtain ⟨l1, l2⟩ := requested
  simp only [threshold, RequestSet.grants, Bool.and_eq_true, Bool.not_eq_true']
  by_cases hl2 : policy.l2Threshold ≤ count ∧ l2 = false
  · simp [hl2, Decision.tier]
  · by_cases hl1 : policy.l1Threshold ≤ count ∧ l1 = false ∧ l2 = false
    · have hcold : ¬ policy.l2Threshold ≤ count := fun hcount => hl2 ⟨hcount, hl1.2.2⟩
      simp [hcold, hl1, Decision.tier]
    · simp [hl2, hl1, Decision.tier]

/-- What is asked for is wanted. -/
theorem wants_of_decide
    (h : (policy.decide count requested.l1 requested.l2).tier = some tier) :
    policy.wants count tier := by
  rw [tier_decide] at h
  split at h
  · rename_i hl2
    obtain rfl := Option.some.inj h
    exact hl2.1
  · rename_i hl2
    split at h
    · rename_i hl1
      obtain rfl := Option.some.inj h
      refine ⟨hl1.1, fun hcount => hl2 ⟨hcount, ?_⟩⟩
      exact (Bool.and_eq_true_iff.mp hl1.2).2
    · cases h

/-- What is asked for would be granted. -/
theorem grants_of_decide
    (h : (policy.decide count requested.l1 requested.l2).tier = some tier) :
    requested.grants tier := by
  rw [tier_decide] at h
  split at h
  · rename_i hl2
    obtain rfl := Option.some.inj h
    exact hl2.2
  · split at h
    · rename_i hl1
      obtain rfl := Option.some.inj h
      exact hl1.2
    · cases h

/-- A count past the threshold of a tier that would be granted asks for it, or for a higher one. -/
theorem decide_of_grants (hcount : policy.threshold tier ≤ count)
    (hgrants : requested.grants tier) :
    ∃ wanted, (policy.decide count requested.l1 requested.l2).tier = some wanted ∧
      tier ≤ wanted := by
  rw [tier_decide]
  by_cases hl2 : policy.threshold .l2 ≤ count ∧ requested.grants .l2
  · refine ⟨.l2, if_pos hl2, ?_⟩
    cases tier <;> decide
  · rw [if_neg hl2]
    cases tier with
    | l1 => exact ⟨.l1, if_pos ⟨hcount, hgrants⟩, Nat.le_refl _⟩
    | l2 => exact absurd ⟨hcount, hgrants⟩ hl2

end TierPolicy

theorem TierConfig.threshold_pos_of_validate {config : TierConfig}
    (hvalid : config.validate = .ok ()) (tier : Tier) :
    0 < (TierPolicy.ofConfig config).threshold tier := by
  unfold validate at hvalid
  split at hvalid
  · cases hvalid
  · rename_i hl1
    split at hvalid
    · cases hvalid
    · rename_i hl2
      cases tier with
      | l1 => exact UInt64.pos_iff_ne_zero.mpr hl1
      | l2 => exact UInt64.pos_iff_ne_zero.mpr hl2

/-! ## Counts that fit -/

theorem toNat_add_one {count : UInt64} (hfew : count.toNat + 1 < 2 ^ 64) :
    (count + 1).toNat = count.toNat + 1 := by
  rw [UInt64.toNat_add]
  exact Nat.mod_eq_of_lt hfew

/-- The count handed out is the stored one. -/
theorem saturatingAdd_one {count : UInt64} (hfew : count.toNat + 1 < 2 ^ 64) :
    saturatingAdd count 1 = count + 1 := by
  refine if_neg fun hlt => ?_
  rw [UInt64.lt_iff_toNat_lt, toNat_add_one hfew] at hlt
  omega

end TieredDispatch

import TieredDispatch.Config

/-!
# Tier policy

`TierPolicy.decide` maps the count an invocation observed, and the tiers already requested for
its method, to a decision. `l2` is considered first: a method hot enough for `l2` has no use for
an `l1` compilation, so a count past both thresholds goes straight to `l2`.
-/

namespace TieredDispatch

/-- The two thresholds. -/
structure TierPolicy where
  l1Threshold : UInt64 := 20
  l2Threshold : UInt64 := 900
deriving DecidableEq, Inhabited, Repr

namespace TierPolicy

/-- The policy a configuration asks for. -/
def ofConfig (config : TierConfig) : TierPolicy :=
  ⟨config.l1Threshold, config.l2Threshold⟩

/-- What to compile for an invocation that observed `count`. A tier counts as requested from the
moment its compilation is claimed, and still when it is done. -/
def decide (policy : TierPolicy) (count : UInt64) (l1Requested l2Requested : Bool) : Decision :=
  if policy.l2Threshold ≤ count ∧ ¬ l2Requested then
    .compileL2
  else if policy.l1Threshold ≤ count ∧ ¬ l1Requested ∧ ¬ l2Requested then
    .compileL1
  else
    .none

instance : Described TierPolicy where
  describe policy := Described.record "TierPolicy" [
    ("l1_threshold", describe policy.l1Threshold),
    ("l2_threshold", describe policy.l2Threshold)]

end TierPolicy

end TieredDispatch

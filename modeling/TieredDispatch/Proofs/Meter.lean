import Mathlib.Data.Multiset.Count
import TieredDispatch.Proofs.Stack

/-!
# Meters

The metrics are eight **meters**. A step of a call or of a job moves one meter on at most
(`metrics_advance`), and every other step leaves the metrics alone. A **bump** is one such move,
with the place where it was made: by a call, or by a job of the pool. What a meter shows is the
number of its bumps, modulo the size of a word (`Shows`).
-/

namespace TieredDispatch

variable {α β : Type}

/-! ## Meters -/

/-- The counters of the metrics. -/
inductive Meter
  | interpretations
  | executions
  | compilations (tier : Tier)
  | failures
  | denials
  | queued
  | superseded
deriving DecidableEq

namespace Meter

/-- The meter of calls that run an artifact or are interpreted. -/
def ofRun (found : Option (CompiledMethod α)) : Meter :=
  if found.isSome then executions else interpretations

def isRun : Meter → Bool
  | interpretations | executions => true
  | _ => false

/-- Whether the meter counts how compile calls ended. -/
def isOutcome : Meter → Bool
  | compilations _ | failures => true
  | _ => false

end Meter

namespace Metrics

/-- What a meter shows. -/
def value (metrics : Metrics) : Meter → UInt64
  | .interpretations => metrics.interpretations
  | .executions => metrics.executions
  | .compilations .l1 => metrics.l1Compilations
  | .compilations .l2 => metrics.l2Compilations
  | .failures => metrics.compilationFailures
  | .denials => metrics.requestsDenied
  | .queued => metrics.requestsQueued
  | .superseded => metrics.supersededPublishes

/-- Moves a meter on. -/
def bump (metrics : Metrics) : Meter → Metrics
  | .interpretations => metrics.countInterpretation
  | .executions => metrics.countExecution
  | .compilations tier => metrics.countCompilation tier
  | .failures => metrics.countFailure
  | .denials => metrics.countDenial
  | .queued => metrics.countQueued
  | .superseded => metrics.countSuperseded

theorem value_bump (metrics : Metrics) (k j : Meter) :
    (metrics.bump k).value j = if k = j then metrics.value j + 1 else metrics.value j := by
  cases k with
  | compilations tier =>
    cases tier <;> cases j with
    | compilations tier => cases tier <;> rfl
    | _ => rfl
  | _ =>
    cases j with
    | compilations tier => cases tier <;> rfl
    | _ => rfl

end Metrics

/-! ## What a step bumps -/

/-- The meter that the next step of a job moves on. -/
def CompileJob.meter? (job : CompileJob α) : Option Meter :=
  match job.stage with
  | .compiled _ => some (.compilations job.request.tier)
  | .superseded => some .superseded
  | .released _ | .charged _ => some .failures
  | _ => none

/-- The meter that the next step of a call moves on. -/
def Call.meter? (c : Call α β) : Option Meter :=
  match c.stage with
  | .denied _ _ => some .denials
  | .queued => some .queued
  | .entering found => some (.ofRun found)
  | .compiling job => job.meter?
  | _ => none

theorem CompileJob.metrics_advance (job : CompileJob α) (unwinding : Bool) (d : Dispatcher α) :
    (job.advance unwinding d).2.metrics = job.meter?.elim d.metrics d.metrics.bump := by
  obtain ⟨r, stage⟩ := job
  cases stage with
  | recorded artifact =>
    simp only [advance]
    split <;> rfl
  | released cause =>
    cases cause with
    | error reason =>
      simp only [advance]
      split <;> rfl
    | panic payload => rfl
  | _ => rfl

theorem Call.metrics_advance (c : Call α β) (d : Dispatcher α) :
    (c.advance d).2.metrics = c.meter?.elim d.metrics d.metrics.bump := by
  obtain ⟨m, unwinding, stage⟩ := c
  cases stage with
  | arriving | inspecting _ _ | claiming _ _ =>
    simp only [advance]
    split <;> rfl
  | promoting tier count =>
    simp only [advance]
    split
    · rfl
    · split <;> rfl
  | compiling job =>
    cases hturn : job.turn with
    | ended failure =>
      obtain ⟨r, rfl⟩ := CompileJob.exists_done_of_turn hturn
      rfl
    | dispatcher | compiler =>
      simp only [advance, hturn]
      exact job.metrics_advance unwinding d
  | entering found =>
    simp only [advance, meter?, Option.elim_some, Meter.ofRun]
    split <;> rfl
  | _ => rfl

/-! ## Bumps and what the meters show -/

/-- A meter moved on by one, by a call or by a job of the pool. -/
structure Bump where
  meter : Meter
  pooled : Bool

/-- Each meter shows the number of its bumps. -/
def Metrics.Shows (metrics : Metrics) (bumps : Multiset Bump) : Prop :=
  ∀ k, metrics.value k = UInt64.ofNat (bumps.countP (·.meter = k))

namespace Metrics.Shows

variable {metrics : Metrics} {bumps : Multiset Bump}

theorem zero : Shows {} 0 := by
  intro k
  rw [Multiset.countP_zero]
  cases k with
  | compilations tier => cases tier <;> rfl
  | _ => rfl

theorem bump (h : metrics.Shows bumps) (b : Bump) :
    (metrics.bump b.meter).Shows (b ::ₘ bumps) := by
  intro k
  rw [value_bump, Multiset.countP_cons, h k]
  split
  · exact (UInt64.ofNat_add _ _).symm
  · rfl

/-- A meter that was moved on less often than a word can count shows how often that was. -/
theorem toNat_value (h : metrics.Shows bumps) (k : Meter)
    (hfew : bumps.countP (·.meter = k) < 2 ^ 64) :
    (metrics.value k).toNat = bumps.countP (·.meter = k) := by
  rw [h k]
  exact UInt64.toNat_ofNat_of_lt hfew

end Metrics.Shows

end TieredDispatch

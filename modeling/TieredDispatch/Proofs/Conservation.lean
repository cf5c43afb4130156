import Mathlib.Algebra.Order.BigOperators.Group.Finset
import TieredDispatch.Proofs.Account
import TieredDispatch.Proofs.Promotion
import TieredDispatch.Proofs.Sharding

/-!
# Conservation of the metrics

Main theorem `metrics_conserved`: when no call is in progress, the invocations counted are the runs
counted, and in synchronous mode the failed compilations besides; and what the compiler was asked
for is what it was counted to have done, but for what the pool still has to do.

The account of the run says so for the bumps of the meters, once there are no calls in progress left
in it (`Metered.synchronous`, `Metered.background`). As every bump other than a denial is paid for
by a call, the meters show their bumps as long as the calls made can be counted
(`Metered.toNat_value`). And then the usage counts add up to the calls (`System.total_of_isIdle`).
-/

namespace TieredDispatch

variable {α β : Type}

/-! ## What the meters add up to -/

namespace Bump

variable (bumps : Multiset Bump)

theorem countP_isOutcome :
    bumps.countP (·.isOutcome) = bumps.countP (·.meter = .compilations .l1) +
      bumps.countP (·.meter = .compilations .l2) + bumps.countP (·.meter = .failures) := by
  induction bumps using Multiset.induction with
  | empty => rfl
  | cons b bumps ih =>
    simp only [Multiset.countP_cons, ih]
    obtain ⟨meter, pooled⟩ := b
    cases meter with
    | compilations tier => cases tier <;> simp [isOutcome, Meter.isOutcome] <;> omega
    | _ => simp [isOutcome, Meter.isOutcome] <;> omega

/-- Outcomes are counted in the pool or by a call. -/
theorem countP_isOutcome_site :
    bumps.countP (·.isOutcome) =
      bumps.countP (·.isPooledOutcome) + bumps.countP (·.isInlineOutcome) := by
  induction bumps using Multiset.induction with
  | empty => rfl
  | cons b bumps ih =>
    simp only [Multiset.countP_cons, ih]
    cases hpooled : b.pooled <;> cases houtcome : b.meter.isOutcome <;>
      simp [isOutcome, isPooledOutcome, isInlineOutcome, hpooled, houtcome] <;> omega

/-- Calls run or have failed to compile inline. -/
theorem countP_endsCall :
    bumps.countP (·.endsCall) = bumps.countP (·.meter = .interpretations) +
      bumps.countP (·.meter = .executions) +
      bumps.countP (fun b => b.meter = .failures && !b.pooled) := by
  induction bumps using Multiset.induction with
  | empty => rfl
  | cons b bumps ih =>
    simp only [Multiset.countP_cons, ih]
    obtain ⟨meter, pooled⟩ := b
    cases meter with
    | failures =>
      cases pooled <;> simp [endsCall, Meter.isRun]
      all_goals omega
    | _ => simp [endsCall, Meter.isRun] <;> omega

end Bump

/-! ## When no call is in progress -/

namespace System

variable {s : System α β}

theorem stage_of_isIdle (hidle : s.isIdle = true) {c : Call α β} (hc : .call c ∈ s.work) :
    ∃ result, c.stage = .returned result := by
  obtain ⟨i, hi⟩ := call_mem_work.mp hc
  exact Call.stage_of_hasReturned (isIdle_iff.mp hidle i c hi)

/-- Calls that have returned are not counted by what counts calls in progress only. -/
theorem countP_work_of_isIdle (hidle : s.isIdle = true) {p : Work α β → Bool}
    (hcall : ∀ m unwinding result, p (.call ⟨m, unwinding, .returned result⟩) = false)
    (hjob : ∀ job, .job job ∈ s.work → p (.job job) = false)
    (hqueued : ∀ r, .queued r ∈ s.work → p (.queued r) = false) : s.work.countP (p ·) = 0 := by
  rw [Multiset.countP_eq_zero]
  intro w hw
  rw [Bool.not_eq_true]
  cases w with
  | call c =>
    obtain ⟨result, hstage⟩ := stage_of_isIdle hidle hw
    obtain ⟨m, unwinding, stage⟩ := c
    obtain rfl : stage = .returned result := hstage
    exact hcall m unwinding result
  | job job => exact hjob job hw
  | queued r => exact hqueued r hw

end System

/-! ## The invocations counted -/

/-- The sum of the usage counts of all methods. -/
def UsageCounter.total (counter : UsageCounter) : Nat :=
  ∑ m ∈ counter.counts.keys.toFinset, (counter.get m).toNat

/-- What the pool has to do is in its queue or with its workers. -/
theorem Pool.countP_isPending (pool : Pool (CompileJob α)) :
    (pool.work : Multiset (Work α β)).countP (·.isPending) =
      pool.queue.length + pool.jobs.countP (·.isUncounted) := by
  have hjobs : pool.workers.flatMap (Worker.work (β := β)) = pool.jobs.map .job := by
    rw [jobs, List.map_flatMap]
    refine List.flatMap_congr fun worker _ => ?_
    cases worker <;> rfl
  rw [work, hjobs, Multiset.countP_add, Multiset.coe_countP, Multiset.coe_countP, List.countP_map,
    List.countP_map]
  congr 1
  · rw [List.countP_eq_length]
    exact fun _ _ => rfl
  · exact congrArg (pool.jobs.countP ·) (funext fun _ => Bool.decide_eq_true)

theorem System.countP_isPending {s : System α β} {pool : Pool (CompileJob α)}
    (hpool : s.dispatcher.pool = some pool) :
    s.work.countP (·.isPending) = pool.queue.length + pool.jobs.countP (·.isUncounted) := by
  rw [work, Multiset.countP_add, Dispatcher.work_of_pool hpool, pool.countP_isPending,
    Nat.add_eq_right, Multiset.countP_eq_zero]
  intro w hw
  obtain ⟨calls, -, hw⟩ := List.mem_flatMap.mp (Multiset.mem_coe.mp hw)
  obtain ⟨c, -, rfl⟩ := List.mem_map.mp hw
  exact Bool.false_ne_true

namespace Metered

variable {h : History α} {bumps : Multiset Bump} {s : System α β}

/-- No meter but that of the denials was moved on more often than calls were made. -/
theorem toNat_value (hmetered : Metered h bumps s) (hfew : h.calls < 2 ^ 64) {k : Meter}
    (hk : k ≠ .denials) : (s.dispatcher.metrics.value k).toNat = bumps.countP (·.meter = k) := by
  refine hmetered.shows.toNat_value k ?_
  have hcalls := hmetered.calls
  have hpooled := hmetered.pooled
  have hsuperseded := hmetered.superseded
  have hbounded := hmetered.bounded
  have hpending : s.work.countP (·.isPending) ≤ s.work.countP (·.mayCompile) := by
    rw [Multiset.countP_eq_card_filter, Multiset.countP_eq_card_filter]
    refine Multiset.card_le_card (Multiset.monotone_filter_right s.work fun w hw => ?_)
    cases w with
    | call c => cases hw
    | job | queued => exact hw
  rw [Bump.countP_endsCall] at hcalls
  have hsite := Bump.countP_isOutcome_site bumps
  have houtcome := Bump.countP_isOutcome bumps
  cases k with
  | denials => exact absurd rfl hk
  | compilations tier => cases tier <;> omega
  | _ => omega

section Idle

variable (hmetered : Metered h bumps s) (hidle : s.isIdle = true)

include hmetered hidle

/-- When no call is in progress, the calls made have come to the engine or failed to compile. -/
theorem calls_of_isIdle :
    h.calls = bumps.countP (·.meter = .interpretations) + bumps.countP (·.meter = .executions) +
      bumps.countP (fun b => b.meter = .failures && !b.pooled) := by
  have hopen := System.countP_work_of_isIdle hidle (p := (·.isOpen)) (fun _ _ _ => rfl)
    (fun _ _ => rfl) (fun _ _ => rfl)
  rw [hmetered.calls, hopen, Nat.add_zero, Bump.countP_endsCall]

/-- When no call is in progress, nothing is being handed over. -/
theorem queued_of_isIdle : bumps.countP (·.meter = .queued) =
    bumps.countP (·.isPooledOutcome) + s.work.countP (·.isPending) := by
  have hhanding := System.countP_work_of_isIdle hidle (p := (·.isHandingOver)) (fun _ _ _ => rfl)
    (fun _ _ => rfl) (fun _ _ => rfl)
  rw [← hmetered.pooled, hhanding, Nat.add_zero]

/-- Without a pool the failures are failures of calls, and nothing was handed over. -/
theorem synchronous (hpool : s.dispatcher.pool.isSome = false) :
    h.calls = bumps.countP (·.meter = .interpretations) + bumps.countP (·.meter = .executions) +
      bumps.countP (·.meter = .failures) ∧
    h.compiles = bumps.countP (·.isOutcome) ∧ bumps.countP (·.meter = .queued) = 0 := by
  have hinline : ∀ b ∈ bumps, b.pooled = false := fun b hb =>
    Bool.not_eq_true _ ▸ Multiset.countP_eq_zero.mp (hmetered.alone hpool) b hb
  have hcalls : ∀ w ∈ s.work, (∀ c, w ≠ .call c) → False := fun w hw hcall =>
    absurd (System.isSome_pool_of_mem_work hw hcall) (by simp [hpool])
  refine ⟨(hmetered.calls_of_isIdle hidle).trans ?_, ?_, ?_⟩
  · congr 1
    exact Multiset.countP_congr rfl fun b hb => by simp [hinline b hb]
  · have hstarted := System.countP_work_of_isIdle hidle (p := (·.isStarted)) (fun _ _ _ => rfl)
      (fun _ hw => (hcalls _ hw nofun).elim) (fun _ _ => rfl)
    rw [hmetered.compiles, hstarted, Nat.add_zero]
  · have hpending := System.countP_work_of_isIdle hidle (p := (·.isPending)) (fun _ _ _ => rfl)
      (fun _ hw => (hcalls _ hw nofun).elim) (fun _ hw => (hcalls _ hw nofun).elim)
    rw [hmetered.queued_of_isIdle hidle, hpending, Nat.add_zero, Multiset.countP_eq_zero]
    intro b hb
    simp [Bump.isPooledOutcome, hinline b hb]

/-- With a pool the failures are failures of the pool. -/
theorem background {pool : Pool (CompileJob α)} (hpool : s.dispatcher.pool = some pool) :
    h.calls = bumps.countP (·.meter = .interpretations) + bumps.countP (·.meter = .executions) ∧
    bumps.countP (·.meter = .queued) = bumps.countP (·.isOutcome) +
      (pool.queue.length + pool.jobs.countP (·.isUncounted)) := by
  have hkept : bumps.countP (·.isInlineOutcome) = 0 :=
    (Nat.add_eq_zero_iff.mp (hmetered.kept (by rw [hpool]; rfl))).1
  constructor
  · rw [hmetered.calls_of_isIdle hidle, Nat.add_eq_left, Multiset.countP_eq_zero]
    intro b hb hfailed
    refine Multiset.countP_eq_zero.mp hkept b hb ?_
    rw [Bool.and_eq_true, decide_eq_true_eq] at hfailed
    rw [Bump.isInlineOutcome, hfailed.1, hfailed.2]
    rfl
  · rw [hmetered.queued_of_isIdle hidle, Bump.countP_isOutcome_site, hkept, Nat.add_zero,
      System.countP_isPending hpool]

end Idle

end Metered

end TieredDispatch

import TieredDispatch.Proofs.Exchange
import TieredDispatch.Proofs.PoolStep

/-!
# The account of a run

The **account** of a run has what was made, from its history, on one side, and the bumps of the
meters together with the work in progress on the other. Each step exchanges as much on both sides
(`Account.exchange`), so a system stays `Metered` along a run in which no call is made on a thread
that is unwinding and the dispatcher is given up last (`System.metered_run`).

There is no bound on the number of bumps, and the meters are words that show it (`Metrics.Shows`).
But every bump other than a denial is paid for by a call (`Account.bounded`).
-/

namespace TieredDispatch

variable {α β : Type}

/-! ## Threads that do not unwind -/

/-- Whether the step makes no call on a thread that is unwinding. -/
def Label.isCalm : Label α β → Bool
  | caller _ (.invoke _ unwinding) => !unwinding
  | _ => true

/-- No call was made on a thread that is unwinding. -/
def System.IsCalm (s : System α β) : Prop :=
  ∀ i, ∀ c ∈ s.callsOf i, c.unwinding = false

theorem StackStep.calm {d d' : Dispatcher α} {move : CallerMove α β}
    {calls calls' : List (Call α β)} (h : StackStep d move calls calls' d')
    (hmove : ∀ m, move ≠ .invoke m true) (hcalls : ∀ c ∈ calls, c.unwinding = false) :
    ∀ c ∈ calls', c.unwinding = false := by
  cases h with
  | invoke m unwinding =>
    refine List.forall_mem_cons.mpr ⟨?_, hcalls⟩
    cases unwinding with
    | false => rfl
    | true => exact absurd rfl (hmove m)
  | @advance c outer hturn =>
    rw [List.forall_mem_cons] at hcalls ⊢
    rwa [c.advance_fst_eq d hturn]
  | @beginCompile c job outer =>
    rw [List.forall_mem_cons] at hcalls ⊢
    rwa [c.beginCompile_eq]
  | @endCompile c job outcome outer =>
    rw [List.forall_mem_cons] at hcalls ⊢
    rwa [c.concludeCompile_eq]
  | @endRun c found outcome outer =>
    rw [List.forall_mem_cons] at hcalls ⊢
    rwa [c.concludeRun_eq]
  | leave outer => exact (List.forall_mem_cons.mp hcalls).2

namespace System

variable {s t : System α β}

theorem isCalm_step {label : Label α β} (hlabel : label.isCalm = true)
    (hstep : s.step label = some t) (h : s.IsCalm) : t.IsCalm := by
  intro i
  obtain ⟨move, rfl, hmove⟩ | ⟨-, hsame⟩ := step_of_caller i hstep
  · refine hmove.calm ?_ (h i)
    rintro m rfl
    cases hlabel
  · rw [hsame]
    exact h i

theorem isCalm_start (d : Dispatcher α) (callers : Nat) :
    (start d callers : System α β).IsCalm := by
  intro i
  rw [callsOf_start]
  exact fun c hc => (nomatch hc)

end System

/-! ## The account of a run -/

/-- What was made in a run, by its history, is counted or in progress. -/
structure Account (h : History α) (bumps : Multiset Bump) (w : Multiset (Work α β)) : Prop where
  calm : ∀ x ∈ w, x.isCalm = true
  calls : h.calls = bumps.countP (·.endsCall) + w.countP (·.isOpen)
  compiles : h.compiles = bumps.countP (·.isOutcome) + w.countP (·.isStarted)
  pooled : bumps.countP (·.meter = .queued) + w.countP (·.isHandingOver) =
    bumps.countP (·.isPooledOutcome) + w.countP (·.isPending)
  superseded : bumps.countP (·.meter = .superseded) + w.countP (·.maySupersede) ≤
    bumps.countP (·.meter = .compilations .l1)
  bounded : bumps.countP (·.isOutcome) + w.countP (·.mayCompile) ≤ h.calls

theorem countP_elim {γ : Type} (p : γ → Prop) [DecidablePred p] (o : Option γ) (t : Multiset γ) :
    (o.elim t (· ::ₘ t)).countP p = (o.any (p ·)).toNat + t.countP p := by
  cases o with
  | none => exact (Nat.zero_add _).symm
  | some x =>
    rw [Option.elim_some, Option.any_some, Multiset.countP_cons, Nat.add_comm]
    by_cases hp : p x <;> simp [hp]

theorem countP_concat_toList {γ : Type} (p : γ → Bool) (l : List γ) (o : Option γ) :
    (l ++ o.toList).countP p = l.countP p + (o.any p).toNat := by
  cases o with
  | none => simp
  | some x => cases hp : p x <;> simp [hp]

/-- An exchange keeps the account. -/
theorem Account.exchange {h : History α} {μ? : Option (Milestone α)} {bumps : Multiset Bump}
    {b? : Option Bump} {before after frame : Multiset (Work α β)} {d : Dispatcher α}
    (haccount : Account h bumps (before + frame))
    (hexchange : Exchange d (μ?.any (·.isCall)) (μ?.any (·.isCompile)) before b? after) :
    Account (h ++ μ?.toList) (b?.elim bumps (· ::ₘ bumps)) (after + frame) := by
  obtain ⟨hcalm, hcalls, hcompiles, hpooled, hsuperseded, hbounded⟩ := haccount
  constructor
  case calm =>
    intro w hw
    obtain hw | hw := Multiset.mem_add.mp hw
    · exact hexchange.calm w hw
    · exact hcalm w (Multiset.mem_add.mpr (.inr hw))
  all_goals
    simp only [History.calls, History.compiles, Multiset.countP_add, countP_elim,
      countP_concat_toList, Bool.decide_eq_true] at *
  case calls =>
    have hmoved := hexchange.calls
    omega
  case compiles =>
    have hmoved := hexchange.compiles
    omega
  case pooled =>
    have hmoved := hexchange.pooled
    omega
  case superseded =>
    have hmoved := hexchange.superseded
    omega
  case bounded =>
    have hmoved := hexchange.bounded
    omega

/-- The meters of a system show the account of its run. -/
structure Metered (h : History α) (bumps : Multiset Bump) (s : System α β) : Prop
    extends Account h bumps s.work where
  shows : s.dispatcher.metrics.Shows bumps
  /-- Without a pool nothing is done by the pool. -/
  alone : s.dispatcher.pool.isSome = false → bumps.countP (·.pooled) = 0
  /-- With a pool no call compiles inline. -/
  kept : s.dispatcher.pool.isSome = true →
    bumps.countP (·.isInlineOutcome) + s.work.countP (·.isInline) = 0

namespace System

variable {s t : System α β}

/-- Only calls of callers are work that is a call. -/
theorem call_mem_work {c : Call α β} : .call c ∈ s.work ↔ ∃ i, c ∈ s.callsOf i := by
  rw [exists_mem_callsOf, work, Multiset.mem_add, or_iff_left (s.dispatcher.call_notMem_work c)]
  simp

/-- Work that is no call is in the pool. -/
theorem mem_dispatcher_work {w : Work α β} (hw : w ∈ s.work) (hcall : ∀ c, w ≠ .call c) :
    w ∈ s.dispatcher.work := by
  rw [work, Multiset.mem_add] at hw
  refine hw.resolve_left fun hmem => ?_
  obtain ⟨calls, -, hin⟩ : ∃ calls ∈ s.callers, ∃ c ∈ calls, .call c = w := by simpa using hmem
  obtain ⟨c, -, rfl⟩ := hin
  exact hcall c rfl

theorem isSome_pool_of_mem_work {w : Work α β} (hw : w ∈ s.work) (hcall : ∀ c, w ≠ .call c) :
    s.dispatcher.pool.isSome = true := by
  have hmem := mem_dispatcher_work hw hcall
  cases hpool : s.dispatcher.pool with
  | none => simp [Dispatcher.work, hpool] at hmem
  | some pool => rfl

/-- A step that is the dispatcher's own keeps the account, as long as no call is made on a thread
that is unwinding and every request handed over is received. -/
theorem metered_step {h : History α} {bumps : Multiset Bump} {label : Label α β}
    (hown : label.isOwn) (hstep : s.step label = some t)
    (hthread : t.IsCalm) (hmanned : s.IsManned) (hmetered : Metered h bumps s) :
    ∃ bumps', Metered (h ++ (s.milestone? label).toList) bumps' t := by
  obtain ⟨before, after, frame, hbefore, hafter, hmove⟩ := step_work hown hstep
  have hsub : ∀ w ∈ before, w ∈ s.work := fun w hw => hbefore ▸ Multiset.mem_add.mpr (.inl hw)
  have hsub' : ∀ w ∈ after, w ∈ t.work := fun w hw => hafter ▸ Multiset.mem_add.mpr (.inl hw)
  obtain ⟨b?, hmetrics, hexchange⟩ := hmove.exchange (fun w hw => hmetered.calm w (hsub w hw))
    fun c hc => (call_mem_work.mp (hsub' _ hc)).elim fun i hi => hthread i c hi
  have haccount := hmetered.toAccount
  rw [hbefore] at haccount
  refine ⟨b?.elim bumps (· ::ₘ bumps), hafter ▸ haccount.exchange hexchange, ?_, ?_, ?_⟩
  · rw [hmetrics]
    cases b? with
    | none => exact hmetered.shows
    | some b => exact hmetered.shows.bump b
  · intro hnone
    rw [isSome_pool_step hstep] at hnone
    -- Where there is no pool there is no job of a worker, and only these make bumps in the pool.
    have hsite : b?.any (·.pooled) = false := by
      rw [Option.any_eq_false]
      intro b hb
      rw [Bool.eq_false_iff]
      intro hpooled
      obtain ⟨job, hjob⟩ := hexchange.site b hb hpooled
      exact absurd (isSome_pool_of_mem_work (hsub _ hjob) nofun) (by simp [hnone])
    rw [countP_elim, hmetered.alone hnone]
    simp only [Bool.decide_eq_true, hsite, Bool.toNat_false]
  · intro hsome
    rw [isSome_pool_step hstep] at hsome
    have hmoved := hexchange.kept fun c hc hpromoting => by
      obtain ⟨i, hi⟩ := call_mem_work.mp (hsub _ hc)
      obtain ⟨tier, count, hstage⟩ := Call.stage_of_isPromoting hpromoting
      exact isSome_submits? hmanned hsome hi hstage
    have hold := hmetered.kept hsome
    simp only [hbefore, hafter, Multiset.countP_add, countP_elim, Bool.decide_eq_true] at hold ⊢
    omega

end System

/-! ## Runs -/

namespace System

variable {s t : System α β}

theorem isSome_pool_run {labels : List (Label α β)} (hrun : s.run labels = some t) :
    t.dispatcher.pool.isSome = s.dispatcher.pool.isSome :=
  run_induction (P := fun u => u.dispatcher.pool.isSome = s.dispatcher.pool.isSome)
    (fun hstep h => (isSome_pool_step hstep).trans h) hrun rfl

/-! ## The start of a dispatcher -/

section Start

variable {config : TierConfig} {d : Dispatcher α} (hstart : Dispatcher.start config = .ok d)
  (callers : Nat)

include hstart

theorem isSome_pool_start : d.pool.isSome ↔ config.mode = .background := by
  obtain ⟨log, rfl⟩ := Dispatcher.eq_of_start hstart
  cases hmode : config.mode <;> simp [Dispatcher.ofConfig, hmode]

theorem pool_eq_none_start (hmode : config.mode = .synchronous) : d.pool = none := by
  obtain ⟨log, rfl⟩ := Dispatcher.eq_of_start hstart
  simp [Dispatcher.ofConfig, hmode]

theorem isReceiving_start : (start d callers : System α β).IsReceiving := by
  obtain ⟨log, rfl⟩ := Dispatcher.eq_of_start hstart
  intro pool hpool
  cases hmode : config.mode with
  | synchronous => simp [start, Dispatcher.ofConfig, hmode] at hpool
  | background =>
    obtain rfl : Pool.start config.compileWorkers.toNat = pool := by
      simpa [start, Dispatcher.ofConfig, hmode] using hpool
    refine ⟨rfl, fun _ => ⟨?_, ?_⟩⟩
    · simp [Pool.start]
    · intro worker hworker
      rw [List.eq_of_mem_replicate hworker]
      rfl

theorem isManned_start : (start d callers : System α β).IsManned := by
  intro pool hpool
  obtain ⟨hopen, hstaffed⟩ := isReceiving_start hstart callers pool hpool
  exact ⟨hstaffed, .inl hopen⟩

theorem metered_start : Metered [] 0 (start d callers : System α β) := by
  have hmetrics : d.metrics = {} := by
    obtain ⟨log, rfl⟩ := Dispatcher.eq_of_start hstart
    rfl
  have hwork := System.work_of_start (β := β) hstart callers
  refine ⟨?_, ?_, fun _ => Multiset.countP_zero _, fun _ => ?_⟩
  · rw [hwork]
    exact ⟨fun w hw => absurd hw (Multiset.notMem_zero w), rfl, rfl, rfl, Nat.le_refl 0,
      Nat.le_refl 0⟩
  · change d.metrics.Shows 0
    rw [hmetrics]
    exact .zero
  · rw [hwork]
    rfl

end Start

end System

end TieredDispatch

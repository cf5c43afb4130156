import TieredDispatch.Proofs.Endings
import TieredDispatch.Proofs.Isolation

/-!
# The books of a plain run

A run is **plain** if the dispatcher is used through calls only, none of them on a thread that is
unwinding, the compiler does not panic, the engine runs whatever it is given, and the dispatcher is
kept. In the **books** of such a run (`System.Books`) the history, the meters, and the calls that
failed and were left agree, at every moment and for any schedule. When no call is left in progress,
the calls that failed are the failures of synchronous mode, and nothing in background mode
(`System.Books.synchronous`, `System.Books.background`).
-/

namespace TieredDispatch

variable {α β : Type}

/-! ## Plain steps -/

/-- Whether a host takes the step that makes its calls, keeps its dispatcher, and has a compiler
that does not panic and an engine that does not fail. -/
def Label.isPlain : Label α β → Bool
  | caller _ (.invoke _ unwinding) => !unwinding
  | caller _ (.endCompile (.panic _)) | worker _ (.endCompile (.panic _)) => false
  | caller _ (.endRun (.error _)) | caller _ (.endRun (.panic _)) => false
  | direct _ | close | lose _ _ => false
  | caller _ _ | worker _ _ => true

namespace Label

variable {label : Label α β}

theorem isOwn_of_isPlain (h : label.isPlain) : label.isOwn := by
  cases label with
  | direct | lose => cases h
  | _ => rfl

theorem isCalm_of_isPlain (h : label.isPlain) : label.isCalm := by
  cases label with
  | caller i move =>
    cases move with
    | invoke m unwinding => exact h
    | _ => rfl
  | _ => rfl

theorem ne_close_of_isPlain (h : label.isPlain) : label ≠ .close := by
  rintro rfl
  cases h

/-- Whether the compiler tells a caller that it failed. -/
def isRefusal : Label α β → Bool
  | caller _ move => move.isRefusal
  | worker _ _ | direct _ | close | lose _ _ => false

end Label

namespace System

variable {s t : System α β} {label : Label α β}

/-- Whether a call that failed is left. -/
def givesUp (s : System α β) : Label α β → Bool
  | .caller i move => move.givesUp (s.callsOf i)
  | .worker _ _ | .direct _ | .close | .lose _ _ => false

theorem failing_step (hplain : label.isPlain) (hstep : s.step label = some t) :
    t.failing + (s.givesUp label).toNat = s.failing + label.isRefusal.toNat := by
  cases label with
  | caller i move =>
    refine failing_caller hstep ?_
    cases move with
    | endRun outcome =>
      cases outcome with
      | value v => rfl
      | error | panic => cases hplain
    | _ => rfl
  | worker i move => exact failing_worker hstep
  | direct | close | lose => cases hplain

/-- Where callers compile, each failed compile call is told to one. -/
theorem isRefusal_eq (hplain : label.isPlain) (hstep : s.step label = some t)
    (hpool : s.dispatcher.pool.isSome = false) :
    label.isRefusal = (s.milestone? label).any (·.ending? = some .failures) := by
  cases systemStep_of_step hstep with
  | direct | close | lose => cases hplain
  | worker hsome => simp [hsome] at hpool
  | @caller i move calls calls' d' hcalls hmove =>
    have hmilestone : s.milestone? (.caller i move) = move.milestone? s.dispatcher calls := by
      simp [milestone?, hcalls]
    rw [hmilestone]
    cases hmove with
    | invoke | endRun | leave => rfl
    | @advance c outer hturn =>
      have hnone : (c.milestone? s.dispatcher).any (·.ending? = some .failures) = false := by
        rw [Option.any_eq_false]
        intro μ hμ
        simp [c.ending?_milestone? _ μ hμ]
      exact hnone.symm
    | @beginCompile c job outer hturn hidle =>
      simp [CallerMove.milestone?, Call.compiles?_of_turn hturn, Milestone.ending?,
        Label.isRefusal, CallerMove.isRefusal]
    | @endCompile c job outcome outer hturn hbusy =>
      simp only [CallerMove.milestone?, Call.compiles?_of_turn hturn]
      cases outcome with
      | value v => rfl
      | error reason => rfl
      | panic payload => cases hplain

end System

theorem Served.isRefusal {d : Dispatcher α} {move : CallerMove α β} {calls calls' : List (Call α β)}
    (h : Served d move calls calls') : move.isRefusal = false := by
  cases h <;> rfl

namespace System

variable {s t : System α β} {label : Label α β}

/-- Where the pool compiles, callers are told of no compile call. -/
theorem Isolated.isRefusal_eq_false (h : s.Isolated) (hstep : s.step label = some t) :
    label.isRefusal = false := by
  cases label with
  | caller i move =>
    obtain ⟨_, hsame, hmove⟩ | ⟨hother, -⟩ := step_of_caller i hstep
    · obtain rfl := (Label.caller.inj hsame).2
      exact (h.served_step hmove).isRefusal
    · simp [Label.isOf] at hother
  | _ => rfl

/-! ## Books -/

/-- What was made in a plain run, by its history, agrees with the meters, and with the calls that
failed and were left. -/
structure Books (policy : TierPolicy) (h : History α) (failed : Nat) (s : System α β) : Prop where
  reach : Reach policy h s.outline
  calm : s.IsCalm
  kept : ∀ pool ∈ s.dispatcher.pool, pool.isOpen = true
  manned : s.IsManned
  metered : ∃ bumps, Metered h bumps s
  settled : Settled h s
  isolated : s.dispatcher.pool.isSome → s.Isolated
  /-- Calls that fail are failures of inline compilations. -/
  failing : failed + s.failing =
    if s.dispatcher.pool.isSome then 0 else h.endings .failures

variable {policy : TierPolicy} {h : History α} {failed : Nat}

theorem Books.permits (hbooks : Books policy h failed s) (hplain : label.isPlain) :
    s.permits label = true := by
  cases label with
  | close => cases hplain
  | caller i move =>
    cases move with
    | invoke m unwinding =>
      rw [System.permits, Option.all_eq_true]
      exact hbooks.kept
    | _ => rfl
  | _ => rfl

/-- A plain step keeps the books. -/
theorem Books.step (hbooks : Books policy h failed s) (hplain : label.isPlain)
    (hstep : s.step label = some t) :
    Books policy (h ++ (s.milestone? label).toList) (failed + (s.givesUp label).toNat) t := by
  have hown := Label.isOwn_of_isPlain hplain
  have hspares := spares_of_isOwn hown (hbooks.permits hplain)
  have hcalm := isCalm_step (Label.isCalm_of_isPlain hplain) hstep hbooks.calm
  have hsome := isSome_pool_step hstep
  obtain ⟨bumps, hmetered⟩ := hbooks.metered
  obtain ⟨bumps', hmetered'⟩ := metered_step hown hstep hcalm hbooks.manned hmetered
  constructor
  case reach => exact reach_step hbooks.reach hown hstep
  case calm => exact hcalm
  case manned => exact isManned_step hstep hspares hbooks.manned
  case metered => exact ⟨bumps', hmetered'⟩
  case settled => exact settled_step hstep hmetered.calm hmetered'.calm hbooks.settled
  case isolated =>
    intro hpool
    exact isolated_step hspares hstep (hbooks.isolated (hsome ▸ hpool))
  case kept =>
    intro pool' hpool'
    obtain ⟨pool, hpool, hmoved⟩ := exists_poolStep_of_step hstep
      (Label.ne_close_of_isPlain hplain) (Label.keepsWorkers_of_isOwn hown) hpool'
    rw [hmoved.isOpen_eq]
    exact hbooks.kept pool hpool
  case failing =>
    have hold := hbooks.failing
    have hmoved := failing_step hplain hstep
    rw [hsome]
    by_cases hpool : s.dispatcher.pool.isSome
    · rw [if_pos hpool] at hold ⊢
      rw [(hbooks.isolated hpool).isRefusal_eq_false hstep, Bool.toNat_false] at hmoved
      omega
    · rw [if_neg hpool] at hold ⊢
      rw [isRefusal_eq hplain hstep (Bool.not_eq_true _ ▸ hpool)] at hmoved
      rw [History.endings_append]
      omega

theorem books_start {config : TierConfig} {d : Dispatcher α}
    (hstart : Dispatcher.start config = .ok d) (callers : Nat) :
    Books (.ofConfig config) [] 0 (start d callers : System α β) where
  reach := reach_start hstart callers
  calm := isCalm_start d callers
  manned := isManned_start hstart callers
  metered := ⟨0, metered_start hstart callers⟩
  settled := settled_start hstart callers
  isolated hpool := isolated_start hstart ((isSome_pool_start hstart).mp hpool) callers
  kept pool hpool := (isReceiving_start hstart callers pool hpool).1
  failing := by
    have hnone : (start d callers : System α β).failing = 0 := by
      simp [failing, start]
    rw [hnone]
    split <;> rfl

/-- Each call compiles once at most. -/
theorem Books.compiles_le (hbooks : Books policy h failed s) : h.compiles ≤ h.calls := by
  obtain ⟨bumps, hmetered⟩ := hbooks.metered
  have hbounded := hmetered.bounded
  have hle : s.work.countP (·.isStarted) ≤ s.work.countP (·.mayCompile) := by
    rw [Multiset.countP_eq_card_filter, Multiset.countP_eq_card_filter]
    refine Multiset.card_le_card (Multiset.monotone_filter_right s.work fun w hw => ?_)
    have huncounted : ∀ job : CompileJob α, job.isStarted = true → job.isUncounted = true := by
      rintro ⟨r, stage⟩ hjob
      cases stage with
      | holding => cases hjob
      | _ => exact hjob
    cases w with
    | call c =>
      obtain ⟨m, unwinding, stage⟩ := c
      cases stage with
      | compiling job => exact huncounted job hw
      | _ => cases hw
    | job job => exact huncounted job hw
    | queued r => cases hw
  rw [hmetered.compiles]
  omega

/-! ## Closing the books -/

/-- Whether no call is in progress, and all that returned were left. -/
def isClear (s : System α β) : Bool :=
  s.callers.all (·.isEmpty)

theorem isIdle_of_isClear (hclear : s.isClear) : s.isIdle := by
  rw [isClear, List.all_eq_true] at hclear
  rw [isIdle, List.all_eq_true]
  intro calls hcalls
  rw [List.isEmpty_iff.mp (hclear calls hcalls)]
  rfl

theorem failing_of_isClear (hclear : s.isClear) : s.failing = 0 := by
  rw [isClear, List.all_eq_true] at hclear
  rw [failing, List.sum_eq_zero_iff_forall_eq_nat]
  intro n hn
  obtain ⟨calls, hcalls, rfl⟩ := List.mem_map.mp hn
  rw [List.isEmpty_iff.mp (hclear calls hcalls)]
  rfl

/-- Without a pool there is no work but calls. -/
theorem work_of_isClear (hclear : s.isClear) (hpool : s.dispatcher.pool.isSome = false) :
    s.work = 0 := by
  refine Multiset.eq_zero_of_forall_notMem fun w hw => ?_
  cases w with
  | call c =>
    obtain ⟨calls, hcalls, hc⟩ := exists_mem_callsOf.mp (call_mem_work.mp hw)
    rw [isClear, List.all_eq_true] at hclear
    rw [List.isEmpty_iff.mp (hclear calls hcalls)] at hc
    cases hc
  | job | queued =>
    have hsome := isSome_pool_of_mem_work hw nofun
    rw [hpool] at hsome
    cases hsome

namespace Books

variable (hbooks : Books policy h failed s) (hclear : s.isClear) (hfew : h.calls < 2 ^ 64)

include hbooks hclear hfew

/-- In synchronous mode, the calls that failed are the failures counted, and together with the runs
they are the calls made. The compile calls made are those that the meters show. -/
theorem synchronous (hpool : s.dispatcher.pool.isSome = false) :
    let metrics := s.dispatcher.metrics
    failed = metrics.compilationFailures.toNat ∧
    metrics.interpretations.toNat + metrics.executions.toNat + failed = h.calls ∧
    h.compiles = metrics.l1Compilations.toNat + metrics.l2Compilations.toNat +
      metrics.compilationFailures.toNat ∧
    (∀ k : Meter, k.isOutcome → (metrics.value k).toNat = h.endings k) ∧
    s.outline.positions = 0 := by
  intro metrics
  obtain ⟨bumps, hmetered⟩ := hbooks.metered
  have hidle := isIdle_of_isClear hclear
  have hwork := work_of_isClear hclear hpool
  have hpositions : s.outline.positions = 0 := by
    rw [outline, positions, hwork]
    rfl
  have hcompiles := hbooks.reach.compiles_eq
  rw [hpositions, Multiset.countP_zero, Nat.add_zero, History.ended_eq] at hcompiles
  obtain ⟨hcalls, houtcomes, -⟩ := hmetered.synchronous hidle hpool
  have hvalue : ∀ k ≠ .denials, (metrics.value k).toNat = bumps.countP (·.meter = k) :=
    fun k hk => hmetered.toNat_value hfew hk
  have hbounded : h.compiles ≤ h.calls := by
    rw [houtcomes]
    exact Nat.le_of_add_right_le hmetered.bounded
  have hsettled : ∀ k : Meter, k.isOutcome → (metrics.value k).toNat = h.endings k := by
    intro k hk
    have hending := hbooks.settled k hk
    rw [jobs, hwork] at hending
    have hlt : h.endings k < 2 ^ 64 := by
      refine Nat.lt_of_le_of_lt ?_ hfew
      cases k with
      | compilations tier => cases tier <;> omega
      | failures => omega
      | _ => cases hk
    have hzero : metrics.value k = UInt64.ofNat (h.endings k) := by
      rw [hending]
      exact (UInt64.add_zero _).symm
    rw [hzero, UInt64.toNat_ofNat_of_lt' hlt]
  have hfailing := hbooks.failing
  rw [failing_of_isClear hclear, hpool, if_neg Bool.false_ne_true, Nat.add_zero] at hfailing
  have hinterpretations := hvalue .interpretations (by decide)
  have hexecutions := hvalue .executions (by decide)
  have hfailures := hvalue .failures (by decide)
  have hl1 := hsettled (.compilations .l1) rfl
  have hl2 := hsettled (.compilations .l2) rfl
  have hfailures' := hsettled .failures rfl
  simp only [Metrics.value] at hinterpretations hexecutions hfailures hl1 hl2 hfailures'
  refine ⟨by omega, by omega, by omega, hsettled, hpositions⟩

/-- In background mode no call failed, and the runs are the calls made. -/
theorem background (hpool : s.dispatcher.pool.isSome = true) :
    let metrics := s.dispatcher.metrics
    failed = 0 ∧ metrics.interpretations.toNat + metrics.executions.toNat = h.calls := by
  intro metrics
  obtain ⟨bumps, hmetered⟩ := hbooks.metered
  obtain ⟨pool, hpool⟩ := Option.isSome_iff_exists.mp hpool
  obtain ⟨hcalls, -⟩ := hmetered.background (isIdle_of_isClear hclear) hpool
  have hinterpretations : metrics.interpretations.toNat = _ :=
    hmetered.toNat_value (k := .interpretations) hfew (by decide)
  have hexecutions : metrics.executions.toNat = _ :=
    hmetered.toNat_value (k := .executions) hfew (by decide)
  have hfailing := hbooks.failing
  rw [hpool, Option.isSome_some, if_pos rfl] at hfailing
  exact ⟨by omega, by omega⟩

end Books

end System

end TieredDispatch

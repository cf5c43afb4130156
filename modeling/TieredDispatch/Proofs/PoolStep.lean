import TieredDispatch.Proofs.Draining
import TieredDispatch.Proofs.Outline
import TieredDispatch.Proofs.Stack

/-!
# The pool of a system

What a step of a system does to the pool (`System.poolStep_of_step`), and what follows for a host
that gives its dispatcher up last, and whose destructors cost no worker: as long as a call is in
progress the pool is open, no worker has left, and so every request that is handed over is received
(`System.isSome_submits?`).
-/

namespace TieredDispatch

variable {α β : Type}

/-- Whether no worker is lost in a step. -/
def Label.keepsWorkers : Label α β → Bool
  | lose _ _ => false
  | caller _ _ | worker _ _ | direct _ | close => true

theorem Label.keepsWorkers_of_isOwn {label : Label α β} (h : label.isOwn) :
    label.keepsWorkers := by
  cases label with
  | lose => cases h
  | _ => rfl

/-- What a step does to the pool unless it closes it or loses a worker: a request is sent, a worker
changes what it does, or a worker leaves a closed pool. -/
inductive PoolStep {J : Type} : Option (Pool J) → Option (Pool J) → Prop
  | same (pool? : Option (Pool J)) : PoolStep pool? pool?
  | send {pool pool' : Pool J} {r : Request} (h : pool.send r = some pool') :
      PoolStep (some pool) (some pool')
  | work (pool : Pool J) (queue : List Request) (i : Nat) {worker : Worker J}
      (halive : worker.isAlive = true) :
      PoolStep (some pool) (some { pool with queue, workers := pool.workers.set i worker })
  | stop {pool pool' : Pool J} {i : Nat} (h : pool.stop i = some pool') :
      PoolStep (some pool) (some pool')

theorem Call.poolStep_advance (c : Call α β) (d : Dispatcher α) :
    PoolStep d.pool (c.advance d).2.pool := by
  obtain ⟨metrics, log, h⟩ := c.advance_snd d
  rw [h]
  obtain ⟨m, unwinding, stage⟩ := c
  cases stage with
  | promoting tier count =>
    simp only [poolAfter]
    cases d.pool with
    | none => exact .same none
    | some pool =>
      cases hsend : pool.send ⟨m, tier⟩ with
      | none => simpa [hsend] using .same (some pool)
      | some pool' => simpa [hsend] using .send hsend
  | _ => exact .same d.pool

theorem StackStep.poolStep {d d' : Dispatcher α} {move : CallerMove α β}
    {calls calls' : List (Call α β)} (h : StackStep d move calls calls' d') :
    PoolStep d.pool d'.pool := by
  cases h with
  | advance => exact Call.poolStep_advance _ d
  | _ => exact .same d.pool

theorem WorkerStep.poolStep {d d' : Dispatcher α} {pool : Pool (CompileJob α)} {i : Nat}
    {move : WorkerMove α} (hpool : d.pool = some pool) (h : WorkerStep d pool i move d') :
    PoolStep d.pool d'.pool := by
  rw [hpool]
  cases h with
  | @take r rest => exact .work pool rest i rfl
  | beginCompile | endCompile | advance => exact .work pool pool.queue i rfl
  | finish =>
    rw [Dispatcher.pool_finishJob, hpool]
    exact .work pool pool.queue i rfl
  | stop hfree hqueue hclosed => exact .stop (i := i) (by simp [Pool.stop, hfree, hqueue, hclosed])

theorem System.poolStep_of_step {s t : System α β} {label : Label α β}
    (hstep : s.step label = some t) (hlabel : label ≠ .close) (hkeeps : label.keepsWorkers) :
    PoolStep s.dispatcher.pool t.dispatcher.pool := by
  cases systemStep_of_step hstep with
  | caller _ hmove => exact hmove.poolStep
  | worker hpool hmove => exact hmove.poolStep hpool
  | direct => exact .same _
  | close => exact absurd rfl hlabel
  | lose => cases hkeeps

namespace PoolStep

variable {J : Type} {pool? pool?' : Option (Pool J)}

theorem isSome_eq (h : PoolStep pool? pool?') : pool?'.isSome = pool?.isSome := by
  cases h <;> rfl

theorem isOpen_eq {pool pool' : Pool J} (h : PoolStep (some pool) (some pool')) :
    pool'.isOpen = pool.isOpen := by
  cases h with
  | same | work => rfl
  | send hsend =>
    unfold Pool.send at hsend
    split at hsend
    · obtain rfl := Option.some.inj hsend
      rfl
    · cases hsend
  | stop hstop =>
    unfold Pool.stop at hstop
    split at hstop
    · split at hstop
      · cases hstop
      · obtain rfl := Option.some.inj hstop
        rfl
    · cases hstop

/-- No worker leaves an open pool. -/
theorem isStaffed {pool pool' : Pool J} (h : PoolStep (some pool) (some pool'))
    (hstaffed : pool.IsStaffed) : pool'.IsStaffed := by
  intro hopen
  rw [h.isOpen_eq] at hopen
  obtain ⟨hsome, hall⟩ := hstaffed hopen
  cases h with
  | same => exact ⟨hsome, hall⟩
  | send hsend =>
    unfold Pool.send at hsend
    split at hsend
    · obtain rfl := Option.some.inj hsend
      exact ⟨hsome, hall⟩
    · cases hsend
  | work pool queue i halive =>
    refine ⟨by simpa using hsome, fun worker hworker => ?_⟩
    obtain hworker | rfl := List.mem_or_eq_of_mem_set hworker
    · exact hall worker hworker
    · exact halive
  | stop hstop =>
    unfold Pool.stop at hstop
    split at hstop
    · rw [if_pos hopen] at hstop
      cases hstop
    · cases hstop

end PoolStep

theorem Call.stage_of_hasReturned {c : Call α β} (h : c.hasReturned = true) :
    ∃ result, c.stage = .returned result := by
  obtain ⟨m, unwinding, stage⟩ := c
  cases stage with
  | returned result => exact ⟨result, rfl⟩
  | _ => cases h

/-- Calls that have returned can only be left. -/
theorem StackStep.hasReturned {d d' : Dispatcher α} {move : CallerMove α β}
    {calls calls' : List (Call α β)} (h : StackStep d move calls calls' d')
    (hreturned : ∀ c ∈ calls, c.hasReturned = true)
    (hmove : ∀ m unwinding, move ≠ .invoke m unwinding) : ∀ c ∈ calls', c.hasReturned = true := by
  have hended : ∀ c ∈ calls, ∃ result, c.turn = .ended result := by
    intro c hc
    obtain ⟨result, hstage⟩ := Call.stage_of_hasReturned (hreturned c hc)
    exact ⟨result, by rw [Call.turn, hstage]⟩
  cases h with
  | invoke m unwinding => exact absurd rfl (hmove m unwinding)
  | leave outer hturn => exact fun c hc => hreturned c (List.mem_cons_of_mem _ hc)
  | advance _ hturn | beginCompile _ hturn | endCompile _ _ hturn | endRun _ _ hturn =>
    obtain ⟨result, hresult⟩ := hended _ List.mem_cons_self
    rw [hresult] at hturn
    cases hturn

/-! ## Giving up last -/

/-- Whether no call is in progress. -/
def System.isIdle (s : System α β) : Bool :=
  s.callers.all (·.all (·.hasReturned))

/-- Whether a host that holds the dispatcher as long as it makes calls can take the step: it gives
up the dispatcher of a pool when no call is in progress, and makes no call after that. -/
def System.permits (s : System α β) : Label α β → Bool
  | .close => s.dispatcher.pool.isNone || s.isIdle
  | .caller _ (.invoke _ _) => s.dispatcher.pool.all (·.isOpen)
  | _ => true

/-- Whether the host gives its dispatcher up last. -/
def System.givesUpLast : System α β → List (Label α β) → Bool
  | _, [] => true
  | s, label :: labels => s.permits label && (s.step label).all (·.givesUpLast labels)

/-- Whether such a host can take the step, and no worker is lost in it. -/
def System.spares (s : System α β) (label : Label α β) : Bool :=
  s.permits label && label.keepsWorkers

theorem System.spares_of_isOwn {s : System α β} {label : Label α β} (hown : label.isOwn)
    (hpermits : s.permits label = true) : s.spares label = true := by
  rw [spares, hpermits, Label.keepsWorkers_of_isOwn hown]
  rfl

/-- Whatever is handed to the pool is received: it is open, and its workers are there. -/
def System.IsReceiving (s : System α β) : Prop :=
  ∀ pool ∈ s.dispatcher.pool, pool.isOpen = true ∧ pool.IsStaffed

/-- As long as the pool is open its workers are there, and it is open unless no call is in
progress. -/
def System.IsManned (s : System α β) : Prop :=
  ∀ pool ∈ s.dispatcher.pool, pool.IsStaffed ∧ (pool.isOpen = true ∨ s.isIdle = true)

namespace System

variable {s t : System α β} {label : Label α β}

theorem isIdle_iff : s.isIdle = true ↔ ∀ i, ∀ c ∈ s.callsOf i, c.hasReturned = true := by
  simp only [isIdle, List.all_eq_true]
  constructor
  · intro hall i c hc
    obtain ⟨calls, hcalls, hin⟩ := exists_mem_callsOf.mp ⟨i, hc⟩
    exact hall calls hcalls c hin
  · intro hall calls hcalls c hin
    obtain ⟨i, hc⟩ := exists_mem_callsOf.mpr ⟨calls, hcalls, hin⟩
    exact hall i c hc

/-- When no call is in progress, none is as long as none is made. -/
theorem isIdle_step (hstep : s.step label = some t) (hidle : s.isIdle = true)
    (hlabel : ∀ i m unwinding, label ≠ .caller i (.invoke m unwinding)) : t.isIdle = true := by
  rw [isIdle_iff] at hidle ⊢
  intro i
  obtain ⟨move, rfl, hmove⟩ | ⟨-, hsame⟩ := step_of_caller i hstep
  · exact hmove.hasReturned (hidle i) fun m unwinding h => hlabel i m unwinding (h ▸ rfl)
  · rw [hsame]
    exact hidle i

/-- No step makes a pool or takes it away. -/
theorem isSome_pool_step (hstep : s.step label = some t) :
    t.dispatcher.pool.isSome = s.dispatcher.pool.isSome := by
  cases systemStep_of_step hstep with
  | caller _ hmove => exact hmove.poolStep.isSome_eq
  | worker hpool hmove => exact (hmove.poolStep hpool).isSome_eq
  | direct => rfl
  | close => exact Option.isSome_map
  | lose _ hpool => rw [hpool]; rfl

/-- Where a pool is after a step, it comes from one that was there before. -/
theorem exists_poolStep_of_step (hstep : s.step label = some t) (hlabel : label ≠ .close)
    (hkeeps : label.keepsWorkers) {pool' : Pool (CompileJob α)}
    (hpool' : t.dispatcher.pool = some pool') :
    ∃ pool, s.dispatcher.pool = some pool ∧ PoolStep (some pool) (some pool') := by
  have hpoolStep := poolStep_of_step hstep hlabel hkeeps
  obtain ⟨pool, hpool⟩ := Option.isSome_iff_exists.mp
    ((isSome_pool_step hstep).symm.trans (Option.isSome_of_mem hpool'))
  rw [hpool, hpool'] at hpoolStep
  exact ⟨pool, hpool, hpoolStep⟩

theorem isManned_step (hstep : s.step label = some t) (hspares : s.spares label = true)
    (h : s.IsManned) : t.IsManned := by
  obtain ⟨hpermits, hkeeps⟩ := Bool.and_eq_true_iff.mp hspares
  intro pool' hpool'
  by_cases hclose : label = .close
  · subst hclose
    obtain rfl := Option.some.inj hstep
    obtain ⟨pool, hpool, rfl⟩ := Option.map_eq_some_iff.mp hpool'
    have hidle : s.isIdle = true := by simpa [permits, hpool] using hpermits
    exact ⟨fun hopen => (nomatch hopen), .inr hidle⟩
  · obtain ⟨pool, hpool, hpoolStep⟩ := exists_poolStep_of_step hstep hclose hkeeps hpool'
    obtain ⟨hstaffed, hopen⟩ := h pool hpool
    refine ⟨hpoolStep.isStaffed hstaffed, ?_⟩
    rw [hpoolStep.isOpen_eq]
    by_cases hinvoke : ∃ i m unwinding, label = .caller i (.invoke m unwinding)
    · obtain ⟨i, m, unwinding, rfl⟩ := hinvoke
      left
      simpa [permits, hpool] using hpermits
    · refine hopen.imp_right fun hidle => isIdle_step hstep hidle ?_
      exact fun i m unwinding hlabel => hinvoke ⟨i, m, unwinding, hlabel⟩

/-- Where the pool is manned, every request that is handed over is received. -/
theorem isSome_submits? (h : s.IsManned) (hpool : s.dispatcher.pool.isSome = true) {i : Nat}
    {c : Call α β} (hc : c ∈ s.callsOf i) {tier : Tier} {count : UInt64}
    (hstage : c.stage = .promoting tier count) : (c.submits? s.dispatcher).isSome = true := by
  obtain ⟨pool, hpool⟩ := Option.isSome_iff_exists.mp hpool
  obtain ⟨hstaffed, hopen⟩ := h pool hpool
  have hopen : pool.isOpen = true := by
    refine hopen.resolve_right fun hidle => ?_
    have hreturned := isIdle_iff.mp hidle i c hc
    simp [Call.hasReturned, hstage] at hreturned
  simp [Call.submits?, hstage, hpool, Pool.isSome_send hstaffed hopen]

theorem isReceiving_step (hlabel : label ≠ .close) (hkeeps : label.keepsWorkers)
    (hstep : s.step label = some t) (h : s.IsReceiving) : t.IsReceiving := by
  intro pool' hpool'
  obtain ⟨pool, hpool, hmoved⟩ := exists_poolStep_of_step hstep hlabel hkeeps hpool'
  obtain ⟨hopen, hstaffed⟩ := h pool hpool
  exact ⟨hmoved.isOpen_eq.trans hopen, hmoved.isStaffed hstaffed⟩

theorem IsReceiving.isSome_send (h : s.IsReceiving) (hpool : s.dispatcher.pool.isSome = true)
    (r : Request) : (s.dispatcher.pool.bind (·.send r)).isSome = true := by
  obtain ⟨pool, hpool⟩ := Option.isSome_iff_exists.mp hpool
  obtain ⟨hopen, hstaffed⟩ := h pool hpool
  rw [hpool, Option.bind_some]
  exact Pool.isSome_send hstaffed hopen r

end System

end TieredDispatch

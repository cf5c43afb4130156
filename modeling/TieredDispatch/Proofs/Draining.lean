import Mathlib.Algebra.BigOperators.Group.Multiset.Basic
import Mathlib.Algebra.GroupWithZero.Nat
import TieredDispatch.Dispatch.Handling
import TieredDispatch.Proofs.Work

/-!
# Every request is handled exactly once

Main theorem `handled_exactly_once`: whatever the schedule of the sender and the workers, and
however the handler ends each time, no more requests are in hand than there are workers, requests
are started in the order they were sent, and once the pool is given up all workers are joined after
finitely many moves. If one of them is left by then, every request was handled once.

A worker is lost when the destructor of a panic's payload panics. Otherwise it stays until the pool
is closed; but a single panic of a destructor is enough for a pool of one worker to be left with
nobody (`pool_lost_to_destructor`), and then nothing can be sent and the waiting requests are never
started.

A request is in one of three places: in the queue, in the hands of a worker, or among the handled
ones. `Accounted` says that these are all the requests ever sent, unless every worker was lost, and
that a worker has stopped only if the pool is closed and the queue empty; each kind of move
preserves it (`accounted_step`). The drain ends because every move uses up one of the moves that are
left (`movesLeft_step`), and it does not end early because a worker that has not left can move, and
one that has left can be joined (`exists_move`).
-/

namespace TieredDispatch

/-! ## Requests in hand and moves that are left -/

theorem Worker.panic?_of_isAlive {J : Type} {worker : Worker J} (h : worker.isAlive = true) :
    worker.panic? = none := by
  cases worker with
  | free | busy _ | stopped => rfl
  | lost _ => cases h

namespace Pool

variable {J : Type}

/-- The jobs of the busy workers. -/
def jobs (pool : Pool J) : List J :=
  pool.workers.flatMap (·.job?.toList)

/-- Whether every worker has left. -/
def isDeserted (pool : Pool J) : Bool :=
  pool.workers.all (!·.isAlive)

/-- Whether every worker was lost. -/
def isLost (pool : Pool J) : Bool :=
  pool.workers.all (·.panic?.isSome)

theorem length_jobs_le (pool : Pool J) : pool.jobs.length ≤ pool.size := by
  have hone : ∀ worker : Worker J, worker.job?.toList.length ≤ 1 := by
    intro worker
    cases worker <;> simp [Worker.job?]
  simp only [jobs, size]
  induction pool.workers with
  | nil => simp
  | cons worker workers ih =>
    have hworker := hone worker
    simp only [List.flatMap_cons, List.length_append, List.length_cons]
    omega

/-- As long as requests can be sent, there are workers and none has left. -/
def IsStaffed (pool : Pool J) : Prop :=
  pool.isOpen = true → pool.workers ≠ [] ∧ ∀ worker ∈ pool.workers, worker.isAlive = true

theorem isSome_send {pool : Pool J} (h : pool.IsStaffed) (hopen : pool.isOpen = true)
    (r : Request) : (pool.send r).isSome = true := by
  obtain ⟨hsome, halive⟩ := h hopen
  obtain ⟨worker, hworker⟩ := List.exists_mem_of_ne_nil _ hsome
  have hany : pool.workers.any (·.isAlive) = true :=
    List.any_eq_true.mpr ⟨worker, hworker, halive worker hworker⟩
  simp [send, hopen, hany]

end Pool

/-- The moves a worker makes before it leaves, if there is nothing in the queue: a free one only
leaves. -/
def Worker.movesLeft {J : Type} : Worker J → Nat
  | free => 1
  | busy _ => 2
  | stopped | lost _ => 0

@[simp] theorem Worker.movesLeft_free {J : Type} : (free : Worker J).movesLeft = 1 := rfl

@[simp] theorem Worker.movesLeft_busy {J : Type} (job : J) : (busy job).movesLeft = 2 := rfl

@[simp] theorem Worker.movesLeft_stopped {J : Type} : (stopped : Worker J).movesLeft = 0 := rfl

@[simp] theorem Worker.movesLeft_lost {J : Type} (payload : PanicPayload) :
    (lost payload : Worker J).movesLeft = 0 := rfl

/-- Whether every worker was joined. -/
def Handling.isOver (h : Handling) : Bool :=
  h.joined == h.pool.size

/-- The moves before all workers have left and were joined, if nothing more is sent: two for each
waiting request, those of each worker itself, and one to join it. -/
def Handling.movesLeft (h : Handling) : Nat :=
  2 * h.pool.queue.length + (h.pool.workers.map Worker.movesLeft).sum + (h.pool.size - h.joined)

namespace PoolMove

/-- Whether a move is one that ends a pool after it was given up. -/
def isDraining : PoolMove → Bool
  | send _ | close => false
  | take _ | handle _ _ | lose _ _ | stop _ | join => true

/-- How the handler ends in a move, if it does. -/
def outcome? : PoolMove → Option (Option PanicPayload)
  | handle _ panic => some panic
  | lose _ _ => some (some .other)
  | send _ | take _ | close | stop _ | join => none

end PoolMove

/-- Replacing an entry of a list replaces its share of the sum. -/
theorem sum_map_set {γ : Type} (f : γ → Nat) {l : List γ} {i : Nat} {a : γ} (h : l[i]? = some a)
    (b : γ) : ((l.set i b).map f).sum + f a = (l.map f).sum + f b := by
  obtain ⟨frame, hold, hset⟩ := flatMap_set (fun x => [f x]) h
  have hsum := congrArg Multiset.sum hold
  have hsum' := congrArg Multiset.sum (hset b)
  simp only [← List.map_eq_flatMap, Multiset.sum_add, Multiset.sum_coe, List.sum_singleton]
    at hsum hsum'
  omega

namespace Handling

variable {n : Nat} {h t : Handling} {m : PoolMove} {ms : List PoolMove}

/-! ## What a move does -/

/-- A move that is possible, and what it does. -/
inductive Step (h : Handling) : PoolMove → Handling → Prop
  | send (r : Request) (hopen : h.pool.isOpen = true) (halive : h.pool.workers.any (·.isAlive)) :
      Step h (.send r)
        { h with pool := { h.pool with queue := h.pool.queue ++ [r] }, sent := r :: h.sent }
  | take (i : Nat) {r : Request} {rest : List Request} (hfree : h.pool.workers[i]? = some .free)
      (hqueue : h.pool.queue = r :: rest) :
      Step h (.take i)
        { h with
          pool := { h.pool with queue := rest, workers := h.pool.workers.set i (.busy r) }
          started := r :: h.started }
  | handle (i : Nat) (panic : Option PanicPayload) {r : Request}
      (hbusy : h.pool.workers[i]? = some (.busy r)) :
      Step h (.handle i panic)
        (record { h with pool := { h.pool with workers := h.pool.workers.set i .free } }
          ⟨i, r, panic⟩)
  | lose (i : Nat) (payload : PanicPayload) {r : Request}
      (hbusy : h.pool.workers[i]? = some (.busy r)) :
      Step h (.lose i payload)
        (record { h with pool := h.pool.lose i payload } ⟨i, r, some .other⟩)
  | close : Step h .close { h with pool := { h.pool with isOpen := false } }
  | stop (i : Nat) (hfree : h.pool.workers[i]? = some .free) (hqueue : h.pool.queue = [])
      (hclosed : h.pool.isOpen = false) :
      Step h (.stop i)
        { h with pool := { h.pool with workers := h.pool.workers.set i .stopped } }
  | join {worker : Worker Request} (hnext : h.pool.workers[h.joined]? = some worker)
      (hclosed : h.pool.isOpen = false) (hdead : worker.isAlive = false) :
      Step h .join
        { h with
          joined := h.joined + 1
          log := (h.pool.joinEvent? h.joined).toList ++ h.log }

theorem workers_of_jobOf? {pool : Pool Request} {i : Nat} {r : Request}
    (h : pool.jobOf? i = some r) : pool.workers[i]? = some (.busy r) := by
  obtain ⟨worker, hworker, hr⟩ := Option.bind_eq_some_iff.mp h
  cases worker with
  | busy job =>
    obtain rfl := Option.some.inj hr
    exact hworker
  | free | stopped | lost _ => cases hr

theorem step_of_move (hmove : h.move m = some t) : Step h m t := by
  cases m with
  | send r =>
    obtain ⟨pool, hsend, ht⟩ := Option.bind_eq_some_iff.mp hmove
    obtain rfl := Option.some.inj ht
    unfold Pool.send at hsend
    split at hsend
    · rename_i hcan
      obtain rfl := Option.some.inj hsend
      rw [Bool.and_eq_true] at hcan
      exact .send r hcan.1 hcan.2
    · cases hsend
  | take i =>
    obtain ⟨⟨r, pool⟩, htake, ht⟩ := Option.bind_eq_some_iff.mp hmove
    obtain rfl := Option.some.inj ht
    unfold Pool.take at htake
    split at htake
    · rename_i hfree hqueue
      obtain ⟨rfl, rfl⟩ := Prod.mk.inj (Option.some.inj htake)
      exact .take i hfree hqueue
    · cases htake
  | handle i panic =>
    obtain ⟨r, hjob, ht⟩ := Option.bind_eq_some_iff.mp hmove
    obtain rfl := Option.some.inj ht
    exact .handle i panic (workers_of_jobOf? hjob)
  | lose i payload =>
    obtain ⟨r, hjob, ht⟩ := Option.bind_eq_some_iff.mp hmove
    obtain rfl := Option.some.inj ht
    exact .lose i payload (workers_of_jobOf? hjob)
  | close =>
    obtain rfl := Option.some.inj hmove
    exact .close
  | stop i =>
    obtain ⟨pool, hstop, ht⟩ := Option.bind_eq_some_iff.mp hmove
    obtain rfl := Option.some.inj ht
    unfold Pool.stop at hstop
    split at hstop
    · rename_i hfree hqueue
      split at hstop
      · cases hstop
      · rename_i hclosed
        obtain rfl := Option.some.inj hstop
        exact .stop i hfree hqueue (by simpa using hclosed)
    · cases hstop
  | join =>
    obtain ⟨worker, hnext, ht⟩ := Option.bind_eq_some_iff.mp hmove
    split at ht
    · cases ht
    · rename_i hended
      obtain rfl := Option.some.inj ht
      rw [Bool.or_eq_true, not_or, Bool.not_eq_true, Bool.not_eq_true] at hended
      exact .join hnext hended.1 hended.2

theorem moves_append (h : Handling) (before after : List PoolMove) :
    h.moves (before ++ after) = (h.moves before).bind (·.moves after) := by
  induction before generalizing h with
  | nil => rfl
  | cons m before ih =>
    rw [List.cons_append, moves, moves]
    cases h.move m with
    | none => rfl
    | some t => exact ih t

/-- What every possible move preserves, every schedule preserves. -/
theorem moves_induction {P : Handling → Prop} (hstep : ∀ h m t, Step h m t → P h → P t)
    (hstart : P h) (hrun : h.moves ms = some t) : P t := by
  induction ms generalizing h with
  | nil =>
    obtain rfl := Option.some.inj hrun
    exact hstart
  | cons m ms ih =>
    obtain ⟨next, hmove, hrest⟩ := Option.bind_eq_some_iff.mp hrun
    exact ih (hstep h m next (step_of_move hmove) hstart) hrest

/-! ## Where the requests are -/

/-- What holds of a pool started with the given number of workers, along every schedule. -/
structure Accounted (n : Nat) (h : Handling) : Prop where
  size : h.pool.size = max n 1
  /-- The requests that were not started are in the queue, or all workers were lost. -/
  queued : ∃ rest, h.sent.reverse = h.started.reverse ++ rest ∧
    (h.pool.queue = rest ∨ h.pool.isLost = true)
  /-- The requests that were started are in hand or handled. -/
  inHand : (h.started : Multiset Request) = ↑(h.handled.map (·.request)) + ↑h.pool.jobs
  /-- A worker has stopped only if nothing is to come. -/
  stopped : .stopped ∈ h.pool.workers → h.pool.isOpen = false ∧ h.pool.queue = []

theorem accounted_start : Accounted n (start n) where
  size := List.length_replicate
  queued := ⟨[], rfl, .inl rfl⟩
  inHand := by simp [start, Pool.start, Pool.jobs, List.flatMap_replicate, Worker.job?]
  stopped := fun hstopped => nomatch List.eq_of_mem_replicate hstopped

/-- A move changes the requests in hand by the entry of one worker. -/
theorem jobs_set {pool : Pool Request} {i : Nat} {old : Worker Request}
    (hold : pool.workers[i]? = some old) :
    ∃ frame : Multiset Request, (pool.jobs : Multiset Request) = ↑old.job?.toList + frame ∧
      ∀ new isOpen queue,
        ((⟨isOpen, queue, pool.workers.set i new⟩ : Pool Request).jobs : Multiset Request) =
          ↑new.job?.toList + frame := by
  obtain ⟨frame, hjobs, hset⟩ := flatMap_set (fun w : Worker Request => w.job?.toList) hold
  exact ⟨frame, hjobs, fun new _ _ => hset new⟩

/-- When a request is handled it is no longer in hand, whatever its worker does next. -/
theorem inHand_handled {pool : Pool Request} {i : Nat} {r : Request} {handled : List Handled}
    {panic : Option PanicPayload} {started : Multiset Request}
    (hbusy : pool.workers[i]? = some (.busy r))
    (hinHand : started = ↑(handled.map (·.request)) + ↑pool.jobs) {worker : Worker Request}
    (hjob : worker.job? = none) (isOpen : Bool) (queue : List Request) :
    started = ↑((⟨i, r, panic⟩ :: handled : List Handled).map (·.request)) +
      ↑(⟨isOpen, queue, pool.workers.set i worker⟩ : Pool Request).jobs := by
  obtain ⟨frame, hjobs, hset⟩ := jobs_set hbusy
  rw [hset, hinHand, hjobs, hjob]
  change _ + ({r} + frame) = (r ::ₘ ↑(handled.map (·.request))) + (0 + frame)
  rw [Multiset.singleton_add, Multiset.add_cons, Multiset.cons_add, zero_add]

/-- Who is alive is not lost, so that not all workers are. -/
theorem isLost_eq_false {pool : Pool Request} {worker : Worker Request}
    (hworker : worker ∈ pool.workers) (hthere : worker.panic? = none) : pool.isLost = false := by
  rw [Pool.isLost, List.all_eq_false]
  exact ⟨worker, hworker, by simp [hthere]⟩

/-- What is waiting is discarded with the last worker only. If another one has stopped by then,
nothing is waiting. -/
theorem queued_lose {pool : Pool Request} {i : Nat} (payload : PanicPayload)
    (hstopped : .stopped ∈ pool.workers → pool.isOpen = false ∧ pool.queue = []) :
    (pool.lose i payload).queue = pool.queue ∨ (pool.lose i payload).isLost = true := by
  rw [Pool.lose, Pool.isLost]
  dsimp only
  split
  · exact .inl rfl
  · rename_i hnone
    by_cases hmem : .stopped ∈ pool.workers
    · exact .inl (hstopped hmem).2.symm
    · refine .inr (List.all_eq_true.mpr fun worker hworker => ?_)
      have hdead : worker.isAlive = false := by
        rw [Bool.not_eq_true, List.any_eq_false] at hnone
        simpa using hnone worker hworker
      cases worker with
      | lost _ => rfl
      | free | busy _ => cases hdead
      | stopped =>
        obtain hworker | hworker := List.mem_or_eq_of_mem_set hworker
        · exact absurd hworker hmem
        · cases hworker

theorem accounted_step (hstep : Step h m t) (hh : Accounted n h) : Accounted n t := by
  obtain ⟨hsize, ⟨rest, hsent, hqueued⟩, hinHand, hstopped⟩ := hh
  -- As long as a worker is there, the requests that were not started are in the queue.
  have hthere : ∀ worker ∈ h.pool.workers, worker.panic? = none → h.pool.queue = rest :=
    fun worker hworker hworking => hqueued.resolve_right
      (Bool.eq_false_iff.mp (isLost_eq_false hworker hworking))
  cases hstep with
  | send r hopen halive =>
    obtain ⟨worker, hworker, halive⟩ := List.any_eq_true.mp halive
    have hqueue := hthere worker hworker (Worker.panic?_of_isAlive halive)
    refine ⟨hsize, ⟨rest ++ [r], by simp [hsent], .inl (by rw [hqueue])⟩, hinHand,
      fun hmem => ?_⟩
    rw [(hstopped hmem).1] at hopen
    cases hopen
  | @take i r queue hfree hqueue =>
    obtain ⟨frame, hjobs, hset⟩ := jobs_set hfree
    obtain rfl := hthere _ (List.mem_of_getElem? hfree) rfl
    refine ⟨by simpa [Pool.size] using hsize, ⟨queue, by simp [hsent, hqueue], .inl rfl⟩, ?_,
      fun hmem => ?_⟩
    · rw [hset, ← Multiset.cons_coe, hinHand, hjobs]
      simp [Worker.job?, Multiset.singleton_add]
    · obtain hmem | hmem := List.mem_or_eq_of_mem_set hmem
      · rw [(hstopped hmem).2] at hqueue
        cases hqueue
      · cases hmem
  | @handle i panic r hbusy =>
    have hqueue := hthere _ (List.mem_of_getElem? hbusy) rfl
    refine ⟨by simpa [record, Pool.size] using hsize, ⟨rest, hsent, .inl hqueue⟩,
      inHand_handled hbusy hinHand rfl _ _, fun hmem => ?_⟩
    obtain hmem | hmem := List.mem_or_eq_of_mem_set hmem
    · exact hstopped hmem
    · cases hmem
  | @lose i payload r hbusy =>
    have hqueue := hthere _ (List.mem_of_getElem? hbusy) rfl
    refine ⟨by simpa [record, Pool.lose, Pool.size] using hsize,
      ⟨rest, hsent, hqueue ▸ queued_lose payload hstopped⟩,
      inHand_handled hbusy hinHand rfl _ _, fun hmem => ?_⟩
    obtain hmem | hmem := List.mem_or_eq_of_mem_set hmem
    · refine ⟨(hstopped hmem).1, ?_⟩
      simp [record, Pool.lose, (hstopped hmem).2]
    · cases hmem
  | close => exact ⟨hsize, ⟨rest, hsent, hqueued⟩, hinHand, fun hmem => ⟨rfl, (hstopped hmem).2⟩⟩
  | stop i hfree hqueue hclosed =>
    obtain ⟨frame, hjobs, hset⟩ := jobs_set hfree
    refine ⟨by simpa [Pool.size] using hsize,
      ⟨rest, hsent, .inl (hthere _ (List.mem_of_getElem? hfree) rfl)⟩, ?_,
      fun _ => ⟨hclosed, hqueue⟩⟩
    rw [hset, hinHand, hjobs]
    rfl
  | join => exact ⟨hsize, ⟨rest, hsent, hqueued⟩, hinHand, hstopped⟩

theorem accounted_of_moves (hrun : (start n).moves ms = some h) : Accounted n h :=
  moves_induction (fun _ _ _ => accounted_step) accounted_start hrun

/-- A single worker handles the requests one after the other: the last one started is in hand, and
the others are handled in the order they were started. -/
structure InTurn (h : Handling) : Prop where
  single : h.pool.size = 1
  started : h.started = h.pool.jobs ++ h.handled.map (·.request)

theorem inTurn_start (hn : n ≤ 1) : InTurn (start n) where
  single := by
    simp only [start, Pool.start, Pool.size, List.length_replicate]
    omega
  started := by simp [start, Pool.start, Pool.jobs, List.flatMap_replicate, Worker.job?]

theorem inTurn_step (hstep : Step h m t) (hh : InTurn h) : InTurn t := by
  obtain ⟨hsingle, hstarted⟩ := hh
  obtain ⟨worker, hworkers⟩ := List.length_eq_one_iff.mp hsingle
  have honly : ∀ {i : Nat} {w : Worker Request},
      h.pool.workers[i]? = some w → i = 0 ∧ worker = w := by
    intro i w hw
    rw [hworkers] at hw
    cases i with
    | zero => exact ⟨rfl, Option.some.inj hw⟩
    | succ i => cases hw
  cases hstep with
  | send | close | join => exact ⟨hsingle, hstarted⟩
  | take i hfree =>
    obtain ⟨rfl, rfl⟩ := honly hfree
    exact ⟨by simp [Pool.size, hworkers], by
      simpa [Pool.jobs, hworkers, Worker.job?] using hstarted⟩
  | handle i panic hbusy =>
    obtain ⟨rfl, rfl⟩ := honly hbusy
    exact ⟨by simp [record, Pool.size, hworkers], by
      simpa [record, Pool.jobs, hworkers, Worker.job?] using hstarted⟩
  | lose i payload hbusy =>
    obtain ⟨rfl, rfl⟩ := honly hbusy
    exact ⟨by simp [record, Pool.lose, Pool.size, hworkers], by
      simpa [record, Pool.lose, Pool.jobs, hworkers, Worker.job?] using hstarted⟩
  | stop i hfree =>
    obtain ⟨rfl, rfl⟩ := honly hfree
    exact ⟨by simp [Pool.size, hworkers], by
      simpa [Pool.jobs, hworkers, Worker.job?] using hstarted⟩

/-! ## What was reported -/

/-- The handled requests that panicked were reported, and so were the panics of the workers that
were joined. These have left. -/
structure Reported (h : Handling) : Prop where
  log : h.log.Perm
    (h.handled.filterMap (·.event?) ++ (List.range h.joined).filterMap h.pool.joinEvent?)
  joined : h.joined ≤ h.pool.size
  left : ∀ i < h.joined, ∀ worker, h.pool.workers[i]? = some worker → worker.isAlive = false

theorem reported_start : Reported (start n) where
  log := .refl []
  joined := Nat.zero_le _
  left := nofun

/-- What a worker that is still there does is nothing to those that have left. -/
theorem Reported.set (hh : Reported h) {i : Nat} {old : Worker Request}
    (hold : h.pool.workers[i]? = some old) (halive : old.isAlive = true) (new : Worker Request)
    (isOpen : Bool) (queue : List Request) :
    let pool : Pool Request := ⟨isOpen, queue, h.pool.workers.set i new⟩
    (List.range h.joined).filterMap pool.joinEvent? =
        (List.range h.joined).filterMap h.pool.joinEvent? ∧
      h.joined ≤ pool.size ∧
      ∀ k < h.joined, ∀ worker, pool.workers[k]? = some worker → worker.isAlive = false := by
  intro pool
  have hother : ∀ k < h.joined, pool.workers[k]? = h.pool.workers[k]? := by
    intro k hk
    refine List.getElem?_set_ne fun heq => ?_
    rw [hh.left k hk old (heq ▸ hold)] at halive
    cases halive
  refine ⟨List.filterMap_congr fun k hk => ?_, ?_, fun k hk worker hworker => ?_⟩
  · rw [Pool.joinEvent?, Pool.joinEvent?, hother k (List.mem_range.mp hk)]
  · simpa [pool, Pool.size] using hh.joined
  · exact hh.left k hk worker (hother k hk ▸ hworker)

/-- A handled request is reported if its handler panicked. -/
theorem perm_record {log joins : List Event} {handled : List Handled}
    (h : log.Perm (handled.filterMap (·.event?) ++ joins)) (x : Handled) :
    (x.event?.toList ++ log).Perm ((x :: handled).filterMap (·.event?) ++ joins) := by
  rw [List.filterMap_cons]
  cases x.event? with
  | none => exact h
  | some event => exact h.cons event

theorem reported_step (hstep : Step h m t) (hh : Reported h) : Reported t := by
  cases hstep with
  | send | close => exact ⟨hh.log, hh.joined, hh.left⟩
  | @take i r rest hfree =>
    obtain ⟨hevents, hjoined, hleft⟩ := hh.set hfree rfl (.busy r) h.pool.isOpen rest
    exact ⟨hevents.symm ▸ hh.log, hjoined, hleft⟩
  | stop i hfree =>
    obtain ⟨hevents, hjoined, hleft⟩ := hh.set hfree rfl .stopped h.pool.isOpen h.pool.queue
    exact ⟨hevents.symm ▸ hh.log, hjoined, hleft⟩
  | @handle i panic r hbusy =>
    obtain ⟨hevents, hjoined, hleft⟩ := hh.set hbusy rfl .free h.pool.isOpen h.pool.queue
    exact ⟨hevents.symm ▸ perm_record hh.log ⟨i, r, panic⟩, hjoined, hleft⟩
  | @lose i payload r hbusy =>
    obtain ⟨hevents, hjoined, hleft⟩ := hh.set hbusy rfl (.lost payload) h.pool.isOpen
      (h.pool.lose i payload).queue
    exact ⟨hevents.symm ▸ perm_record hh.log ⟨i, r, some .other⟩, hjoined, hleft⟩
  | @join worker hnext hclosed hdead =>
    refine ⟨?_, (List.getElem?_eq_some_iff.mp hnext).1, fun i hi k hk => ?_⟩
    · have hlast : [h.joined].filterMap h.pool.joinEvent? =
          (h.pool.joinEvent? h.joined).toList := by
        rw [List.filterMap_cons]
        cases h.pool.joinEvent? h.joined <;> rfl
      rw [List.range_succ, List.filterMap_append, hlast, ← List.append_assoc]
      exact (List.perm_append_comm).trans (hh.log.append_right _)
    · obtain hlt | rfl := Nat.lt_succ_iff_lt_or_eq.mp hi
      · exact hh.left i hlt k hk
      · obtain rfl := Option.some.inj (hnext.symm.trans hk)
        exact hdead

theorem reported_of_moves (hrun : (start n).moves ms = some h) : Reported h :=
  moves_induction (fun _ _ _ => reported_step) reported_start hrun

/-- What the schedule says about the handler is what was recorded. -/
theorem history_of_moves (hrun : h.moves ms = some t) :
    t.history.map (·.panic) = h.history.map (·.panic) ++ ms.filterMap (·.outcome?) := by
  induction ms generalizing h with
  | nil =>
    obtain rfl := Option.some.inj hrun
    rw [List.filterMap_nil, List.append_nil]
  | cons m ms ih =>
    obtain ⟨next, hmove, hrest⟩ := Option.bind_eq_some_iff.mp hrun
    have hnext : next.history.map (·.panic) =
        h.history.map (·.panic) ++ m.outcome?.toList := by
      cases step_of_move hmove <;> simp [history, record, PoolMove.outcome?]
    rw [ih hrest, hnext, List.append_assoc, List.filterMap_cons]
    cases m.outcome? <;> rfl

/-! ## The pool before and after it is closed -/

/-- The pool is open until the sender gives it up. -/
theorem isOpen_of_moves (hrun : h.moves ms = some t) :
    t.pool.isOpen = true ↔ h.pool.isOpen = true ∧ .close ∉ ms := by
  induction ms generalizing h with
  | nil =>
    obtain rfl := Option.some.inj hrun
    simp
  | cons m ms ih =>
    obtain ⟨next, hmove, hrest⟩ := Option.bind_eq_some_iff.mp hrun
    rw [ih hrest, List.mem_cons]
    cases step_of_move hmove <;> simp [record, Pool.lose]

/-- As long as the pool is open every worker is there, except those that were lost, and if one is
there a request can be sent. -/
theorem isSome_move_send (hh : Accounted n h) (hopen : h.pool.isOpen = true) :
    (∀ worker ∈ h.pool.workers, worker.isAlive = true ∨ worker.panic?.isSome = true) ∧
      (h.pool.isDeserted = false → ∀ r, (h.move (.send r)).isSome = true) := by
  refine ⟨fun worker hworker => ?_, fun hthere r => ?_⟩
  · cases worker with
    | free | busy _ => exact .inl rfl
    | lost _ => exact .inr rfl
    | stopped =>
      rw [(hh.stopped hworker).1] at hopen
      cases hopen
  · have hany : h.pool.workers.any (·.isAlive) = true := by
      simpa [Pool.isDeserted] using hthere
    simp [move, Pool.send, hopen, hany]

/-- A worker is only lost to the destructor of a payload. -/
theorem panic?_of_moves (hlost : ∀ i payload, .lose i payload ∉ ms)
    (hrun : (start n).moves ms = some h) : ∀ worker ∈ h.pool.workers, worker.panic? = none := by
  have hstart : ∀ worker ∈ (start n).pool.workers, worker.panic? = none := by
    intro worker hworker
    obtain rfl := List.eq_of_mem_replicate hworker
    rfl
  generalize start n = before at hrun hstart
  induction ms generalizing before with
  | nil =>
    obtain rfl := Option.some.inj hrun
    exact hstart
  | cons m ms ih =>
    obtain ⟨next, hmove, hrest⟩ := Option.bind_eq_some_iff.mp hrun
    refine ih (fun i payload hmem => hlost i payload (List.mem_cons_of_mem m hmem)) next hrest ?_
    -- The worker that moves is not lost, and the others stay as they are.
    have hset : ∀ {i : Nat} {new : Worker Request}, new.panic? = none →
        ∀ worker ∈ before.pool.workers.set i new, worker.panic? = none := by
      intro i new hnew worker hworker
      obtain hworker | rfl := List.mem_or_eq_of_mem_set hworker
      · exact hstart worker hworker
      · exact hnew
    cases step_of_move hmove with
    | send | close | join => exact hstart
    | take | handle | stop => exact hset rfl
    | lose i payload => exact absurd List.mem_cons_self (hlost i payload)

/-- A move that ends a closed pool uses up at least one of the moves that are left. -/
theorem movesLeft_step (hstep : Step h m t) (hm : m.isDraining = true) :
    t.movesLeft + 1 ≤ h.movesLeft := by
  cases hstep with
  | send | close => cases hm
  | @take i r rest hfree hqueue =>
    have hsum := sum_map_set Worker.movesLeft hfree (.busy r)
    simp only [movesLeft, Pool.size, hqueue, List.length_cons, List.length_set,
      Worker.movesLeft_free, Worker.movesLeft_busy] at hsum ⊢
    omega
  | handle i panic hbusy =>
    have hsum := sum_map_set Worker.movesLeft hbusy .free
    simp only [movesLeft, record, Pool.size, List.length_set, Worker.movesLeft_free,
      Worker.movesLeft_busy] at hsum ⊢
    omega
  | lose i payload hbusy =>
    have hsum := sum_map_set Worker.movesLeft hbusy (.lost payload)
    have hqueue : (h.pool.lose i payload).queue.length ≤ h.pool.queue.length := by
      rw [Pool.lose]
      dsimp only
      split <;> simp
    have hworkers : (h.pool.lose i payload).workers = h.pool.workers.set i (.lost payload) := rfl
    simp only [movesLeft, record, Pool.size, hworkers, List.length_set, Worker.movesLeft_lost,
      Worker.movesLeft_busy] at hsum ⊢
    omega
  | stop i hfree =>
    have hsum := sum_map_set Worker.movesLeft hfree .stopped
    simp only [movesLeft, Pool.size, List.length_set, Worker.movesLeft_free,
      Worker.movesLeft_stopped] at hsum ⊢
    omega
  | join hnext =>
    have hlt : h.joined < h.pool.size := (List.getElem?_eq_some_iff.mp hnext).1
    simp only [movesLeft]
    omega

theorem movesLeft_of_moves (hdraining : ∀ m ∈ ms, m.isDraining = true)
    (hrun : h.moves ms = some t) : t.movesLeft + ms.length ≤ h.movesLeft := by
  induction ms generalizing h with
  | nil =>
    obtain rfl := Option.some.inj hrun
    exact Nat.le_refl _
  | cons m ms ih =>
    obtain ⟨next, hmove, hrest⟩ := Option.bind_eq_some_iff.mp hrun
    have hone := movesLeft_step (step_of_move hmove) (hdraining m List.mem_cons_self)
    have hmore := ih (fun k hk => hdraining k (List.mem_cons_of_mem m hk)) hrest
    rw [List.length_cons]
    omega

/-- As long as the workers of a closed pool are not all joined, the next one can move if it has not
left, and be joined if it has. -/
theorem exists_move (hh : Reported h) (hclosed : h.pool.isOpen = false) (hover : h.isOver = false) :
    ∃ m : PoolMove, m.isDraining = true ∧ (h.move m).isSome = true := by
  have hne : h.joined ≠ h.pool.size := by simpa [isOver] using hover
  obtain ⟨worker, hnext⟩ : ∃ worker, h.pool.workers[h.joined]? = some worker :=
    ⟨_, List.getElem?_eq_getElem (Nat.lt_of_le_of_ne hh.joined hne)⟩
  cases worker with
  | free =>
    cases hqueue : h.pool.queue with
    | nil => exact ⟨.stop h.joined, rfl, by simp [move, Pool.stop, hnext, hqueue, hclosed]⟩
    | cons r rest => exact ⟨.take h.joined, rfl, by simp [move, Pool.take, hnext, hqueue]⟩
  | busy r => exact ⟨.handle h.joined none, rfl, by simp [move, Pool.jobOf?, hnext, Worker.job?]⟩
  | stopped | lost _ => exact ⟨.join, rfl, by simp [move, hnext, hclosed, Worker.isAlive]⟩

/-! ## What became of the requests -/

/-- When all workers were joined, they have all left. -/
theorem left_of_isOver (hh : Reported h) (hover : h.isOver = true) :
    ∀ worker ∈ h.pool.workers, worker.isAlive = false := by
  intro worker hworker
  obtain ⟨i, hi⟩ := List.mem_iff_getElem?.mp hworker
  have hlt := (List.getElem?_eq_some_iff.mp hi).1
  have hjoined : h.joined = h.pool.size := by simpa [isOver] using hover
  exact hh.left i (by rw [hjoined]; exact hlt) worker hi

/-- When every worker has left, nothing is in hand, and nothing is waiting unless all were lost. -/
theorem nothing_left (hh : Accounted n h)
    (hleft : ∀ worker ∈ h.pool.workers, worker.isAlive = false) :
    h.pool.jobs = [] ∧ (h.pool.isLost = false → h.pool.queue = []) := by
  refine ⟨List.flatMap_eq_nil_iff.mpr fun worker hworker => ?_, fun hkept => ?_⟩
  · have hdead := hleft worker hworker
    cases worker with
    | stopped | lost _ => rfl
    | free | busy _ => cases hdead
  · obtain ⟨worker, hworker, hkept⟩ := List.all_eq_false.mp hkept
    have hdead := hleft worker hworker
    cases worker with
    | stopped => exact (hh.stopped hworker).2
    | lost _ => exact absurd rfl hkept
    | free | busy _ => cases hdead

/-- When every worker has left, all requests were started and handled, unless all workers were
lost. -/
theorem all_handled (hh : Accounted n h) (hleft : ∀ worker ∈ h.pool.workers, worker.isAlive = false)
    (hkept : h.pool.isLost = false) :
    h.started = h.sent ∧ (h.history.map (·.request)).Perm h.sent := by
  obtain ⟨hjobs, hqueue⟩ := nothing_left hh hleft
  have hstarted : h.started = h.sent := by
    obtain ⟨rest, hsent, hrest⟩ := hh.queued
    obtain rfl := hrest.resolve_right (Bool.eq_false_iff.mp hkept)
    rw [hqueue hkept, List.append_nil] at hsent
    exact (List.reverse_injective hsent).symm
  refine ⟨hstarted, ?_⟩
  have hinHand := hh.inHand
  rw [hjobs, hstarted, Multiset.coe_nil, add_zero] at hinHand
  rw [history, List.map_reverse]
  exact (List.reverse_perm _).trans (Multiset.coe_eq_coe.mp hinHand).symm

/-- A single worker that has not been lost has handled the requests in the order they were sent,
when it has left. -/
theorem handled_in_order (hn : n ≤ 1) (hrun : (start n).moves ms = some h)
    (hleft : ∀ worker ∈ h.pool.workers, worker.isAlive = false) (hkept : h.pool.isLost = false) :
    h.history.map (·.request) = h.sent.reverse := by
  have hh := accounted_of_moves hrun
  have hturn : InTurn h := moves_induction (fun _ _ _ => inTurn_step) (inTurn_start hn) hrun
  have hstarted := hturn.started
  rw [(nothing_left hh hleft).1, List.nil_append, (all_handled hh hleft hkept).1] at hstarted
  rw [history, List.map_reverse, hstarted]

/-- What was handled to its end are the requests whose handler did not panic. -/
theorem map_request_completed (h : Handling) :
    h.completed.map (·.request) =
      ((h.history.map (·.request)).zip (h.history.map (·.panic))
        |>.filter (·.2.isNone)).map (·.1) := by
  rw [completed, List.zip_map', List.filter_map, List.map_map]
  rfl

/-- The panics that were reported of handlers are those of the handled requests. -/
theorem events_of_isOver (hh : Reported h) (hover : h.isOver = true) :
    h.events.Perm (h.history.filterMap (·.event?) ++
      (List.range h.pool.size).filterMap h.pool.joinEvent?) := by
  have hjoined : h.joined = h.pool.size := by simpa [isOver] using hover
  have hlog := hh.log
  rw [hjoined] at hlog
  rw [events, history, List.filterMap_reverse]
  exact (List.reverse_perm _).trans (hlog.trans ((List.reverse_perm _).symm.append_right _))

end Handling

/-! ## Every request once -/

/-- **Every request is handled exactly once, unless every worker is lost.** Take a pool started with
`n` workers and any schedule, in which the handler ends as it likes each time.

- No more requests are in hand than there are workers.
- Requests are started in the order they were sent.
- A worker is lost only to the destructor of a payload. Until the pool is closed every other worker
  is there, and as long as one is there any request can be sent.
- Once the pool is closed, each move of a worker and each join uses up one of the moves that are
  left, and there is another one until all workers were joined.
- What the handler did is recorded for each request that it was called for.
- When all workers were joined, one event was reported for each time the handler panicked, and one
  for each lost worker. If not all of them were lost, every request sent was started and handled,
  and by a single worker in the order they were sent. -/
theorem handled_exactly_once (n : Nat) (ms : List PoolMove) (h : Handling)
    (hrun : (Handling.start n).moves ms = some h) :
    h.pool.jobs.length ≤ max n 1 ∧
    h.started.reverse <+: h.sent.reverse ∧
    ((∀ i payload, .lose i payload ∉ ms) → ∀ worker ∈ h.pool.workers, worker.panic? = none) ∧
    (.close ∉ ms →
      (∀ worker ∈ h.pool.workers, worker.isAlive = true ∨ worker.panic?.isSome = true) ∧
      (h.pool.isDeserted = false → ∀ r, (h.move (.send r)).isSome = true)) ∧
    (.close ∈ ms → ∀ drain t, (∀ m ∈ drain, m.isDraining = true) → h.moves drain = some t →
      t.movesLeft + drain.length ≤ h.movesLeft ∧
      (t.isOver = false → ∃ m : PoolMove, m.isDraining = true ∧ (t.move m).isSome = true)) ∧
    h.history.map (·.panic) = ms.filterMap (·.outcome?) ∧
    (h.isOver = true →
      h.pool.isDeserted = true ∧
      h.events.Perm (h.history.filterMap (·.event?) ++
        (List.range h.pool.size).filterMap h.pool.joinEvent?) ∧
      (h.pool.isLost = false →
        h.started = h.sent ∧ (h.history.map (·.request)).Perm h.sent ∧
        (n ≤ 1 → h.history.map (·.request) = h.sent.reverse ∧
          h.completed.map (·.request) =
            ((h.sent.reverse.zip (ms.filterMap (·.outcome?))).filter (·.2.isNone)).map
              (·.1)))) := by
  have hh := Handling.accounted_of_moves hrun
  have hreported := Handling.reported_of_moves hrun
  have hopen := Handling.isOpen_of_moves hrun
  have houtcomes : h.history.map (·.panic) = ms.filterMap (·.outcome?) :=
    Handling.history_of_moves hrun
  refine ⟨?_, ?_, fun hlost => Handling.panic?_of_moves hlost hrun, fun hclose => ?_,
    fun hclose drain t hdrain ht => ⟨Handling.movesLeft_of_moves hdrain ht, ?_⟩, houtcomes,
    fun hover => ?_⟩
  · rw [← hh.size]
    exact h.pool.length_jobs_le
  · obtain ⟨rest, hsent, -⟩ := hh.queued
    exact ⟨rest, hsent.symm⟩
  · exact Handling.isSome_move_send hh (hopen.mpr ⟨rfl, hclose⟩)
  · have hboth : (Handling.start n).moves (ms ++ drain) = some t := by
      rw [Handling.moves_append, hrun, Option.bind_some, ht]
    refine Handling.exists_move (Handling.reported_of_moves hboth) ?_
    rw [← Bool.not_eq_true, Handling.isOpen_of_moves hboth]
    simp [hclose]
  · have hleft := Handling.left_of_isOver hreported hover
    refine ⟨List.all_eq_true.mpr fun worker hworker => by simp [hleft worker hworker],
      Handling.events_of_isOver hreported hover, fun hkept => ?_⟩
    obtain ⟨hstarted, hhandled⟩ := Handling.all_handled hh hleft hkept
    refine ⟨hstarted, hhandled, fun hn => ?_⟩
    have horder := Handling.handled_in_order hn hrun hleft hkept
    refine ⟨horder, ?_⟩
    rw [Handling.map_request_completed, horder, houtcomes]

/-- Two workers and four requests. One request is sent twice, and its handler panics the first time
only. The second worker is lost, and the first one does the rest after the pool is closed. -/
def panicking : List PoolMove := [
  .send ⟨⟨3⟩, .l1⟩, .take 0, .send ⟨⟨4⟩, .l1⟩, .send ⟨⟨3⟩, .l1⟩, .handle 0 (some (.text "boom")),
  .take 1, .lose 1 (.text "again"), .take 0, .send ⟨⟨5⟩, .l2⟩, .close, .handle 0 none, .take 0,
  .handle 0 none, .stop 0, .join, .join]

theorem handled_exactly_once_panicking :
    ∃ h, (Handling.start 2).moves panicking = some h ∧ h.isOver = true ∧
      (h.history.map (·.request)).Perm
        [⟨⟨5⟩, .l2⟩, ⟨⟨3⟩, .l1⟩, ⟨⟨4⟩, .l1⟩, ⟨⟨3⟩, .l1⟩] ∧
      h.events.Perm [.requestPanicked ⟨⟨3⟩, .l1⟩ (.text "boom"), .requestPanicked ⟨⟨4⟩, .l1⟩ .other,
        .workerPanicked "tierjit-compiler-1" (.text "again")] := by
  have hruns : ((Handling.start 2).moves panicking).any fun h =>
      h.isOver && !h.pool.isLost &&
        h.sent = [⟨⟨5⟩, .l2⟩, ⟨⟨3⟩, .l1⟩, ⟨⟨4⟩, .l1⟩, ⟨⟨3⟩, .l1⟩] &&
        h.history.filterMap (·.event?) ++ (List.range h.pool.size).filterMap h.pool.joinEvent? =
          [.requestPanicked ⟨⟨3⟩, .l1⟩ (.text "boom"), .requestPanicked ⟨⟨4⟩, .l1⟩ .other,
            .workerPanicked "tierjit-compiler-1" (.text "again")] := by
    decide +kernel
  obtain ⟨h, hrun, hend⟩ := (Option.any_eq_true _ _).mp hruns
  simp only [Bool.and_eq_true, Bool.not_eq_true', decide_eq_true_eq] at hend
  obtain ⟨⟨⟨hover, hkept⟩, hsent⟩, hreports⟩ := hend
  obtain ⟨-, -, -, -, -, -, hdone⟩ := handled_exactly_once 2 panicking h hrun
  obtain ⟨-, hevents, hall⟩ := hdone hover
  exact ⟨h, hrun, hover, hsent ▸ (hall hkept).2.1, hreports ▸ hevents⟩

/-- The handler of the only worker panics with something whose destructor panics too, while another
request is waiting. -/
def fatal : List PoolMove := [
  .send ⟨⟨3⟩, .l1⟩, .send ⟨⟨4⟩, .l1⟩, .take 0, .lose 0 (.text "again")]

/-- The pool is left with no worker before it is closed: nothing can be sent any more, and the
request that was waiting is never started. -/
theorem pool_lost_to_destructor :
    ∃ h t, (Handling.start 1).moves fatal = some h ∧ h.pool.isOpen = true ∧
      (∀ r, h.move (.send r) = none) ∧
      h.moves [.close, .join] = some t ∧ t.isOver = true ∧
      t.sent = [⟨⟨4⟩, .l1⟩, ⟨⟨3⟩, .l1⟩] ∧ t.started = [⟨⟨3⟩, .l1⟩] ∧
      t.events = [.requestPanicked ⟨⟨3⟩, .l1⟩ .other,
        .workerPanicked "tierjit-compiler-0" (.text "again")] := by
  exact ⟨_, _, rfl, rfl, fun _ => rfl, rfl, rfl, rfl, rfl, rfl⟩

end TieredDispatch

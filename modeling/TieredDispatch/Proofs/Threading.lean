import TieredDispatch.Proofs.Books
import TieredDispatch.Proofs.Task
import TieredDispatch.Simulation.Threads

/-!
# Steps of a workload on threads

A thread or a worker that takes its step either makes the next call, calls the compiler, gets the
compiler's answer, leaves a call that returned, or takes some other step of the dispatcher; the main
thread looks at a method or loads a counter (`ThreadedWorkload.Step`). So the attempts to compile
are numbered by the milestones of the run, whoever makes them, and as many are told that they failed
as there are multiples of `failEvery` among the numbers, those not counted that are still to be told
(`ThreadedWorkload.Attempted`).
-/

namespace TieredDispatch

/-- Whether the milestone neither makes a call nor begins or ends a compile call. -/
def Milestone.isMinor {α : Type} (μ : Milestone α) : Bool :=
  !μ.isCall && !μ.isCompile && μ.ending?.isNone

namespace ThreadedWorkload

variable {w w' : ThreadedWorkload} {mover : Mover}

/-! ## What a step does -/

/-- A thread goes on with its call, or a worker with what it has to do. -/
structure Goes (w : ThreadedWorkload) (label : Label SimArtifact UInt64)
    (s : System SimArtifact UInt64) : Prop where
  plain : label.isPlain
  step : w.system.step label = some s
  /-- When the callers are done, only workers go on. -/
  active : w.isDone → label.isWorkers

/-- What a step of a workload does. -/
inductive Step (w : ThreadedWorkload) : ThreadedWorkload → Prop
  | invoke {i : Nat} {m : MethodId} {rest : List MethodId} {s : System SimArtifact UInt64}
      (hpicks : w.picks[i]? = some (m :: rest))
      (hstep : w.system.step (.caller i (.invoke m false)) = some s) :
      Step w { w with system := s, picks := w.picks.set i rest }
  | ask {mover : Mover} {label : Label SimArtifact UInt64} {r : Request}
      {s : System SimArtifact UInt64} (hgoes : w.Goes label s)
      (hstays : w.system.givesUp label = false)
      (hmilestone : w.system.milestone? label = some (.started r)) :
      Step w { w.ask mover r with system := s }
  | hear {mover : Mover} {label : Label SimArtifact UInt64} {r : Request}
      {answer : Except String SimArtifact} {s : System SimArtifact UInt64} (hgoes : w.Goes label s)
      (hstays : w.system.givesUp label = false) (hanswer : w.answer? mover = some answer)
      (hmilestone : w.system.milestone? label = some (.ended r (.ofExcept answer))) :
      Step w { w.hear mover with system := s }
  | go {label : Label SimArtifact UInt64} {s : System SimArtifact UInt64} (hgoes : w.Goes label s)
      (hstays : w.system.givesUp label = false)
      (hminor : ∀ μ ∈ w.system.milestone? label, μ.isMinor) :
      Step w { w with system := s }
  | leave {i : Nat} {c : Call SimArtifact UInt64} {outer : List (Call SimArtifact UInt64)}
      {result : CallResult UInt64} {s : System SimArtifact UInt64}
      (hcalls : w.system.callers[i]? = some (c :: outer)) (hturn : c.turn = .ended result)
      (hgoes : w.Goes (.caller i .leave) s) :
      Step w { w.note result with system := s }
  | look (hdone : w.isDone) (hleft : w.looked < w.options.methods.toNat) : Step w w.look
  | load {w' : ThreadedWorkload} (hdone : w.isDone) (hall : w.options.methods.toNat ≤ w.looked)
      (hload : w.load = some w') : Step w w'

theorem eq_of_go {label : Label SimArtifact UInt64} (h : w.go label = some w') :
    ∃ s, w.system.step label = some s ∧ w' = { w with system := s } := by
  obtain ⟨s, hs, hw⟩ := Option.bind_eq_some_iff.mp h
  exact ⟨s, hs, (Option.some.inj hw).symm⟩

/-- The callers are done when they have no call to make and none to leave. -/
theorem isDone_iff : w.isDone ↔ (∀ picks ∈ w.picks, picks = []) ∧ w.system.isClear := by
  rw [isDone, Bool.and_eq_true, List.all_eq_true]
  simp only [List.isEmpty_iff]
  rfl

/-- A thread that has a call to make is not done. -/
theorem not_isDone_of_picks {i : Nat} {m : MethodId} {rest : List MethodId}
    (hpicks : w.picks[i]? = some (m :: rest)) : ¬ w.isDone := fun hdone =>
  List.cons_ne_nil m rest ((isDone_iff.mp hdone).1 _ (List.mem_of_getElem? hpicks))

/-- A thread that has a call is not done. -/
theorem not_isDone_of_calls {i : Nat} {c : Call SimArtifact UInt64}
    {outer : List (Call SimArtifact UInt64)}
    (hcalls : w.system.callers[i]? = some (c :: outer)) : ¬ w.isDone := fun hdone => by
  have hclear := (isDone_iff.mp hdone).2
  rw [System.isClear, List.all_eq_true] at hclear
  cases hclear _ (List.mem_of_getElem? hcalls)

theorem step_thread {i : Nat} (hstep : w.stepThread i = some w') : Step w w' := by
  obtain ⟨calls, hcalls, hrest⟩ := Option.bind_eq_some_iff.mp hstep
  cases calls with
  | nil =>
    obtain ⟨picks, hpicks, hrest⟩ := Option.bind_eq_some_iff.mp hrest
    cases picks with
    | nil => cases hrest
    | cons m rest =>
      obtain ⟨s, hs, rfl⟩ := eq_of_go hrest
      exact .invoke hpicks hs
  | cons c outer =>
    have hactive {label : Label SimArtifact UInt64} : w.isDone → label.isWorkers :=
      fun hdone => absurd hdone (not_isDone_of_calls hcalls)
    cases hturn : c.turn with
    | dispatcher =>
      simp only [hturn] at hrest
      obtain ⟨s, hs, rfl⟩ := eq_of_go hrest
      refine .go ⟨rfl, hs, hactive⟩ rfl fun μ hμ => ?_
      have hmilestone : w.system.milestone? (.caller i .advance) =
          c.milestone? w.system.dispatcher := by
        simp [System.milestone?, hcalls, CallerMove.milestone?]
      rw [hmilestone] at hμ
      obtain ⟨hcall, hcompile⟩ := c.any_milestone? w.system.dispatcher
      rw [Option.any_eq_false] at hcall hcompile
      simp [Milestone.isMinor, hcall μ hμ, hcompile μ hμ, c.ending?_milestone? _ μ hμ]
    | compiler job =>
      have hrequest := Call.compiles?_of_turn hturn
      cases hbusy : job.isCompiling with
      | true =>
        simp only [hturn, hbusy, if_true] at hrest
        obtain ⟨answer, hanswer, hrest⟩ := Option.bind_eq_some_iff.mp hrest
        obtain ⟨s, hs, rfl⟩ := eq_of_go hrest
        have hplain : (.caller i (.endCompile (.ofExcept answer)) :
            Label SimArtifact UInt64).isPlain := by
          cases answer <;> rfl
        refine .hear (r := job.request) ⟨hplain, hs, hactive⟩ rfl hanswer ?_
        simp [System.milestone?, hcalls, CallerMove.milestone?, hrequest]
      | false =>
        simp only [hturn, hbusy] at hrest
        obtain ⟨s, hs, rfl⟩ := eq_of_go hrest
        refine .ask ⟨rfl, hs, hactive⟩ rfl ?_
        simp [System.milestone?, hcalls, CallerMove.milestone?, hrequest]
    | engine found =>
      simp only [hturn] at hrest
      obtain ⟨s, hs, rfl⟩ := eq_of_go hrest
      refine .go ⟨rfl, hs, hactive⟩ rfl fun μ hμ => ?_
      simp [System.milestone?, hcalls, CallerMove.milestone?] at hμ
    | ended result =>
      simp only [hturn] at hrest
      obtain ⟨s, hs, rfl⟩ := eq_of_go hrest
      have hsame : (w.note result).system = w.system := by cases result <;> rfl
      rw [hsame] at hs
      exact .leave hcalls hturn ⟨rfl, hs, hactive⟩

theorem step_worker {i : Nat} (hstep : w.stepWorker i = some w') : Step w w' := by
  obtain ⟨pool, hpool, hrest⟩ := Option.bind_eq_some_iff.mp hstep
  have hmilestone (move : WorkerMove SimArtifact) : w.system.milestone? (.worker i move) =
      (pool.jobOf? i).bind move.milestone? := by
    simp [System.milestone?, hpool]
  cases hjob : pool.jobOf? i with
  | none =>
    simp only [hjob] at hrest
    obtain ⟨s, hs, rfl⟩ := eq_of_go hrest
    refine .go ⟨rfl, hs, fun _ => rfl⟩ rfl fun μ hμ => ?_
    simp [hmilestone, hjob] at hμ
  | some job =>
    cases hturn : job.turn with
    | dispatcher =>
      simp only [hjob, hturn] at hrest
      obtain ⟨s, hs, rfl⟩ := eq_of_go hrest
      refine .go ⟨rfl, hs, fun _ => rfl⟩ rfl fun μ hμ => ?_
      simp only [hmilestone, hjob, Option.bind_some, WorkerMove.milestone?] at hμ
      obtain ⟨hcall, hcompile⟩ := job.any_milestone?
      rw [Option.any_eq_false] at hcall hcompile
      simp [Milestone.isMinor, hcall μ hμ, hcompile μ hμ, job.ending?_milestone? μ hμ]
    | compiler =>
      cases hbusy : job.isCompiling with
      | true =>
        simp only [hjob, hturn, hbusy, if_true] at hrest
        obtain ⟨answer, hanswer, hrest⟩ := Option.bind_eq_some_iff.mp hrest
        obtain ⟨s, hs, rfl⟩ := eq_of_go hrest
        have hplain : (.worker i (.endCompile (.ofExcept answer)) :
            Label SimArtifact UInt64).isPlain := by
          cases answer <;> rfl
        refine .hear (r := job.request) ⟨hplain, hs, fun _ => rfl⟩ rfl hanswer ?_
        simp [hmilestone, hjob, WorkerMove.milestone?]
      | false =>
        simp only [hjob, hturn, hbusy] at hrest
        obtain ⟨s, hs, rfl⟩ := eq_of_go hrest
        refine .ask (r := job.request) ⟨rfl, hs, fun _ => rfl⟩ rfl ?_
        simp [hmilestone, hjob, WorkerMove.milestone?]
    | ended failure =>
      simp only [hjob, hturn] at hrest
      obtain ⟨s, hs, rfl⟩ := eq_of_go hrest
      refine .go ⟨rfl, hs, fun _ => rfl⟩ rfl fun μ hμ => ?_
      simp [hmilestone, hjob, WorkerMove.milestone?] at hμ

theorem step_main (hstep : w.stepMain = some w') : Step w w' := by
  unfold stepMain at hstep
  split at hstep
  · cases hstep
  · rename_i hdone
    have hdone : w.isDone := by simpa using hdone
    split at hstep
    · rename_i hleft
      obtain rfl := Option.some.inj hstep
      exact .look hdone hleft
    · rename_i hall
      exact .load hdone (Nat.le_of_not_lt hall) hstep

/-- **What a step of a workload does.** -/
theorem step_cases (hstep : w.step mover = some w') : Step w w' := by
  cases mover with
  | thread i => exact step_thread hstep
  | worker i => exact step_worker hstep
  | main => exact step_main hstep

end ThreadedWorkload

/-! ## Attempts of the compiler -/

namespace SimulatedCompiler

/-- How many of the first attempts fail. -/
def failuresAmong (compiler : SimulatedCompiler) (attempts : Nat) : Nat :=
  compiler.failEvery.elim 0 fun n => attempts / n.toNat

variable (compiler : SimulatedCompiler) (r : Request)

theorem compile_snd : (compiler.compile r).2 =
    { compiler with
      attempts := compiler.attempts + 1, spent := compiler.spent + compiler.delayAt r.tier } := by
  simp only [compile]
  split <;> rfl

theorem isOk_compile :
    (compiler.compile r).1.isOk = !compiler.fails (compiler.attempts + 1) := by
  simp only [compile]
  split
  · rename_i hfails
    simp [hfails, Except.isOk, Except.toBool]
  · rename_i hworks
    simp [hworks, Except.isOk, Except.toBool]

/-- One more attempt fails if its number is a multiple. -/
theorem failuresAmong_succ {n : Nat} (hattempts : compiler.attempts.toNat = n)
    (hfew : n + 1 < 2 ^ 64) :
    compiler.failuresAmong (n + 1) =
      compiler.failuresAmong n + (compiler.fails (compiler.attempts + 1)).toNat := by
  have hnext : (compiler.attempts + 1).toNat = n + 1 := by
    rw [UInt64.toNat_add, hattempts]
    exact Nat.mod_eq_of_lt hfew
  cases hevery : compiler.failEvery with
  | none => simp [failuresAmong, fails, hevery]
  | some k =>
    have hdvd : (compiler.attempts + 1) % k = 0 ↔ k.toNat ∣ n + 1 := by
      rw [← UInt64.toNat_inj, UInt64.toNat_mod, hnext]
      exact (Nat.dvd_iff_mod_eq_zero ..).symm
    simp only [failuresAmong, fails, hevery, Option.elim_some, Option.any_some, Nat.succ_div]
    by_cases hmultiple : k.toNat ∣ n + 1 <;> simp [hmultiple, hdvd]

end SimulatedCompiler

namespace ThreadedWorkload

variable {h : History SimArtifact} {w w' : ThreadedWorkload} {μ? : Option (Milestone SimArtifact)}

/-- Attempts are numbered, those that ended were answered, and as many were or will be told that
they failed as there are multiples among the numbers. -/
structure Attempted (h : History SimArtifact) (w : ThreadedWorkload) : Prop where
  number : w.compiler.attempts.toNat = h.compiles
  answered : h.compiles = h.ended + w.answers.length
  failed : w.compiler.failuresAmong h.compiles =
    h.endings .failures + w.answers.countP (!·.2.isOk)

theorem attempted_start (options : Options) (d : Dispatcher SimArtifact)
    (picks : List (List MethodId)) : Attempted [] (start options d picks) where
  number := rfl
  answered := rfl
  failed := by
    simp only [SimulatedCompiler.failuresAmong, History.compiles, List.countP_nil]
    cases (start options d picks).compiler.failEvery with
    | none => rfl
    | some n => exact Nat.zero_div _

/-- Nothing changes as long as the compiler is not called and does not answer. -/
theorem Attempted.keep (hattempted : Attempted h w)
    (hquiet : ∀ μ ∈ μ?, μ.isCompile = false ∧ μ.ending? = none)
    (hcompiler : w'.compiler = w.compiler) (hanswers : w'.answers = w.answers) :
    Attempted (h ++ μ?.toList) w' := by
  have hsame : History.compiles (h ++ μ?.toList) = h.compiles ∧
      History.ended (h ++ μ?.toList) = h.ended ∧
      History.endings (h ++ μ?.toList) .failures = h.endings .failures := by
    cases μ? with
    | none => simp
    | some μ =>
      obtain ⟨hcompile, hending⟩ := hquiet μ rfl
      simp [History.compiles, History.ended, History.endings, hcompile, hending]
  obtain ⟨hnumber, hanswered, hfailed⟩ := hattempted
  obtain ⟨hcompiles, hended, hfailures⟩ := hsame
  exact ⟨by rw [hcompiler, hnumber, hcompiles], by rw [hcompiles, hended, hanswers, hanswered],
    by rw [hcompiler, hcompiles, hfailures, hanswers, hfailed]⟩

theorem Attempted.ask (hattempted : Attempted h w) {mover : Mover} {r : Request}
    {s : System SimArtifact UInt64} (hfew : h.compiles + 1 < 2 ^ 64) :
    Attempted (h ++ [.started r]) { w.ask mover r with system := s } := by
  obtain ⟨hnumber, hanswered, hfailed⟩ := hattempted
  have hcompiles : History.compiles (h ++ [.started r]) = h.compiles + 1 := by
    simp [History.compiles, Milestone.isCompile]
  have hended : History.ended (h ++ [.started r]) = h.ended := by
    simp [History.ended, Milestone.ending?]
  have hfailures : History.endings (h ++ [.started r]) .failures = h.endings .failures := by
    simp [History.endings, Milestone.ending?]
  have hnext := w.compiler.failuresAmong_succ hnumber hfew
  have hok := w.compiler.isOk_compile r
  constructor
  · show (w.compiler.compile r).2.attempts.toNat = _
    rw [w.compiler.compile_snd, hcompiles, UInt64.toNat_add, hnumber]
    exact Nat.mod_eq_of_lt hfew
  · show _ = _ + (w.answers.length + 1)
    rw [hcompiles, hended, hanswered]
    omega
  · show (w.compiler.compile r).2.failuresAmong _ =
      _ + List.countP _ ((mover, (w.compiler.compile r).1) :: w.answers)
    have hsame : (w.compiler.compile r).2.failuresAmong = w.compiler.failuresAmong := by
      rw [w.compiler.compile_snd]
      rfl
    rw [hsame, hcompiles, hnext, hfailures, hfailed, List.countP_cons, hok]
    cases w.compiler.fails (w.compiler.attempts + 1) <;> simp [Nat.add_assoc]

theorem Attempted.hear (hattempted : Attempted h w) {mover : Mover} {r : Request}
    {answer : Except String SimArtifact} {s : System SimArtifact UInt64}
    (hanswer : w.answer? mover = some answer) :
    Attempted (h ++ [.ended r (.ofExcept answer)]) { w.hear mover with system := s } := by
  obtain ⟨hnumber, hanswered, hfailed⟩ := hattempted
  obtain ⟨entry, hfind, rfl⟩ := Option.map_eq_some_iff.mp hanswer
  obtain ⟨hmover, before, after, hsplit, hother⟩ := List.find?_eq_some_iff_append.mp hfind
  have herased : w.answers.eraseP (·.1 = mover) = before ++ after := by
    rw [hsplit, List.eraseP_append_right _ (by simpa using hother), List.eraseP_cons, hmover,
      cond_true]
  have hcompiles : History.compiles (h ++ [.ended r (.ofExcept entry.2)]) = h.compiles := by
    simp [History.compiles, Milestone.isCompile]
  rw [hsplit] at hanswered hfailed
  constructor
  · exact hnumber.trans hcompiles.symm
  · show _ = _ + (w.answers.eraseP (·.1 = mover)).length
    rw [hcompiles, herased, hanswered]
    simp [History.ended, Milestone.ending?]
    omega
  · show w.compiler.failuresAmong _ = _ + List.countP _ (w.answers.eraseP (·.1 = mover))
    rw [hcompiles, herased, hfailed]
    obtain ⟨asker, answer⟩ := entry
    cases answer with
    | ok artifact =>
      simp [History.endings, Milestone.ending?, Outcome.ofExcept, Outcome.meter, Except.isOk,
        Except.toBool]
    | error reason =>
      simp [History.endings, Milestone.ending?, Outcome.ofExcept, Outcome.meter, Except.isOk,
        Except.toBool]
      omega

end ThreadedWorkload

end TieredDispatch
